/-!
# CoinToss.Paths.PathSet

Sets of coin paths.

A set is kept as its ascending list, so two sets with the same members are equal
(`PathSet.ext_mem`) and the written form is the list itself.

* `mem_insert` — inserting adds exactly the path.
-/

namespace CoinToss

/-- A set of paths, as its strictly ascending list. -/
structure PathSet where
  toList : List String
  ascending : toList.Pairwise (· < ·) := by simp
  deriving DecidableEq

namespace PathSet

/-- Puts a path into an ascending list. -/
def place (path : String) : List String → List String
  | [] => [path]
  | q :: rest =>
    if path < q then path :: q :: rest
    else if path = q then q :: rest
    else q :: place path rest

theorem mem_place (path other : String) (l : List String) :
    other ∈ place path l ↔ other = path ∨ other ∈ l := by
  induction l with
  | nil => simp [place]
  | cons q rest ih =>
    simp only [place]
    split
    · simp
    · split
      · next h => simp [h]
      · simp only [List.mem_cons, ih]
        exact ⟨by rintro (h | h | h) <;> simp [h], by rintro (h | h | h) <;> simp [h]⟩

theorem pairwise_place (path : String) {l : List String} (h : l.Pairwise (· < ·)) :
    (place path l).Pairwise (· < ·) := by
  induction l with
  | nil => simp [place]
  | cons q rest ih =>
    rw [List.pairwise_cons] at h
    simp only [place]
    split
    · next hlt =>
      refine List.pairwise_cons.2 ⟨?_, List.pairwise_cons.2 h⟩
      intro a ha
      rcases List.mem_cons.1 ha with rfl | ha
      · exact hlt
      · exact String.lt_trans hlt (h.1 a ha)
    · next hlt =>
      split
      · exact List.pairwise_cons.2 h
      · next hne =>
        refine List.pairwise_cons.2 ⟨?_, ih h.2⟩
        intro a ha
        rcases (mem_place path a rest).1 ha with rfl | ha
        · exact String.not_le.1 fun hle => hne (String.le_antisymm hle (String.not_lt.1 hlt))
        · exact h.1 a ha

/-- The set without members. -/
def empty : PathSet := ⟨[], by simp⟩

instance : Inhabited PathSet := ⟨empty⟩

instance : Membership String PathSet := ⟨fun s path => path ∈ s.toList⟩

/-- Whether a path is a member. -/
def contains (s : PathSet) (path : String) : Bool := s.toList.contains path

/-- Adds a path. -/
def insert (s : PathSet) (path : String) : PathSet :=
  ⟨place path s.toList, pairwise_place path s.ascending⟩

/-- The set of the paths of a list. -/
def ofList (paths : List String) : PathSet := paths.foldl insert empty

@[simp] theorem mem_toList {s : PathSet} {path : String} : path ∈ s.toList ↔ path ∈ s := .rfl

@[simp] theorem not_mem_empty (path : String) : path ∉ empty := by
  simp [← mem_toList, empty]

@[simp] theorem contains_iff {s : PathSet} {path : String} :
    s.contains path = true ↔ path ∈ s := by
  simp [contains, ← mem_toList]

/-- Inserting adds exactly the path. -/
@[simp] theorem mem_insert {s : PathSet} {path other : String} :
    other ∈ s.insert path ↔ other = path ∨ other ∈ s := mem_place path other s.toList

/-- The head of an ascending list is less than the head of any other list of the same members
can be, so such lists are equal. -/
theorem eq_of_mem_iff {l m : List String} (hl : l.Pairwise (· < ·)) (hm : m.Pairwise (· < ·))
    (h : ∀ path, path ∈ l ↔ path ∈ m) : l = m := by
  induction l generalizing m with
  | nil =>
    cases m with
    | nil => rfl
    | cons b bs => exact absurd ((h b).2 (by simp)) (by simp)
  | cons a as ih =>
    cases m with
    | nil => exact absurd ((h a).1 (by simp)) (by simp)
    | cons b bs =>
      rw [List.pairwise_cons] at hl hm
      have hab : a = b := by
        rcases List.mem_cons.1 ((h a).1 (by simp)) with e | ha
        · exact e
        · rcases List.mem_cons.1 ((h b).2 (by simp)) with e | hb
          · exact e.symm
          · exact absurd (hl.1 b hb) (String.lt_asymm (hm.1 a ha))
      subst hab
      congr 1
      refine ih hl.2 hm.2 fun path => ?_
      constructor
      · intro hp
        rcases List.mem_cons.1 ((h path).1 (List.mem_cons_of_mem _ hp)) with rfl | hq
        · exact absurd (hl.1 path hp) (String.lt_irrefl path)
        · exact hq
      · intro hp
        rcases List.mem_cons.1 ((h path).2 (List.mem_cons_of_mem _ hp)) with rfl | hq
        · exact absurd (hm.1 path hp) (String.lt_irrefl path)
        · exact hq

/-- Sets with the same members are equal. -/
theorem ext_mem {s t : PathSet} (h : ∀ path, path ∈ s ↔ path ∈ t) : s = t := by
  obtain ⟨l, hl⟩ := s
  obtain ⟨m, hm⟩ := t
  have : l = m := eq_of_mem_iff hl hm h
  subst this
  rfl

end PathSet

end CoinToss
