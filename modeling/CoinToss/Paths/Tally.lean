/-!
# CoinToss.Paths.Tally

A value for each of some coin paths, in the order in which they came in.

Writing a path that is there keeps its place; a new one goes to the end.  No path occurs twice.

* `get?_insert_self`, `get?_insert_of_ne` — what a write does to the values;
* `keys_insert` — what a write does to the order;
* `contains_iff` — a path is there exactly when it is among the keys.
-/

namespace CoinToss

/-- Values by path, in order of arrival. -/
structure Tally (V : Type) where
  entries : List (String × V)
  nodup : (entries.map (·.1)).Nodup := by simp

namespace Tally

variable {V : Type}

/-- Writes an entry of a list in place, or at the end. -/
def put (path : String) (v : V) : List (String × V) → List (String × V)
  | [] => [(path, v)]
  | (k, w) :: rest => if k = path then (path, v) :: rest else (k, w) :: put path v rest

/-- The value of a path in a list. -/
def find? (path : String) : List (String × V) → Option V
  | [] => none
  | (k, w) :: rest => if k = path then some w else find? path rest

theorem map_fst_put (path : String) (v : V) (l : List (String × V)) :
    (put path v l).map (·.1) =
      if path ∈ l.map (·.1) then l.map (·.1) else l.map (·.1) ++ [path] := by
  induction l with
  | nil => simp [put]
  | cons e rest ih =>
    obtain ⟨k, w⟩ := e
    by_cases h : k = path
    · simp [put, h]
    · by_cases hm : path ∈ rest.map (·.1) <;> simp_all [put, Ne.symm h, eq_comm]

theorem nodup_put (path : String) (v : V) {l : List (String × V)} (h : (l.map (·.1)).Nodup) :
    ((put path v l).map (·.1)).Nodup := by
  rw [map_fst_put]
  split
  · exact h
  · next hm =>
    rw [List.nodup_append]
    exact ⟨h, by simp, fun a ha b hb => by rintro rfl; simp_all⟩

theorem find?_put_self (path : String) (v : V) (l : List (String × V)) :
    find? path (put path v l) = some v := by
  induction l with
  | nil => simp [put, find?]
  | cons e rest ih =>
    obtain ⟨k, w⟩ := e
    by_cases h : k = path <;> simp [put, find?, h, ih]

theorem find?_put_of_ne {path other : String} (v : V) (l : List (String × V))
    (h : other ≠ path) : find? other (put path v l) = find? other l := by
  induction l with
  | nil => simp [put, find?, Ne.symm h]
  | cons e rest ih =>
    obtain ⟨k, w⟩ := e
    by_cases hk : k = path
    · subst hk; simp [put, find?, Ne.symm h]
    · simp [put, hk, find?, ih]

theorem find?_isSome_iff (path : String) (l : List (String × V)) :
    (find? path l).isSome = true ↔ path ∈ l.map (·.1) := by
  induction l with
  | nil => simp [find?]
  | cons e rest ih =>
    obtain ⟨k, w⟩ := e
    by_cases h : k = path
    · simp [find?, h]
    · simp only [find?, if_neg h, ih, List.map_cons, List.mem_cons, Ne.symm h, false_or]

/-- No entries. -/
def empty : Tally V := ⟨[], by simp⟩

instance : Inhabited (Tally V) := ⟨empty⟩

/-- The paths, in order of arrival. -/
def keys (t : Tally V) : List String := t.entries.map (·.1)

/-- How many paths there are. -/
def size (t : Tally V) : Nat := t.entries.length

/-- The value of a path. -/
def get? (t : Tally V) (path : String) : Option V := find? path t.entries

/-- Whether a path has a value. -/
def contains (t : Tally V) (path : String) : Bool := (t.get? path).isSome

/-- Writes the value of a path. -/
def insert (t : Tally V) (path : String) (v : V) : Tally V :=
  ⟨put path v t.entries, nodup_put path v t.nodup⟩

/-- Writes entries one after the other. -/
def ofList (entries : List (String × V)) : Tally V :=
  entries.foldl (fun t e => t.insert e.1 e.2) empty

/-- Tallies with the same entries in the same order are equal. -/
@[ext] theorem ext {s t : Tally V} (h : s.entries = t.entries) : s = t := by
  cases s; cases t; simp_all

/-- Equality of entries decides equality. -/
instance [DecidableEq V] : DecidableEq (Tally V) := fun s t =>
  if h : s.entries = t.entries then .isTrue (ext h) else .isFalse fun e => h (e ▸ rfl)

/-- Two tallies with the same values, in whatever order. -/
def Same (s t : Tally V) : Prop := ∀ path, s.get? path = t.get? path

@[simp] theorem get?_empty (path : String) : (empty : Tally V).get? path = none := rfl

@[simp] theorem get?_insert_self (t : Tally V) (path : String) (v : V) :
    (t.insert path v).get? path = some v := find?_put_self path v t.entries

theorem get?_insert_of_ne (t : Tally V) {path other : String} (v : V) (h : other ≠ path) :
    (t.insert path v).get? other = t.get? other := find?_put_of_ne v t.entries h

/-- What a write does to the value of any path. -/
theorem get?_insert (t : Tally V) (path other : String) (v : V) :
    (t.insert path v).get? other = if other = path then some v else t.get? other := by
  split
  · next h => rw [h, get?_insert_self]
  · next h => exact t.get?_insert_of_ne v h

/-- A write keeps the order; a new path goes to the end. -/
theorem keys_insert (t : Tally V) (path : String) (v : V) :
    (t.insert path v).keys = if path ∈ t.keys then t.keys else t.keys ++ [path] :=
  map_fst_put path v t.entries

/-- A path is there exactly when it is among the keys. -/
theorem contains_iff (t : Tally V) (path : String) : t.contains path = true ↔ path ∈ t.keys :=
  find?_isSome_iff path t.entries

/-- After a write the path is there, and so is whatever was. -/
@[simp] theorem contains_insert (t : Tally V) (path other : String) (v : V) :
    (t.insert path v).contains other = (decide (other = path) || t.contains other) := by
  by_cases h : other = path <;> simp [contains, get?_insert, h]

end Tally

end CoinToss
