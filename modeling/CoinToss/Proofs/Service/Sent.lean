import CoinToss.Proofs.Codec.Strings
import CoinToss.Service.Request
import CoinToss.Service.Sending

/-!
# CoinToss.Proofs.Service.Sent

Which JSON is sent.

JSON is written first, and what has been written is put into UTF-8.  Both can be told from its
parts, so that a container is sent exactly if its parts are:

```
sent j  =  fault? answerWriter j = none  and  isWhole (codes j)
```

* `isWhole_quoted` — quotation marks and escapes are whole characters;
* `Sendable`, `sendable_array_iff`, `sendable_object_iff` — JSON that can be sent, by its parts;
* `sendable_int_iff`, `sendable_number_iff`, `sendable_told_iff` — parts that may fail.
-/

namespace CoinToss.Service

open Text

/-! ## whole text -/

theorem isWhole_append (xs ys : List Nat) : isWhole (xs ++ ys) = (isWhole xs && isWhole ys) :=
  List.all_append

theorem isWhole_codesOf (cs : List Char) : isWhole (codesOf cs) = true := Json.isWhole_codes cs

/-- Quotation marks and escapes are whole characters. -/
theorem isWhole_quoted (cs : List Nat) : isWhole (quoted cs) = isWhole cs := by
  have hcode (code : Nat) : isWhole (if isHalf code then [code]
      else codesOf (Json.quotedChar false (Char.ofNat code))) = !isHalf code := by
    by_cases h : isHalf code
    · simp [isWhole, h]
    · rw [if_neg h, isWhole_codesOf]
      simp [h]
  have hbody : isWhole (cs.flatMap fun code => if isHalf code then [code]
      else codesOf (Json.quotedChar false (Char.ofNat code))) = isWhole cs := by
    rw [isWhole, List.all_flatMap]
    exact List.all_congr rfl fun code => hcode code
  rw [quoted, ← List.singleton_append, isWhole_append, isWhole_append, hbody]
  have hmark : isWhole [0x22] = true := rfl
  rw [hmark, Bool.true_and, Bool.and_true]

theorem isWhole_elementCodes_iff {xs : List Json} :
    isWhole (elementCodes xs) = true ↔ ∀ x ∈ xs, isWhole (codes x) = true := by
  induction xs with
  | nil => simp [elementCodes, isWhole]
  | cons x xs ih =>
      cases xs with
      | nil => simp [elementCodes]
      | cons y ys =>
          have hcodes : elementCodes (x :: y :: ys) =
              codes x ++ codesOf [','] ++ elementCodes (y :: ys) := by
            rw [elementCodes]
            exact List.cons_ne_nil y ys
          rw [hcodes, List.forall_mem_cons, ← ih]
          simp [isWhole_append, isWhole_codesOf]

theorem isWhole_memberCodes_iff {ms : Json.Members} :
    isWhole (memberCodes ms) = true ↔
      ∀ m ∈ ms, isWhole (quotedName m.1 m.2) = true ∧ isWhole (codes m.2) = true := by
  induction ms with
  | nil => simp [memberCodes, isWhole]
  | cons m ms ih =>
      obtain ⟨k, j⟩ := m
      cases ms with
      | nil => simp [memberCodes, isWhole_append, isWhole_codesOf]
      | cons n ms =>
          have hcodes : memberCodes ((k, j) :: n :: ms) =
              quotedName k j ++ codesOf [':'] ++ codes j ++ codesOf [','] ++
                memberCodes (n :: ms) := by
            rw [memberCodes]
            exact List.cons_ne_nil n ms
          rw [hcodes, List.forall_mem_cons, ← ih]
          simp [isWhole_append, isWhole_codesOf, and_assoc]

/-! ## JSON that can be sent -/

/-- JSON that can be sent wherever it stands: it can be written, and neither its text nor the name
it is kept under has halves of characters. -/
structure Sendable (j : Json) : Prop where
  written : Json.fault? answerWriter j = none
  whole : isWhole (codes j) = true
  named : ∀ name, isWhole (quotedName name j) = true

section Sendable

variable {xs : List Json} {ms : Json.Members}

theorem isWhole_quoted_codesOf (cs : List Char) : isWhole (quoted (codesOf cs)) = true := by
  rw [isWhole_quoted, isWhole_codesOf]

/-- One name tells of all of them: the name of a member is its own, or a whole text. -/
theorem isWhole_quotedName_all {j : Json} {name : String}
    (h : isWhole (quotedName name j) = true) (other : String) :
    isWhole (quotedName other j) = true := by
  cases j with
  | misnamed cs v => exact h
  | _ => exact isWhole_quoted_codesOf _

/-- There is always room for an answer. -/
theorem inside?_answerWriter {inner : Json.Writer} :
    answerWriter.inside? = some inner ↔ inner = answerWriter := by
  rw [show answerWriter.inside? = some answerWriter from rfl]
  exact ⟨fun h => (Option.some.inj h).symm, fun h => by rw [h]⟩

theorem sendable_null : Sendable .null :=
  ⟨rfl, isWhole_codesOf _, fun _ => isWhole_quoted_codesOf _⟩

theorem sendable_bool (b : Bool) : Sendable (.bool b) :=
  ⟨rfl, isWhole_codesOf _, fun _ => isWhole_quoted_codesOf _⟩

theorem sendable_string (s : String) : Sendable (.string s) :=
  ⟨rfl, isWhole_codesOf _, fun _ => isWhole_quoted_codesOf _⟩

theorem sendable_int_iff {n : Int} : Sendable (.int n) ↔ Json.isOverlong n = false := by
  have hfault : Json.fault? answerWriter (.int n) = none ↔ Json.isOverlong n = false := by
    simp [Json.fault?, Json.Writer.plainFault?, answerWriter]
  exact ⟨fun h => hfault.1 h.written,
    fun h => ⟨hfault.2 h, isWhole_codesOf _, fun _ => isWhole_quoted_codesOf _⟩⟩

theorem sendable_number_iff {x : Float} : Sendable (.number x) ↔ x.isFinite = true := by
  have hfault : Json.fault? answerWriter (.number x) = none ↔ x.isFinite = true := by
    simp [Json.fault?, Json.Writer.plainFault?, answerWriter]
  exact ⟨fun h => hfault.1 h.written,
    fun h => ⟨hfault.2 h, isWhole_codesOf _, fun _ => isWhole_quoted_codesOf _⟩⟩

/-- A string is sent if it is a text. -/
theorem sendable_broken_iff {cs : List Nat} : Sendable (.broken cs) ↔ isWhole cs = true := by
  have hcodes : isWhole (codes (.broken cs)) = isWhole cs := isWhole_quoted cs
  exact ⟨fun h => hcodes.symm.trans h.whole,
    fun h => ⟨rfl, hcodes.trans h, fun _ => isWhole_quoted_codesOf _⟩⟩

/-- A list is sent if its elements are, which have no names. -/
theorem sendable_array_iff : Sendable (.array xs) ↔ ∀ x ∈ xs,
    Json.fault? answerWriter x = none ∧ isWhole (codes x) = true := by
  have hcodes : isWhole (codes (.array xs)) = isWhole (elementCodes xs) := by
    simp [codes, isWhole_append, isWhole_codesOf]
  have hfault : Json.fault? answerWriter (.array xs) = none ↔
      ∀ x ∈ xs, Json.fault? answerWriter x = none := by
    simp [Json.fault?_array_eq_none_iff, inside?_answerWriter]
  constructor
  · intro h x hx
    exact ⟨hfault.1 h.written x hx, isWhole_elementCodes_iff.1 (hcodes.symm.trans h.whole) x hx⟩
  · intro h
    exact ⟨hfault.2 fun x hx => (h x hx).1,
      hcodes.trans (isWhole_elementCodes_iff.2 fun x hx => (h x hx).2),
      fun _ => isWhole_quoted_codesOf _⟩

/-- An object is sent if its members are. -/
theorem sendable_object_iff : Sendable (.object ms) ↔ ∀ m ∈ ms, Sendable m.2 := by
  have hcodes : isWhole (codes (.object ms)) = isWhole (memberCodes ms) := by
    simp [codes, isWhole_append, isWhole_codesOf]
  have hfault : Json.fault? answerWriter (.object ms) = none ↔
      ∀ m ∈ ms, Json.fault? answerWriter m.2 = none := by
    simp [Json.fault?_object_eq_none_iff, inside?_answerWriter]
  constructor
  · intro h m hm
    obtain ⟨hname, hwhole⟩ := isWhole_memberCodes_iff.1 (hcodes.symm.trans h.whole) m hm
    exact ⟨hfault.1 h.written m hm, hwhole, isWhole_quotedName_all hname⟩
  · intro h
    exact ⟨hfault.2 fun m hm => (h m hm).written,
      hcodes.trans (isWhole_memberCodes_iff.2 fun m hm => ⟨(h m hm).named m.1, (h m hm).whole⟩),
      fun _ => isWhole_quoted_codesOf _⟩

/-- An object alone is sent if its members can be. -/
theorem sendFault?_object_eq_none_iff :
    sendFault? (.object ms) = none ↔ ∀ m ∈ ms, Sendable m.2 := by
  rw [sendFault?_eq_none_iff, ← sendable_object_iff]
  exact ⟨fun h => ⟨h.1, h.2, fun _ => isWhole_quoted_codesOf _⟩, fun h => ⟨h.written, h.whole⟩⟩

end Sendable

/-! ## paths -/

section Told

variable {given : GivenPath} {showsGiven : Bool} {shown : String}

/-- What a face shows is told, unless that is a given path that is no text. -/
theorem sendable_told_iff : Sendable (given.told showsGiven shown) ↔
    (showsGiven = true → given.isText = true) := by
  cases given with
  | text path => exact iff_of_true (sendable_string shown) fun _ => rfl
  | broken cs =>
      rw [GivenPath.told]
      split
      · next hshows =>
        obtain ⟨hgiven, -⟩ := Bool.and_eq_true_iff.1 hshows
        rw [sendable_broken_iff]
        exact ⟨fun h _ => h, fun h => h hgiven⟩
      · next hshows =>
        refine iff_of_true (sendable_string shown) fun h => ?_
        simpa [h] using hshows

/-- What can be told of a face is the path that the game knows. -/
theorem told_eq_string (h : Sendable (given.told showsGiven shown)) :
    given.told showsGiven shown = .string shown := by
  have htext := sendable_told_iff.1 h
  cases given with
  | text path => rfl
  | broken cs =>
      rw [GivenPath.told, if_neg]
      intro hshows
      obtain ⟨hgiven, hbroken⟩ := Bool.and_eq_true_iff.1 hshows
      rw [htext hgiven] at hbroken
      contradiction

end Told

end CoinToss.Service
