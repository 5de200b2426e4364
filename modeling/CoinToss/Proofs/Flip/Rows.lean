import CoinToss.Session.Play
import Mathlib.Data.List.Infix
import Mathlib.Order.Bounds.Defs

/-!
# CoinToss.Proofs.Flip.Rows

Rows of equal results.

The streak is counted result by result, one more of the same or a new start.  Of a history of
results it is the length of the longest row of equal ones in which the history ends, and the longest
streak of a side is the length of the longest row of that side anywhere in it:

```
H H T H H H     ends in a row of 3, longest rows 3 and 1
```

* `endRows`, `rowsOf` — the lengths of rows;
* `isGreatest_endRows_snoc` — one more result makes the streak that `nextStreak` counts;
* `isGreatest_rowsOf_snoc` — and measures the longest row of its side by it.
-/

namespace CoinToss

/-- The lengths of the rows of one side in which a history ends. -/
def endRows (sides : List Side) : Set Int :=
  {n | 0 ≤ n ∧ ∃ side, List.replicate n.toNat side <:+ sides}

/-- The lengths of the rows of a side anywhere in a history. -/
def rowsOf (side : Side) (sides : List Side) : Set Int :=
  {n | 0 ≤ n ∧ List.replicate n.toNat side <:+: sides}

section Rows

variable {side x : Side} {sides : List Side} {n m : Int}

/-- A row at the end goes on with the last result. -/
theorem replicate_succ_suffix_snoc_iff {k : Nat} :
    List.replicate (k + 1) side <:+ sides ++ [x] ↔ side = x ∧ List.replicate k side <:+ sides := by
  rw [List.replicate_succ', List.suffix_concat_iff]
  constructor
  · rintro (hnil | ⟨row, heq, hrow⟩)
    · simp at hnil
    · obtain ⟨rfl, hside⟩ := List.append_inj' heq rfl
      exact ⟨List.singleton_inj.1 hside, hrow⟩
  · rintro ⟨rfl, hrow⟩
    exact .inr ⟨_, rfl, hrow⟩

/-- A row that is not empty is of the last result. -/
theorem getLast?_of_replicate_suffix {k : Nat} (h : List.replicate (k + 1) side <:+ sides) :
    sides.getLast? = some side := by
  obtain ⟨before, rfl⟩ := h
  rw [List.replicate_succ', ← List.append_assoc, List.getLast?_concat]

/-- A row at the end is a row of the last result. -/
theorem replicate_suffix_of_getLast? {k : Nat} (h : List.replicate k side <:+ sides)
    (hlast : sides.getLast? = some x) : List.replicate k x <:+ sides := by
  cases k with
  | zero => exact List.nil_suffix
  | succ k =>
      have hside := (getLast?_of_replicate_suffix h).symm.trans hlast
      rwa [Option.some.inj hside] at h

theorem isGreatest_endRows_nil : IsGreatest (endRows []) 0 := by
  refine ⟨⟨Int.le_refl 0, .heads, List.nil_suffix⟩, ?_⟩
  rintro k ⟨hk, side, hrow⟩
  have hlength := hrow.length_le
  simp only [List.length_replicate, List.length_nil] at hlength
  omega

theorem isGreatest_rowsOf_nil (side : Side) : IsGreatest (rowsOf side []) 0 := by
  refine ⟨⟨Int.le_refl 0, List.nil_infix⟩, ?_⟩
  rintro k ⟨hk, hrow⟩
  have hlength := hrow.length_le
  simp only [List.length_replicate, List.length_nil] at hlength
  omega

/-- One more of the same makes the row at the end longer by one; another result starts a new
row. -/
theorem isGreatest_endRows_snoc (h : IsGreatest (endRows sides) n) (x : Side) :
    IsGreatest (endRows (sides ++ [x])) (nextStreak sides.getLast? n x) := by
  obtain ⟨⟨hn, side, hrow⟩, hlongest⟩ := h
  have hshorter {y : Side} {k : Nat} (hy : List.replicate k y <:+ sides) : (k : Int) ≤ n :=
    hlongest ⟨Int.natCast_nonneg k, y, by rwa [Int.toNat_natCast]⟩
  unfold nextStreak
  by_cases hlast : sides.getLast? = some x
  · rw [if_pos hlast]
    refine ⟨⟨by omega, x, ?_⟩, ?_⟩
    · have hsucc : (n + 1).toNat = n.toNat + 1 := by omega
      rw [hsucc, replicate_succ_suffix_snoc_iff]
      exact ⟨rfl, replicate_suffix_of_getLast? hrow hlast⟩
    · rintro k ⟨hk, y, hy⟩
      cases hlen : k.toNat with
      | zero => omega
      | succ j =>
          rw [hlen, replicate_succ_suffix_snoc_iff] at hy
          have := hshorter hy.2
          omega
  · rw [if_neg hlast]
    refine ⟨⟨by decide, x, List.suffix_append sides [x]⟩, ?_⟩
    rintro k ⟨hk, y, hy⟩
    cases hlen : k.toNat with
    | zero => omega
    | succ j =>
        rw [hlen, replicate_succ_suffix_snoc_iff] at hy
        obtain ⟨rfl, hbefore⟩ := hy
        cases j with
        | zero => omega
        | succ i => exact absurd (getLast?_of_replicate_suffix hbefore) hlast

/-- The longest row of a side is the old one, or the one in which that side now ends the history. -/
theorem isGreatest_rowsOf_snoc (hrows : IsGreatest (rowsOf side sides) m)
    (hend : IsGreatest (endRows (sides ++ [x])) n) :
    IsGreatest (rowsOf side (sides ++ [x])) (if x = side then max m n else m) := by
  obtain ⟨⟨hm, hrow⟩, hlongest⟩ := hrows
  obtain ⟨⟨hn, y, hy⟩, hlast⟩ := hend
  have hkept : m ∈ rowsOf side (sides ++ [x]) := ⟨hm, hrow.trans (List.infix_append' [] sides [x])⟩
  by_cases hside : x = side
  · subst hside
    rw [if_pos rfl]
    have hnew : n ∈ rowsOf x (sides ++ [x]) :=
      ⟨hn, (replicate_suffix_of_getLast? hy List.getLast?_concat).isInfix⟩
    refine ⟨?_, ?_⟩
    · obtain h | h : max m n = m ∨ max m n = n := by omega
      · rwa [h]
      · rwa [h]
    · rintro k ⟨hk, hrow⟩
      obtain hends | hinside := List.infix_concat_iff.1 hrow
      · have := hlast ⟨hk, x, hends⟩
        omega
      · have := hlongest ⟨hk, hinside⟩
        omega
  · rw [if_neg hside]
    refine ⟨hkept, ?_⟩
    rintro k ⟨hk, hrow⟩
    obtain hends | hinside := List.infix_concat_iff.1 hrow
    · cases hlen : k.toNat with
      | zero => omega
      | succ j =>
          rw [hlen] at hends
          exact absurd (replicate_succ_suffix_snoc_iff.1 hends).1.symm hside
    · exact hlongest ⟨hk, hinside⟩

end Rows

end CoinToss
