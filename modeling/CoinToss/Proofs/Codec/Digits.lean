import CoinToss.Time.DateTime
import Mathlib.Algebra.Group.Nat.Defs

/-!
# CoinToss.Proofs.Codec.Digits

Digits that are written are read back.

A number is read up to the first character that is no digit, or over a fixed width; either way the
digits `natDigits` writes come to the number they were written for.

* `spanDigits_append`, `takeDigits_append` — digits in front of a text are taken off it;
* `ofDigits_natDigits` — what they come to;
* `takeNumber_padded` — a number of a fixed width.
-/

namespace CoinToss

namespace Decimal

open Text

/-- The value of a digit. -/
def digitOf (c : Char) : Nat := c.toNat - '0'.toNat

theorem asciiDigit?_of_isDigit {c : Char} (h : c.isDigit = true) :
    asciiDigit? c = some (digitOf c) := by
  rw [asciiDigit?, if_pos h]
  rfl

/-- A text that does not go on with a digit. -/
def NoDigitNext (rest : List Char) : Prop := ∀ c, rest.head? = some c → c.isDigit = false

theorem spanDigits_append {cs rest : List Char} (hcs : ∀ c ∈ cs, c.isDigit = true)
    (hrest : NoDigitNext rest) : spanDigits (cs ++ rest) = (cs.map digitOf, rest) := by
  induction cs with
  | nil =>
      cases rest with
      | nil => rfl
      | cons c rest =>
          have hc : c.isDigit = false := hrest c rfl
          simp [spanDigits, asciiDigit?, hc]
  | cons c cs ih =>
      have hc := asciiDigit?_of_isDigit (hcs c (by simp))
      simp [spanDigits, hc, ih fun d hd => hcs d (by simp [hd])]

theorem isDigit_natDigits (n : Nat) : ∀ c ∈ natDigits n, c.isDigit = true := fun _ hc =>
  Nat.isDigit_of_mem_toDigits (by decide) (by decide) hc

theorem natDigits_head (k : Nat) : ∃ c cs, natDigits k = c :: cs ∧ c.isDigit = true := by
  cases hk : natDigits k with
  | nil => exact absurd hk Nat.toDigits_ne_nil
  | cons c cs => exact ⟨c, cs, rfl, isDigit_natDigits k c (by simp [hk])⟩

theorem ofDigits_map_digitOf (cs : List Char) :
    ofDigits (cs.map digitOf) = Nat.ofDigitChars 10 cs 0 := by
  rw [ofDigits, List.foldl_map, Nat.ofDigitChars_eq_foldl]
  rfl

/-- The digits of a number come to the number. -/
@[simp] theorem ofDigits_natDigits (n : Nat) : ofDigits ((natDigits n).map digitOf) = n := by
  rw [ofDigits_map_digitOf, natDigits, Nat.ofDigitChars_ten_toDigits]

/-- The first of several digits is no zero. -/
theorem natDigits_leading (n : Nat) (h : 10 ≤ n) :
    ∃ c cs, natDigits n = c :: cs ∧ digitOf c ≠ 0 := by
  have hsnoc : natDigits n = natDigits (n / 10) ++ [(n % 10).digitChar] :=
    Nat.toDigits_of_base_le (by decide) h
  by_cases hten : n / 10 < 10
  · have hone : natDigits (n / 10) = [(n / 10).digitChar] := Nat.toDigits_of_lt_base hten
    have hdigit : ∀ d, d < 10 → 1 ≤ d → digitOf d.digitChar ≠ 0 := by decide
    rw [hsnoc, hone]
    exact ⟨_, _, rfl, hdigit _ hten (by omega)⟩
  · obtain ⟨c, cs, hcs, hc⟩ := natDigits_leading (n / 10) (by omega)
    rw [hsnoc, hcs]
    exact ⟨c, cs ++ [(n % 10).digitChar], rfl, hc⟩

/-- Written digits are those of a strict numeral: there are some, and no zero leads others. -/
theorem natDigits_cases (n : Nat) :
    ∃ d ds, (natDigits n).map digitOf = d :: ds ∧ (d = 0 → ds = []) := by
  by_cases h : n < 10
  · have hone : natDigits n = [n.digitChar] := Nat.toDigits_of_lt_base h
    rw [hone]
    exact ⟨_, [], rfl, fun _ => rfl⟩
  · obtain ⟨c, cs, hcs, hc⟩ := natDigits_leading n (by omega)
    rw [hcs]
    exact ⟨digitOf c, cs.map digitOf, rfl, fun h0 => absurd h0 hc⟩

theorem length_natDigits_pos (n : Nat) : 0 < (natDigits n).length :=
  List.length_pos_iff.2 Nat.toDigits_ne_nil

/-- A positive number has a first digit that is no zero. -/
theorem natDigits_of_pos {n : Nat} (h : 0 < n) :
    ∃ c cs, natDigits n = c :: cs ∧ digitOf c ≠ 0 := by
  obtain ⟨c, cs, hcs, -⟩ := natDigits_head n
  obtain ⟨d, ds, hds, hlead⟩ := natDigits_cases n
  refine ⟨c, cs, hcs, fun hzero => ?_⟩
  have hvalue := ofDigits_natDigits n
  rw [hcs] at hds
  obtain ⟨hd, htail⟩ := List.cons.inj hds
  rw [hcs, List.map_cons, htail, hzero, hlead (hd ▸ hzero)] at hvalue
  exact absurd hvalue (Nat.ne_of_lt h)

/-- Zeros in front of digits count for nothing. -/
theorem ofDigits_zeros_append (k : Nat) (cs : List Char) :
    ofDigits ((List.replicate k '0' ++ cs).map digitOf) = ofDigits (cs.map digitOf) := by
  rw [ofDigits_map_digitOf, ofDigits_map_digitOf, Nat.ofDigitChars_append,
    Nat.ofDigitChars_replicate_zero, Nat.mul_zero]

/-- Each zero behind digits makes ten times as much of them. -/
theorem ofDigits_append_zeros (cs : List Char) (k : Nat) :
    ofDigits ((cs ++ List.replicate k '0').map digitOf) = ofDigits (cs.map digitOf) * 10 ^ k := by
  rw [ofDigits_map_digitOf, ofDigits_map_digitOf, Nat.ofDigitChars_append,
    Nat.ofDigitChars_replicate_zero, Nat.mul_comm]

end Decimal

namespace DateTime

open Decimal

theorem takeDigits_append {cs : List Char} (hcs : ∀ c ∈ cs, c.isDigit = true)
    (rest : List Char) : takeDigits cs.length (cs ++ rest) = some (cs.map digitOf, rest) := by
  induction cs with
  | nil => rfl
  | cons c cs ih =>
      have hc := asciiDigit?_of_isDigit (hcs c (by simp))
      simp [takeDigits, hc, ih fun d hd => hcs d (by simp [hd])]

theorem isDigit_padded (width n : Nat) : ∀ c ∈ padded width n, c.isDigit = true := by
  intro c hc
  rw [padded, List.mem_append, List.mem_replicate] at hc
  rcases hc with ⟨-, rfl⟩ | hc
  · rfl
  · exact isDigit_natDigits n c hc

theorem length_padded {width n : Nat} (hwidth : 0 < width) (h : n < 10 ^ width) :
    (padded width n).length = width := by
  have hle : (natDigits n).length ≤ width := (Nat.length_toDigits_le_iff (by decide) hwidth).2 h
  rw [padded, List.length_append, List.length_replicate]
  omega

theorem ofDigits_padded (width n : Nat) : ofDigits ((padded width n).map digitOf) = n := by
  rw [padded, ofDigits_zeros_append, ofDigits_natDigits]

theorem padded_ne_nil (width n : Nat) : padded width n ≠ [] := by
  obtain ⟨c, cs, hcs, -⟩ := natDigits_head n
  simp [padded, hcs]

/-- A number filled up to a width is read over that width. -/
theorem takeNumber_padded {width n : Nat} (hwidth : 0 < width) (h : n < 10 ^ width)
    (rest : List Char) : takeNumber width (padded width n ++ rest) = some (n, rest) := by
  have htake := takeDigits_append (isDigit_padded width n) rest
  rw [length_padded hwidth h] at htake
  rw [takeNumber, htake, Option.map_some, ofDigits_padded]

end DateTime

end CoinToss
