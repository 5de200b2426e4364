import CoinToss.Decimal.Fixed
import CoinToss.Proofs.Decimal.Datum
import Mathlib.Algebra.Order.Field.Rat
import Mathlib.Tactic.Linarith
import Mathlib.Tactic.NormNum
import Mathlib.Tactic.Positivity

/-!
# CoinToss.Proofs.Decimal.Places

Doubles rounded to decimal places are finite as the doubles are.

What is rounded moves by half of the last place at most, and a double so large that this could
matter has no places at all: it is an integer, and is left alone.

```
m · 2 ^ e  --inPlaces-->  units  --nearestDouble-->  a double near units / 10 ^ places
```

* `roundScaled_le`, `leadingExponent_range` — rounding and leading places as rational inequalities;
* `isFinite_nearestDouble` — quotients up to the largest double have finite doubles;
* `inPlaces_le`, `isFinite_roundPlaces` — rounding to decimal places.
-/

namespace CoinToss.Decimal

/-! ## quotients -/

section Quotients

variable {n d : Nat}

theorem roundDiv_le (n : Nat) (hd : 0 < d) : (roundDiv n d : ℚ) ≤ n / d + 1 / 2 := by
  have hd' : (0 : ℚ) < d := Nat.cast_pos.2 hd
  have h : (2 * d * roundDiv n d : ℚ) ≤ 2 * n + d := by
    exact_mod_cast two_mul_roundDiv_le n d hd
  rw [div_add_div _ _ hd'.ne' two_ne_zero, le_div_iff₀ (by positivity)]
  linarith

/-- Rounding adds half a unit at most. -/
theorem roundScaled_le (n : Nat) (hd : 0 < d) (e : Int) :
    (roundScaled n d e : ℚ) ≤ n / d * 2 ^ e + 1 / 2 := by
  unfold roundScaled
  split
  · next he =>
    obtain ⟨k, rfl⟩ := Int.eq_ofNat_of_zero_le he
    have h := roundDiv_le (n * 2 ^ k) hd
    rw [Nat.cast_mul, Nat.cast_pow, Nat.cast_ofNat, mul_div_right_comm] at h
    rwa [zpow_natCast]
  · next he =>
    obtain ⟨k, hk⟩ := Int.eq_ofNat_of_zero_le (show 0 ≤ -e by omega)
    have h := roundDiv_le n (d := d * 2 ^ k) (Nat.mul_pos hd (Nat.two_pow_pos k))
    rw [Nat.cast_mul, Nat.cast_pow, Nat.cast_ofNat, ← div_div] at h
    have he : e = -(k : Int) := by omega
    rw [hk, he, zpow_neg, zpow_natCast, ← div_eq_mul_inv]
    exact h

/-- Whether a quotient reaches a power of two. -/
theorem reaches_iff (n : Nat) (hd : 0 < d) (e : Int) :
    (if 0 ≤ e then d * Nat.pow 2 e.toNat ≤ n else d ≤ n * Nat.pow 2 (-e).toNat) ↔
      (2 : ℚ) ^ e ≤ n / d := by
  have hd' : (0 : ℚ) < d := Nat.cast_pos.2 hd
  rw [le_div_iff₀ hd']
  split
  · next he =>
    obtain ⟨k, rfl⟩ := Int.eq_ofNat_of_zero_le he
    rw [zpow_natCast, mul_comm]
    exact_mod_cast Iff.rfl
  · next he =>
    obtain ⟨k, hk⟩ := Int.eq_ofNat_of_zero_le (show 0 ≤ -e by omega)
    have he : e = -(k : Int) := by omega
    rw [hk, he, zpow_neg, zpow_natCast, inv_mul_le_iff₀ (by positivity), mul_comm _ (n : ℚ)]
    exact_mod_cast Iff.rfl

/-- A quotient lies between the powers of two around the difference of the leading places. -/
theorem quotient_range (hn : n ≠ 0) (hd : 0 < d) :
    (2 : ℚ) ^ ((n.log2 : Int) - d.log2 - 1) ≤ n / d ∧
      (n / d : ℚ) < 2 ^ ((n.log2 : Int) - d.log2 + 1) := by
  have hd' : (0 : ℚ) < d := Nat.cast_pos.2 hd
  have hnlow : (2 : ℚ) ^ n.log2 ≤ n := by exact_mod_cast Nat.log2_self_le hn
  have hnhigh : (n : ℚ) < 2 ^ (n.log2 + 1) := by exact_mod_cast Nat.lt_log2_self
  have hdlow : (2 : ℚ) ^ d.log2 ≤ d := by exact_mod_cast Nat.log2_self_le hd.ne'
  have hdhigh : (d : ℚ) < 2 ^ (d.log2 + 1) := by exact_mod_cast Nat.lt_log2_self
  constructor
  · rw [le_div_iff₀ hd']
    calc (2 : ℚ) ^ ((n.log2 : Int) - d.log2 - 1) * d
        ≤ 2 ^ ((n.log2 : Int) - d.log2 - 1) * 2 ^ (d.log2 + 1) := by gcongr
      _ = 2 ^ n.log2 := by
        rw [← zpow_natCast, ← zpow_natCast, ← zpow_add₀ two_ne_zero]
        congr 1
        push_cast
        omega
      _ ≤ n := hnlow
  · rw [div_lt_iff₀ hd']
    calc (n : ℚ) < 2 ^ (n.log2 + 1) := hnhigh
      _ = 2 ^ ((n.log2 : Int) - d.log2 + 1) * 2 ^ d.log2 := by
        rw [← zpow_natCast, ← zpow_natCast, ← zpow_add₀ two_ne_zero]
        congr 1
        push_cast
        omega
      _ ≤ 2 ^ ((n.log2 : Int) - d.log2 + 1) * d := by gcongr

/-- A quotient is in the place of its leading exponent. -/
theorem leadingExponent_range (hn : n ≠ 0) (hd : 0 < d) :
    (2 : ℚ) ^ leadingExponent n d ≤ n / d ∧ (n / d : ℚ) < 2 ^ (leadingExponent n d + 1) := by
  obtain ⟨hlow, hhigh⟩ := quotient_range hn hd
  have hreaches := reaches_iff n hd ((n.log2 : Int) - d.log2)
  unfold leadingExponent
  dsimp only
  by_cases h : (2 : ℚ) ^ ((n.log2 : Int) - d.log2) ≤ n / d
  · rw [if_pos (hreaches.2 h)]
    exact ⟨h, hhigh⟩
  · rw [if_neg (mt hreaches.1 h), Int.sub_add_cancel]
    exact ⟨hlow, not_le.1 h⟩

end Quotients

/-! ## the largest double -/

/-- The largest double. -/
def largest : ℚ := (2 ^ 53 - 1) * 2 ^ (971 : Int)

theorem two_pow_le_largest : (2 ^ 53 : ℚ) ≤ largest := by
  calc (2 ^ 53 : ℚ) ≤ (2 ^ 53 - 1) * 2 ^ (1 : Int) := by norm_num
    _ ≤ largest := by
      refine mul_le_mul_of_nonneg_left ?_ (by norm_num)
      exact zpow_le_zpow_right₀ one_le_two (by decide)

section Largest

variable {n d : Nat}

/-- Quotients up to the largest double have no more than 1024 places before the point. -/
theorem leadingExponent_lt (hn : n ≠ 0) (hd : 0 < d) (h : (n / d : ℚ) ≤ largest) :
    leadingExponent n d < 1024 := by
  have hlt : (2 : ℚ) ^ leadingExponent n d < 2 ^ (1024 : Int) := by
    calc (2 : ℚ) ^ leadingExponent n d ≤ n / d := (leadingExponent_range hn hd).1
      _ ≤ largest := h
      _ < 2 ^ 53 * 2 ^ (971 : Int) := by
        unfold largest
        gcongr
        norm_num
      _ = 2 ^ (1024 : Int) := by
        rw [← zpow_natCast, ← zpow_add₀ two_ne_zero]
        rfl
  exact (zpow_lt_zpow_iff_right₀ one_lt_two).1 hlt

/-- A significand is rounded to the next power of two at most. -/
theorem roundScaled_le_two_pow (hn : n ≠ 0) (hd : 0 < d) {e : Int}
    (he : leadingExponent n d - 52 ≤ e) : roundScaled n d (-e) ≤ 2 ^ 53 := by
  have hscaled : (n / d * 2 ^ (-e) : ℚ) ≤ 2 ^ 53 := by
    calc (n / d * 2 ^ (-e) : ℚ)
        ≤ 2 ^ (leadingExponent n d + 1) * 2 ^ (-e) := by
          gcongr
          exact (leadingExponent_range hn hd).2.le
      _ = 2 ^ (leadingExponent n d + 1 - e) := by
          rw [← zpow_add₀ two_ne_zero, Int.sub_eq_add_neg]
      _ ≤ 2 ^ (53 : Int) := zpow_le_zpow_right₀ one_le_two (by omega)
      _ = 2 ^ 53 := zpow_natCast 2 53
  have hround : (roundScaled n d (-e) : ℚ) < (2 ^ 53 + 1 : Nat) := by
    have := roundScaled_le n hd (-e)
    push_cast
    linarith
  exact Nat.le_of_lt_succ (Nat.cast_lt.1 hround)

/-- The significand of the largest double is not rounded up. -/
theorem roundScaled_lt_two_pow (hd : 0 < d) (h : (n / d : ℚ) ≤ largest) :
    roundScaled n d (-971) < 2 ^ 53 := by
  have hscaled : (n / d * 2 ^ (-971 : Int) : ℚ) ≤ 2 ^ 53 - 1 := by
    rwa [zpow_neg, ← div_eq_mul_inv, div_le_iff₀ (by positivity)]
  have hround : (roundScaled n d (-971) : ℚ) < (2 ^ 53 : Nat) := by
    have := roundScaled_le n hd (-971)
    push_cast
    linarith
  exact Nat.cast_lt.1 hround

/-- Quotients up to the largest double have finite doubles. -/
theorem isFinite_nearestDouble (negative : Bool) (hd : 0 < d) (h : (n / d : ℚ) ≤ largest) :
    (nearestDouble negative n d).isFinite = true := by
  unfold nearestDouble
  by_cases hn : n = 0
  · rw [if_pos hn]
    exact isFinite_ofFields negative (by decide)
  have hlead := leadingExponent_lt hn hd h
  have hround := roundScaled_le_two_pow hn hd (Int.le_max_left (leadingExponent n d - 52) (-1074))
  have htop : leadingExponent n d = 1023 →
      roundScaled n d (-max (leadingExponent n d - 52) (-1074)) < 2 ^ 53 := by
    intro he
    rw [he]
    exact roundScaled_lt_two_pow hd h
  rw [if_neg hn]
  dsimp only
  rw [if_neg (by omega)]
  have hrest : (max (leadingExponent n d - 52) (-1074) + 1074).toNat * Nat.pow 2 52 +
      roundScaled n d (-max (leadingExponent n d - 52) (-1074)) < 2047 * Nat.pow 2 52 := by
    simp only [Nat.pow_eq]
    omega
  rw [if_neg (Nat.not_le.2 hrest)]
  exact isFinite_ofFields negative hrest

end Largest

/-! ## decimal places -/

/-- The significand and the exponent of a finite double are those of the largest one at most. -/
theorem datum_le {x : Float} {negative : Bool} {m : Nat} {e : Int}
    (h : datum x = .finite negative m e) : m < 2 ^ 53 ∧ e ≤ 971 := by
  unfold datum at h
  dsimp only at h
  simp only [Nat.pow_eq] at h
  split at h
  · split at h <;> contradiction
  · split at h
    · injection h with _ hm he
      omega
    · injection h with _ hm he
      omega

/-- What a double is in decimal places is no more than the largest double. -/
theorem inPlaces_le {m : Nat} {e : Int} (hm : m < 2 ^ 53) (he : e ≤ 971) (places : Nat) :
    (inPlaces places m e / (10 ^ places : Nat) : ℚ) ≤ largest := by
  have hunit : (0 : ℚ) < (10 ^ places : Nat) := by positivity
  have hm : (m : ℚ) ≤ 2 ^ 53 - 1 := by
    have : (m + 1 : ℚ) ≤ 2 ^ 53 := by exact_mod_cast hm
    linarith
  rw [div_le_iff₀ hunit]
  by_cases hexact : 0 ≤ e
  · -- there are no places to round to
    have hwhole : inPlaces places m e = m * 2 ^ e.toNat * 10 ^ places := by
      rw [inPlaces, roundScaled, if_pos hexact, ← Nat.mul_one (_ * Nat.pow 2 _),
        roundDiv_mul _ _ Nat.one_pos, Nat.mul_right_comm]
      rfl
    have hpow : ((2 ^ e.toNat : Nat) : ℚ) ≤ 2 ^ (971 : Int) := by
      rw [Nat.cast_pow, Nat.cast_ofNat, ← zpow_natCast, Int.toNat_of_nonneg hexact]
      exact zpow_le_zpow_right₀ one_le_two he
    rw [hwhole, Nat.cast_mul, Nat.cast_mul]
    refine mul_le_mul_of_nonneg_right ?_ hunit.le
    exact mul_le_mul hm hpow (Nat.cast_nonneg _) (le_trans (Nat.cast_nonneg m) hm)
  · have hpow : (2 : ℚ) ^ e ≤ 2⁻¹ := by
      rw [← zpow_neg_one]
      exact zpow_le_zpow_right₀ one_le_two (by omega)
    have hone : (1 : ℚ) ≤ (10 ^ places : Nat) := Nat.one_le_cast.2 (Nat.pow_pos (by decide))
    calc (inPlaces places m e : ℚ)
        ≤ (m * Nat.pow 10 places : Nat) / (1 : Nat) * 2 ^ e + 1 / 2 :=
          roundScaled_le _ Nat.one_pos e
      _ ≤ (m * (10 ^ places : Nat) : ℚ) * 2⁻¹ + 1 / 2 := by
          rw [Nat.cast_one, div_one, Nat.cast_mul]
          gcongr
          rfl
      _ ≤ 2 ^ 53 * (10 ^ places : Nat) := by nlinarith
      _ ≤ largest * (10 ^ places : Nat) := by
          gcongr
          exact two_pow_le_largest

/-- Finite doubles are finite in decimal places, too. -/
theorem isFinite_roundPlaces {x : Float} (h : x.isFinite = true) (places : Nat) :
    (roundPlaces places x).isFinite = true := by
  rw [← isFinite_datum] at h
  unfold roundPlaces
  cases hdatum : datum x with
  | finite negative m e =>
      obtain ⟨hm, he⟩ := datum_le hdatum
      exact isFinite_nearestDouble negative (Nat.pow_pos (by decide)) (inPlaces_le hm he places)
  | infinite negative => rw [hdatum] at h; contradiction
  | notANumber => rw [hdatum] at h; contradiction

end CoinToss.Decimal
