import CoinToss.Decimal.Quantity
import Mathlib

/-!
# CoinToss.Proofs.Decimal.Datum

What is read from a double, and which integers have one.

A double is read twice: `datum` takes its 64 bits apart as naturals, arithmetic as bit
vectors.  Both readings tell an infinity and a NaN by the exponent field, so what arithmetic takes
for a finite number has a significand and an exponent, and so an integer nearest to it.

* `Reads`, `reads_unpack` — what arithmetic reads from a word;
* `toBits_ofBits` — a word that is no NaN is kept;
* `kind_datum` — the two readings agree on what kind of number there is;
* `isOk_roundInt`, `isOk_truncInt` — a number has an integer exactly if it is finite;
* `isInf_nearestInt_iff`, `ofInt_cases` — an integer has a double up to the middle between the
  largest one and the next power of two.
-/

namespace CoinToss.Decimal

open Float.Model (Format UnpackedFloat)
open Float.Model.UnpackedFloat (unpackExponent unpackMantissa)

/-! ## the fields of a word -/

/-- The 64 bits of a double. -/
abbrev Word : Type := BitVec Format.binary64.numBits

/-- The eleven bits after the sign. -/
def exponentField (b : Word) : Nat := b.toNat / Nat.pow 2 52 % Nat.pow 2 11

/-- The last 52 bits. -/
def fractionField (b : Word) : Nat := b.toNat % Nat.pow 2 52

theorem toNat_unpackExponent (b : Word) : (unpackExponent b).toNat = exponentField b := by
  simp [unpackExponent, exponentField, Nat.shiftRight_eq_div_pow]

theorem toNat_unpackMantissa (b : Word) : (unpackMantissa b).toNat = fractionField b := by
  simp [unpackMantissa, fractionField]

theorem unpackExponent_eq_iff {b : Word} {e : BitVec 11} :
    unpackExponent b = e ↔ exponentField b = e.toNat := by
  rw [← toNat_unpackExponent, ← BitVec.toNat_inj]

theorem unpackMantissa_eq_iff {b : Word} {m : BitVec 52} :
    unpackMantissa b = m ↔ fractionField b = m.toNat := by
  rw [← toNat_unpackMantissa, ← BitVec.toNat_inj]

/-! ## reading a word -/

/-- What arithmetic can read from a word: the field of ones is that of the infinities and of NaN. -/
inductive Reads (b : Word) : UnpackedFloat → Prop
  | infinity (s : UnpackedFloat.Sign) :
      exponentField b = 2047 → fractionField b = 0 → Reads b (.infinity s)
  | notANumber : exponentField b = 2047 → fractionField b ≠ 0 → Reads b .notANumber
  | zero (s : UnpackedFloat.Sign) : exponentField b ≠ 2047 → Reads b (.zero s)
  | finite (s : UnpackedFloat.Sign) (m : Nat) (e : Int) (hm : 0 < m) :
      exponentField b ≠ 2047 → Reads b (.finite s m e hm)

theorem reads_unpack (b : Word) : Reads b (UnpackedFloat.unpack Format.binary64 b) := by
  rw [UnpackedFloat.unpack]
  split
  case isTrue hones =>
      have hones : exponentField b = 2047 := unpackExponent_eq_iff.1 hones
      split
      case isTrue hzero => exact .infinity _ hones (unpackMantissa_eq_iff.1 hzero)
      case isFalse hzero => exact .notANumber hones fun h => hzero (unpackMantissa_eq_iff.2 h)
  case isFalse hones =>
      have hones : exponentField b ≠ 2047 := fun h => hones (unpackExponent_eq_iff.2 h)
      split
      · split
        · exact .zero _ hones
        · exact .finite _ _ _ _ hones
      · exact .finite _ _ _ _ hones

/-- The bits of a finite number are kept. -/
theorem pack_unpack_of_field_ne {b : Word} (h : exponentField b ≠ 2047) :
    UnpackedFloat.pack Format.binary64 (UnpackedFloat.unpack Format.binary64 b) = b := by
  have hnumber : UnpackedFloat.isNaNBits b = false :=
    decide_eq_false fun hnan => h (unpackExponent_eq_iff.1 hnan.1)
  rw [UnpackedFloat.pack_unpack, hnumber, if_neg Bool.false_ne_true]

theorem toBits_ofBits {w : UInt64} (h : exponentField w.toBitVec ≠ 2047) :
    (Float.ofBits w).toBits = w :=
  congrArg UInt64.ofBitVec (pack_unpack_of_field_ne h)

/-! ## the two readings -/

namespace Datum

/-- Whether there is no number. -/
@[simp] def isNaN : Datum → Bool
  | .notANumber => true
  | _ => false

/-- Whether the number is infinite. -/
@[simp] def isInfinite : Datum → Bool
  | .infinite _ => true
  | _ => false

/-- Whether there is a significand. -/
@[simp] def isFinite : Datum → Bool
  | .finite _ _ _ => true
  | _ => false

end Datum

section Readings

variable (x : Float)

theorem datum_of_field_ne {x : Float} (h : exponentField x.toBits.toBitVec ≠ 2047) :
    ∃ negative m e, datum x = .finite negative m e := by
  have hfield : ¬x.toBits.toNat / Nat.pow 2 52 % Nat.pow 2 11 = 2047 := h
  unfold datum
  dsimp only
  rw [if_neg hfield]
  split
  · exact ⟨_, _, _, rfl⟩
  · exact ⟨_, _, _, rfl⟩

theorem datum_of_field_eq {x : Float} (h : exponentField x.toBits.toBitVec = 2047) :
    datum x = if fractionField x.toBits.toBitVec = 0 then
      .infinite (x.toBits.toNat / Nat.pow 2 63 % 2 == 1) else .notANumber := by
  have hfield : x.toBits.toNat / Nat.pow 2 52 % Nat.pow 2 11 = 2047 := h
  unfold datum
  dsimp only
  rw [if_pos hfield]
  rfl

/-- Both readings know a NaN, an infinity and a finite number alike. -/
theorem kind_datum :
    (datum x).isNaN = x.isNaN ∧ (datum x).isInfinite = x.isInf ∧
      (datum x).isFinite = x.isFinite := by
  have hread := reads_unpack x.toBits.toBitVec
  have hkind : x.isNaN = (UnpackedFloat.unpack Format.binary64 x.toBits.toBitVec).isNaN ∧
      x.isInf = (UnpackedFloat.unpack Format.binary64 x.toBits.toBitVec).isInf ∧
      x.isFinite = (UnpackedFloat.unpack Format.binary64 x.toBits.toBitVec).isFinite :=
    ⟨rfl, rfl, rfl⟩
  rw [hkind.1, hkind.2.1, hkind.2.2]
  generalize UnpackedFloat.unpack Format.binary64 x.toBits.toBitVec = f at hread
  cases hread with
  | infinity s hones hzero =>
      rw [datum_of_field_eq hones, if_pos hzero]
      exact ⟨rfl, rfl, rfl⟩
  | notANumber hones hzero =>
      rw [datum_of_field_eq hones, if_neg hzero]
      exact ⟨rfl, rfl, rfl⟩
  | zero s hones =>
      obtain ⟨negative, m, e, hdatum⟩ := datum_of_field_ne hones
      rw [hdatum]
      exact ⟨rfl, rfl, rfl⟩
  | finite s m e hm hones =>
      obtain ⟨negative, m, e, hdatum⟩ := datum_of_field_ne hones
      rw [hdatum]
      exact ⟨rfl, rfl, rfl⟩

theorem isNaN_datum : (datum x).isNaN = x.isNaN := (kind_datum x).1

theorem isInfinite_datum : (datum x).isInfinite = x.isInf := (kind_datum x).2.1

theorem isFinite_datum : (datum x).isFinite = x.isFinite := (kind_datum x).2.2

/-- A double has a nearest integer exactly if it is finite. -/
theorem isOk_roundInt : (roundInt x).isOk = x.isFinite := by
  rw [← isFinite_datum, roundInt]
  cases datum x <;> rfl

/-- And so it has an integer part. -/
theorem isOk_truncInt : (truncInt x).isOk = x.isFinite := by
  rw [← isFinite_datum, truncInt]
  cases datum x <;> rfl

/-- A double is finite if it is neither a NaN nor infinite. -/
theorem isFinite_eq : x.isFinite = (!x.isNaN && !x.isInf) := by
  rw [← isNaN_datum, ← isInfinite_datum, ← isFinite_datum]
  cases datum x <;> rfl

/-- A NaN is not infinite. -/
theorem isInf_of_isNaN {x : Float} (h : x.isNaN = true) : x.isInf = false := by
  rw [← isNaN_datum] at h
  rw [← isInfinite_datum]
  cases hdatum : datum x with
  | notANumber => rfl
  | infinite negative => simp [hdatum] at h
  | finite negative m e => rfl

end Readings

/-! ## doubles made of fields -/

theorem exponentField_fields (negative : Bool) {rest : Nat} (h : rest < Nat.pow 2 63) :
    exponentField (UInt64.ofNat (if negative then Nat.pow 2 63 + rest else rest)).toBitVec =
      rest / Nat.pow 2 52 := by
  have hword : (UInt64.ofNat (if negative then Nat.pow 2 63 + rest else rest)).toBitVec.toNat =
      if negative then Nat.pow 2 63 + rest else rest := by
    refine Nat.mod_eq_of_lt ?_
    simp only [Nat.pow_eq] at h ⊢
    split <;> omega
  rw [exponentField, hword]
  simp only [Nat.pow_eq] at h ⊢
  split <;> omega

/-- The fields of a finite number make a finite number. -/
theorem isFinite_ofFields (negative : Bool) {rest : Nat} (h : rest < 2047 * Nat.pow 2 52) :
    (ofFields negative rest).isFinite = true := by
  have hfield := exponentField_fields negative (Nat.lt_trans h (by decide))
  have hne : rest / Nat.pow 2 52 ≠ 2047 := by
    simp only [Nat.pow_eq] at h ⊢
    omega
  rw [← hfield] at hne
  have hbits : exponentField (ofFields negative rest).toBits.toBitVec ≠ 2047 := by
    rwa [ofFields, toBits_ofBits hne]
  obtain ⟨b, m, e, hdatum⟩ := datum_of_field_ne hbits
  rw [← isFinite_datum, hdatum]
  rfl

theorem isInf_infinity (negative : Bool) : (infinity negative).isInf = true := by
  cases negative <;> decide +kernel

/-- Fields that leave no room are those of an infinity. -/
theorem isInf_fields_iff (negative : Bool) (rest : Nat) :
    (if 2047 * Nat.pow 2 52 ≤ rest then infinity negative
      else ofFields negative rest).isInf = true ↔ 2047 * Nat.pow 2 52 ≤ rest := by
  split
  case isTrue hover => exact iff_of_true (isInf_infinity negative) hover
  case isFalse hover =>
      have hfinite := isFinite_ofFields negative (Nat.lt_of_not_le hover)
      rw [isFinite_eq, Bool.and_eq_true, Bool.not_eq_true', Bool.not_eq_true'] at hfinite
      exact iff_of_false (Bool.eq_false_iff.1 hfinite.2) hover

/-! ## integers as doubles -/

theorem leadingExponent_one {n : Nat} (hn : n ≠ 0) : leadingExponent n 1 = n.log2 := by
  have hguess : (n.log2 : Int) - (Nat.log2 1 : Nat) = n.log2 := Int.sub_zero _
  have hreaches : 1 * Nat.pow 2 (n.log2 : Int).toNat ≤ n := by
    rw [Nat.one_mul]
    exact Nat.log2_self_le hn
  unfold leadingExponent
  rw [hguess]
  dsimp only
  rw [if_pos]
  rwa [if_pos (Int.natCast_nonneg _)]

/-- A quotient is rounded to an even number or beyond from half a unit below it on. -/
theorem le_roundDiv_iff {n d k : Nat} (hd : 0 < d) (hk : 2 ∣ k) :
    k ≤ roundDiv n d ↔ 2 * d * k ≤ 2 * n + d := by
  constructor
  · intro h
    exact Nat.le_trans (Nat.mul_le_mul_left (2 * d) h) (two_mul_roundDiv_le n d hd)
  · intro h
    have hdiv := Nat.div_add_mod n d
    have hmod := Nat.mod_lt n hd
    have hunits : d * (2 * k) < d * (2 * (n / d) + 3) := by
      rw [Nat.mul_add, Nat.mul_left_comm d 2 k, Nat.mul_left_comm d 2 (n / d), ← Nat.mul_assoc]
      omega
    have hlow : 2 * k < 2 * (n / d) + 3 := Nat.lt_of_mul_lt_mul_left hunits
    unfold roundDiv
    dsimp only
    obtain hreached | htop := Nat.le_or_eq_of_le_succ (show k ≤ n / d + 1 by omega)
    · split
      · exact hreached
      · split <;> omega
    · -- the lower neighbour is odd, so a tie goes up
      have hhalf : d ≤ 2 * (n % d) := by
        rw [htop, Nat.mul_succ, Nat.mul_assoc] at h
        omega
      rw [if_neg (by omega)]
      split <;> omega

/-- The significand of an integer is rounded to the next power of two at most. -/
theorem roundScaled_log2_le (n : Nat) : roundScaled n 1 (52 - (n.log2 : Int)) ≤ 2 ^ 53 := by
  have hlt : n < 2 ^ (n.log2 + 1) := Nat.lt_log2_self
  unfold roundScaled
  split
  case isTrue h =>
      have hscaled : n * 2 ^ (52 - n.log2) < 2 ^ (n.log2 + 1) * 2 ^ (52 - n.log2) :=
        Nat.mul_lt_mul_of_pos_right hlt (Nat.two_pow_pos _)
      have hexponent : (52 - (n.log2 : Int)).toNat = 52 - n.log2 := by omega
      have hsum : n.log2 + 1 + (52 - n.log2) = 53 := by omega
      rw [← Nat.pow_add, hsum] at hscaled
      rw [hexponent, ← Nat.mul_one (n * _), roundDiv_mul _ _ Nat.one_pos]
      exact Nat.le_of_lt hscaled
  case isFalse h =>
      have hexponent : (-(52 - (n.log2 : Int))).toNat = n.log2 - 52 := by omega
      have hsum : n.log2 + 1 = n.log2 - 52 + 53 := by omega
      rw [hexponent, Nat.one_mul, Nat.pow_eq]
      rw [hsum, Nat.pow_add] at hlt
      have hround := two_mul_roundDiv_le n (2 ^ (n.log2 - 52)) (Nat.two_pow_pos _)
      have hunits : 2 ^ (n.log2 - 52) * (2 * roundDiv n (2 ^ (n.log2 - 52))) <
          2 ^ (n.log2 - 52) * (2 * 2 ^ 53 + 1) := by
        rw [Nat.mul_left_comm, ← Nat.mul_assoc, Nat.mul_add, Nat.mul_left_comm]
        omega
      have := Nat.lt_of_mul_lt_mul_left hunits
      omega

/-- A significand of 53 bits is rounded to the next power of two from the middle on. -/
theorem le_roundScaled_iff (n e : Nat) :
    2 ^ 53 ≤ roundScaled n 1 (-((e + 1 : Nat) : Int)) ↔ 2 ^ (54 + e) - 2 ^ e ≤ n := by
  have hscaled : roundScaled n 1 (-((e + 1 : Nat) : Int)) = roundDiv n (2 ^ (e + 1)) := by
    have hexponent : (-(-((e + 1 : Nat) : Int))).toNat = e + 1 := by omega
    rw [roundScaled, if_neg (by omega), Nat.one_mul, hexponent, Nat.pow_eq]
  rw [hscaled, le_roundDiv_iff (Nat.two_pow_pos _) (by decide), Nat.pow_add 2 54 e,
    Nat.pow_succ 2 e]
  generalize 2 ^ e = half
  omega

/-- The fields of a natural within the range of exponents. -/
theorem nearestDouble_one (negative : Bool) {n : Nat} (hn : n ≠ 0) (hlead : n.log2 < 1024) :
    nearestDouble negative n 1 =
      let rest := (n.log2 + 1022) * Nat.pow 2 52 + roundScaled n 1 (52 - (n.log2 : Int))
      if 2047 * Nat.pow 2 52 ≤ rest then infinity negative else ofFields negative rest := by
  have hlast : max ((n.log2 : Int) - 52) (-1074) = n.log2 - 52 := by omega
  have hshift : ((n.log2 : Int) - 52 + 1074).toNat = n.log2 + 1022 := by omega
  rw [nearestDouble, if_neg hn, leadingExponent_one hn]
  dsimp only
  rw [if_neg (by omega), hlast, hshift, Int.neg_sub]

/-- A natural from the middle between the largest double and the next power of two on is infinite as
a double.  The exponent of the last place is a variable, so that no power of it is worked out. -/
theorem isInf_nearestDouble_iff (negative : Bool) (n : Nat) {e : Nat} (he : e = 970) :
    (nearestDouble negative n 1).isInf = true ↔ 2 ^ (54 + e) - 2 ^ e ≤ n := by
  have hsmall (h : n < 2 ^ (53 + e)) : ¬2 ^ (54 + e) - 2 ^ e ≤ n := by
    rw [Nat.pow_add] at h ⊢
    omega
  by_cases hn : n = 0
  · have hzero : (nearestDouble negative 0 1).isInf = false := by
      cases negative <;> decide +kernel
    subst hn
    exact iff_of_false (Bool.eq_false_iff.1 hzero) (hsmall (Nat.two_pow_pos _))
  obtain hlead | hlead := Nat.lt_or_ge n.log2 1024
  · have hround := roundScaled_log2_le n
    rw [nearestDouble_one negative hn hlead, isInf_fields_iff]
    simp only [Nat.pow_eq]
    by_cases htop : n.log2 = 1023
    · have hexponent : 52 - (n.log2 : Int) = -((e + 1 : Nat) : Int) := by omega
      rw [← le_roundScaled_iff, ← hexponent, htop]
      omega
    · have hlt : n < 2 ^ (53 + e) :=
        Nat.lt_of_lt_of_le Nat.lt_log2_self (Nat.pow_le_pow_right (by decide) (by omega))
      exact iff_of_false (by omega) (hsmall hlt)
  · have hbig : 2 ^ (54 + e) ≤ n :=
      Nat.le_trans (Nat.pow_le_pow_right (by decide) (by omega)) (Nat.log2_self_le hn)
    have hinfinity : nearestDouble negative n 1 = infinity negative := by
      rw [nearestDouble, if_neg hn, leadingExponent_one hn]
      exact if_pos (by omega)
    rw [hinfinity]
    exact iff_of_true (isInf_infinity negative) (Nat.le_trans (Nat.sub_le _ _) hbig)

/-- Integers from the middle between the largest double and the next power of two on are infinite
as doubles. -/
theorem isInf_nearestInt_iff (n : Int) :
    (nearestInt n).isInf = true ↔ 2 ^ 1024 - 2 ^ 970 ≤ n.natAbs := by
  have hexponent : 54 + 970 = 1024 := rfl
  have h := isInf_nearestDouble_iff (n < 0) n.natAbs rfl
  rwa [hexponent] at h

/-- An integer has a double up to that middle. -/
theorem ofInt_cases (n : Int) :
    n.natAbs < 2 ^ 1024 - 2 ^ 970 ∧ ofInt n = .ok (nearestInt n) ∨
      2 ^ 1024 - 2 ^ 970 ≤ n.natAbs ∧ ofInt n = .error .tooLarge := by
  have hinf := isInf_nearestInt_iff n
  rw [← isInfinite_datum] at hinf
  unfold ofInt
  dsimp only
  cases hdatum : datum (nearestInt n) <;> rw [hdatum] at hinf
  case infinite => exact .inr ⟨hinf.1 rfl, rfl⟩
  case notANumber => exact .inl ⟨Nat.not_le.1 (mt hinf.2 Bool.false_ne_true), rfl⟩
  case finite => exact .inl ⟨Nat.not_le.1 (mt hinf.2 Bool.false_ne_true), rfl⟩

end CoinToss.Decimal
