import CoinToss.Proofs.Decimal.Datum

/-!
# CoinToss.Proofs.Decimal.Order

How doubles compare, and what is above zero.

Two doubles are compared by what arithmetic reads from their words, and there a NaN is neither
less nor equal.  A sum is worked out on what is read, rounded and packed into a word again.
Rounding a number above zero never leaves nothing of it, and where there is no room for it the
word is that of an infinity, so a sum of numbers above zero is above zero, whatever it rounds to:

```
read            sum              rounded            packed
0 < m, n        m · 2 ^ e + n · 2 ^ k       0 < l < 2 ^ 53     some bit, or an infinity
```

* `lt_iff_compare`, `le_iff_compare` — comparing doubles is comparing what is read;
* `clamp_range` — a number brought between two bounds is between them;
* `Fits`, `fits_unpack`, `round_eq` — significands with room in a word, and rounding to one;
* `Positive`, `pos_iff_positive` — what is above zero, as it is read;
* `Double.add_pos` — and as it is added.
-/

namespace CoinToss.Decimal

open Float.Model (Format UnpackedFloat totalExponent)
open Float.Model.UnpackedFloat

/-! ## comparing -/

/-- What arithmetic reads from a double. -/
def reading (x : Float) : UnpackedFloat := x.toModel.unpack

theorem reading_zero : reading 0 = .zero .positive := rfl

theorem ofRatio_zero : (Quantity.ofRatio 0 1 : Float) = 0 := by decide +kernel

section Compare

variable {x y : Float}

theorem lt_iff_compare : x < y ↔ (reading x).compare (reading y) = some .lt := by
  have h : x < y ↔ ((reading x).compare (reading y) == some .lt) = true :=
    decide_eq_true_iff (p := x.toModel < y.toModel)
  rw [h, beq_iff_eq]

theorem le_iff_compare : x ≤ y ↔
    (reading x).compare (reading y) = some .lt ∨ (reading x).compare (reading y) = some .eq := by
  have h : x ≤ y ↔ ((reading x).compare (reading y)).any (·.isLE) = true :=
    decide_eq_true_iff (p := x.toModel ≤ y.toModel)
  rw [h]
  rcases (reading x).compare (reading y) with _ | _ | _ | _ <;> simp

theorem Double.le_of_lt (h : x < y) : x ≤ y := le_iff_compare.2 (.inl (lt_iff_compare.1 h))

/-- A NaN is not above anything. -/
theorem Double.isNaN_of_le (h : x ≤ y) : y.isNaN = false := by
  have hkind : y.isNaN = (reading y).isNaN := rfl
  rw [le_iff_compare] at h
  rw [hkind]
  generalize reading y = g at h
  cases g with
  | notANumber => cases hx : reading x <;> rw [hx] at h <;> simp [UnpackedFloat.compare] at h
  | _ => rfl

/-- What lies between finite numbers is finite. -/
theorem Double.isFinite_of_between {low high : Float} (hlow : low.isFinite = true)
    (hhigh : high.isFinite = true) (h : low ≤ x) (h' : x ≤ high) : x.isFinite = true := by
  have hkind (y : Float) : y.isFinite = (reading y).isFinite := rfl
  rw [le_iff_compare] at h h'
  rw [hkind] at hlow hhigh ⊢
  generalize reading low = f at h hlow
  generalize reading high = k at h' hhigh
  generalize reading x = g at h h' ⊢
  cases g with
  | notANumber => cases k <;> rcases h' with h' | h' <;> cases h'
  | infinity s =>
      cases s with
      | positive => cases k <;> first | contradiction | rcases h' with h' | h' <;> cases h'
      | negative => cases f <;> first | contradiction | rcases h with h | h <;> cases h
  | zero | finite => rfl

end Compare

/-- A number brought between two bounds is between them, and so is what stands for no number. -/
theorem clamp_range {low high fallback : Float} (hlow : low ≤ low) (hhigh : high ≤ high)
    (hbounds : low ≤ high) (hfallback : low ≤ fallback ∧ fallback ≤ high) (x : Float) :
    low ≤ clamp low high fallback x ∧ clamp low high fallback x ≤ high := by
  have hgreatest : low ≤ greatest low x := by
    unfold greatest
    split
    · next h => exact Double.le_of_lt (decide_eq_true_iff.1 h)
    · exact hlow
  unfold clamp
  split
  · exact hfallback
  · unfold least
    split
    · next h => exact ⟨hgreatest, Double.le_of_lt (decide_eq_true_iff.1 h)⟩
    · exact ⟨hbounds, hhigh⟩

/-! ## significands with room in a word -/

/-- The significands and exponents of numbers that a word has room for, but for the greatest
exponents. -/
structure Fits (m : Nat) (e : Int) : Prop where
  pos : 0 < m
  lt : m < 2 ^ 53
  least : -1074 ≤ e

theorem targetExponent_eq (m : Nat) (e : Int) :
    Format.binary64.targetExponent (totalExponent m e) = max ((m.log2 : Int) + e - 52) (-1074) := by
  have hbits : Format.binary64.mantissaBits = 53 := rfl
  have hleast : Format.binary64.minExponent = -1074 := by decide
  rw [Format.targetExponent, totalExponent, hbits, hleast]
  omega

theorem mantissa_ofMantissaAndAccuracy (m : Nat) (a : Accuracy) :
    (ExtendedMantissa.ofMantissaAndAccuracy m a).mantissa = m := by
  rcases a with _ | _ | _ | _ <;> rfl

theorem mantissa_shiftRight (m : ExtendedMantissa) (n : Nat) :
    (m >>> n).mantissa = m.mantissa / 2 ^ n := by
  show (n.repeat ExtendedMantissa.shiftRightOne m).mantissa = m.mantissa / 2 ^ n
  induction n with
  | zero => rw [Nat.repeat, Nat.pow_zero, Nat.div_one]
  | succ n ih =>
      rw [Nat.repeat, Nat.pow_succ, ← Nat.div_div_eq_div_mul, ← ih]
      rfl

/-- A significand keeps its leading bits when it is shifted to the exponent that it is given. -/
theorem fits_shift {m : Nat} {e : Int} (hm : 0 < m) (he : -1074 ≤ e) (a : Accuracy) :
    Fits (shiftToTargetExponent Format.binary64 m e a).1.mantissa
      (shiftToTargetExponent Format.binary64 m e a).2 := by
  unfold shiftToTargetExponent shiftToExponent
  rw [targetExponent_eq]
  dsimp only
  rw [mantissa_shiftRight, mantissa_ofMantissaAndAccuracy]
  have hlow : 2 ^ m.log2 ≤ m := Nat.log2_self_le (Nat.ne_of_gt hm)
  have hhigh : m < 2 ^ (m.log2 + 1) := Nat.lt_log2_self
  generalize hk : (max ((m.log2 : Int) + e - 52) (-1074) - e).toNat = k
  refine ⟨Nat.div_pos ?_ (Nat.two_pow_pos k), ?_, by omega⟩
  · have hbits : k ≤ m.log2 := by omega
    exact Nat.le_trans (Nat.pow_le_pow_right (by decide) hbits) hlow
  · have hbits : m.log2 + 1 ≤ 53 + k := by omega
    rw [Nat.div_lt_iff_lt_mul (Nat.two_pow_pos k), ← Nat.pow_add]
    exact Nat.lt_of_lt_of_le hhigh (Nat.pow_le_pow_right (by decide) hbits)

theorem le_roundedMantissa (m : ExtendedMantissa) : m.mantissa ≤ m.roundedMantissa := by
  unfold ExtendedMantissa.roundedMantissa Accuracy.roundToNearestEven
  split <;> omega

theorem shiftLeft_pos {m : Nat} (hm : 0 < m) (k : Nat) : 0 < m <<< k := by
  rw [Nat.shiftLeft_eq]
  exact Nat.mul_pos hm (Nat.two_pow_pos k)

/-- A number other than zero is rounded to one that fits.  It is shifted twice, as rounding up can
make it one bit longer. -/
theorem round_eq (s : Sign) {m : Nat} {e : Int} (hm : 0 < m) (he : -1074 ≤ e) :
    ∃ n k, ∃ h : Fits n k, UnpackedFloat.round Format.binary64 s m e = .finite s n k h.pos := by
  unfold UnpackedFloat.round decreaseExponent
  rw [targetExponent_eq]
  dsimp only
  generalize hk : (e - max ((m.log2 : Int) + e - 52) (-1074)).toNat = k
  have hfirst := fits_shift (shiftLeft_pos hm k) (show -1074 ≤ e - k by omega) .exact
  unfold roundWithAccuracy
  dsimp only
  have hrounded := Nat.lt_of_lt_of_le hfirst.pos (le_roundedMantissa _)
  have hsecond := fits_shift hrounded hfirst.least .exact
  rw [dif_neg (Nat.ne_of_gt hsecond.pos)]
  exact ⟨_, _, hsecond, rfl⟩

/-- What is read from a word fits. -/
theorem fits_unpack {b : Word} {s : Sign} {m : Nat} {e : Int} {hm : 0 < m}
    (h : unpack Format.binary64 b = .finite s m e hm) : Fits m e := by
  have hlead : (Format.binary64.exponentBias : Int) +
      (Format.binary64.mantissaBitsWithoutImplicit : Int) = 1075 := by decide
  rw [unpack] at h
  split at h
  · split at h <;> contradiction
  · split at h
    · split at h
      · contradiction
      · injection h with _ hmantissa hexponent
        have hlt := (unpackMantissa b).isLt
        rw [hmantissa] at hlt
        refine ⟨hm, Nat.lt_trans hlt (by decide), ?_⟩
        rw [← hexponent, hlead]
        omega
    · next hfield =>
        injection h with _ hmantissa hexponent
        have hlt := (1#1 ++ unpackMantissa b).isLt
        rw [hmantissa] at hlt
        have hfield : (unpackExponent b).toNat ≠ 0 := fun h => hfield (BitVec.eq_of_toNat_eq h)
        refine ⟨hm, hlt, ?_⟩
        rw [← hexponent, hlead]
        omega

/-! ## numbers above zero -/

/-- Numbers above zero that a word has room for, or else an infinity. -/
inductive Positive : UnpackedFloat → Prop
  | infinity : Positive (.infinity .positive)
  | finite (m : Nat) (e : Int) (h : Fits m e) : Positive (.finite .positive m e h.pos)

/-- Whether what is read is above zero. -/
def isAbove : UnpackedFloat → Bool
  | .infinity .positive | .finite .positive _ _ _ => true
  | _ => false

theorem positive_unpack_iff {b : Word} :
    Positive (unpack Format.binary64 b) ↔ isAbove (unpack Format.binary64 b) = true := by
  have hfits {s : Sign} {m : Nat} {e : Int} {hm : 0 < m}
      (h : unpack Format.binary64 b = .finite s m e hm) : Fits m e := fits_unpack h
  generalize unpack Format.binary64 b = f at hfits
  constructor
  · intro h
    cases h <;> rfl
  · intro h
    unfold isAbove at h
    split at h
    · exact .infinity
    · exact .finite _ _ (hfits rfl)
    · contradiction

/-- A double is above zero exactly if what is read from it is. -/
theorem pos_iff_positive (x : Float) : 0 < x ↔ Positive (reading x) := by
  have hcompare (f : UnpackedFloat) :
      (UnpackedFloat.zero .positive).compare f = some .lt ↔ isAbove f = true := by
    rcases f with (_ | _) | _ | _ | ⟨_ | _, m, e, hm⟩ <;> simp [UnpackedFloat.compare, isAbove]
  rw [lt_iff_compare, reading_zero, hcompare]
  exact positive_unpack_iff.symm

theorem sign_packComponents (s : Sign) (e : BitVec 11) (m : BitVec 52) :
    Sign.ofBitVec (unpackSign (packComponents Format.binary64 s e m)) = s := by
  rw [unpackSign_packComponents]
  cases s <;> rfl

/-- A word with a positive sign and some bit of a number is read as a number above zero. -/
theorem positive_unpack_packComponents {e : BitVec 11} {m : BitVec 52} (he : e ≠ -1#11)
    (hne : e ≠ 0#11 ∨ m ≠ 0#52) :
    Positive (unpack Format.binary64 (packComponents Format.binary64 .positive e m)) := by
  rw [positive_unpack_iff, unpack]
  simp only [unpackExponent_packComponents, unpackMantissa_packComponents, sign_packComponents]
  rw [if_neg he]
  split
  · next hzero =>
      rw [dif_neg (hne.resolve_left (not_not_intro hzero))]
      rfl
  · rfl

/-- A number above zero stays above zero when it is packed into a word. -/
theorem positive_pack {f : UnpackedFloat} (hf : Positive f) :
    Positive (unpack Format.binary64 (pack Format.binary64 f)) := by
  cases hf with
  | infinity => exact .infinity
  | finite m e hm =>
      have hfield : e + (Format.binary64.exponentBias : Int) +
          (Format.binary64.mantissaBitsWithoutImplicit : Int) = e + 1075 := by
        show e + 1023 + 52 = e + 1075
        omega
      have hbits : Format.binary64.mantissaBits = 53 := rfl
      have hleast := hm.least
      rw [pack]
      dsimp only
      rw [hfield, hbits]
      split
      · exact .infinity
      · split
        · -- there is a leading bit, and the exponent field counts from one to 2046
          refine positive_unpack_packComponents (fun h => ?_) (.inl fun h => ?_)
          · have h : (e + 1075).toNat % 2 ^ 11 = 2047 := congrArg BitVec.toNat h
            omega
          · have h : (e + 1075).toNat % 2 ^ 11 = 0 := congrArg BitVec.toNat h
            omega
        · -- there is none, so all bits of the significand are in the fraction field
          refine positive_unpack_packComponents (by decide) (.inr fun h => ?_)
          have hne := Nat.ne_of_gt hm.pos
          have hlog : m.log2 < 53 := (Nat.log2_lt hne).2 hm.lt
          have hlt : m < 2 ^ 52 := (Nat.log2_lt hne).1 (by omega)
          have h : m % 2 ^ 52 = 0 := congrArg BitVec.toNat h
          rw [Nat.mod_eq_of_lt hlt] at h
          exact hne h

/-! ## sums -/

theorem positive_add {f g : UnpackedFloat} (hf : Positive f) (hg : Positive g) :
    Positive (UnpackedFloat.add Format.binary64 f g) := by
  cases hf with
  | infinity => cases hg <;> exact .infinity
  | finite m e hm =>
      cases hg with
      | infinity => exact .infinity
      | finite n k hn =>
          show Positive (UnpackedFloat.normalize Format.binary64
            ((m <<< (e - min e k).toNat : Nat) + (n <<< (k - min e k).toNat : Nat)) (min e k)
            .positive)
          have hpos := shiftLeft_pos hm.pos (e - min e k).toNat
          generalize m <<< (e - min e k).toNat = a at hpos
          generalize n <<< (k - min e k).toNat = b
          have hcompare : compare ((a : Int) + b) 0 = .gt := Int.compare_eq_gt.2 (by omega)
          have hsum : 0 < ((a : Int) + b).toNat := by omega
          have hleast : -1074 ≤ min e k := Int.le_min.2 ⟨hm.least, hn.least⟩
          obtain ⟨l, j, hfits, hround⟩ := round_eq .positive hsum hleast
          unfold UnpackedFloat.normalize
          rw [hcompare]
          dsimp only
          rw [hround]
          exact .finite l j hfits

theorem add_zero_of_positive {f : UnpackedFloat} (hf : Positive f) :
    UnpackedFloat.add Format.binary64 f (.zero .positive) = f := by
  cases hf <;> rfl

theorem zero_add_of_positive {f : UnpackedFloat} (hf : Positive f) :
    UnpackedFloat.add Format.binary64 (.zero .positive) f = f := by
  cases hf <;> rfl

namespace Double

variable {x y : Float}

theorem not_le_zero_of_pos (hx : 0 < x) : ¬x ≤ 0 := by
  have hcompare {f : UnpackedFloat} (hf : Positive f) : f.compare (.zero .positive) = some .gt := by
    cases hf <;> rfl
  rw [le_iff_compare, reading_zero, hcompare ((pos_iff_positive x).1 hx)]
  decide

/-- A sum of doubles above zero is above zero, even where it overflows. -/
theorem add_pos (hx : 0 < x) (hy : 0 < y) : 0 < x + y := by
  rw [pos_iff_positive] at hx hy ⊢
  exact positive_pack (positive_add hx hy)

theorem add_zero_pos (hx : 0 < x) : 0 < x + 0 := by
  rw [pos_iff_positive] at hx ⊢
  have hpack := positive_pack hx
  rw [← add_zero_of_positive hx] at hpack
  exact hpack

theorem zero_add_pos (hx : 0 < x) : 0 < 0 + x := by
  rw [pos_iff_positive] at hx ⊢
  have hpack := positive_pack hx
  rw [← zero_add_of_positive hx] at hpack
  exact hpack

end Double

end CoinToss.Decimal
