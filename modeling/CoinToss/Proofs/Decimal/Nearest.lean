import CoinToss.Decimal.Shortest
import CoinToss.Proofs.Decimal.Places

/-!
# CoinToss.Proofs.Decimal.Nearest

A double is the nearest one to whatever lies in its interval.

The interval of a double `m · 2 ^ e` reaches half a place to either side, but below a power of two,
where the doubles lie closer, a quarter.  What lies in it has the leading place of the double, or
the one below it and is rounded up to a power of two:

```
n / d in the interval   --leadingExponent-->  e + 52  --roundScaled-->  m
just below 2 ^ (e + 52) --leadingExponent-->  e + 51  --roundScaled-->  2 ^ 53
```

Either way the fields put together are those of the double.

* `eq_ofFields`, `eq_infinity`, `eq_notANumber` — a double from what is read of it;
* `ten_zpow_lt` — powers of ten and of two compare by their exponents;
* `RoundsTo`, `roundScaled_eq` — what is rounded to a natural;
* `Interval.Covers`, `Interval.contains_iff` — intervals as sets of rationals;
* `nearestDouble_of_covers`, `nearestDecimal_of_covers` — the double nearest to a ratio or a decimal
  in an interval.
-/

namespace CoinToss.Decimal

open Float.Model (Format UnpackedFloat)

/-! ## doubles and their words -/

/-- A double is the one of its word: there is one word for what is no number. -/
theorem ofBits_toBits (x : Float) : Float.ofBits x.toBits = x := by
  obtain ⟨⟨w, hvalid⟩⟩ := x
  have hword : UnpackedFloat.pack Format.binary64
      (UnpackedFloat.unpack Format.binary64 w.toBitVec) = w.toBitVec := by
    rw [UnpackedFloat.pack_unpack]
    split
    · next hnan =>
      have h := of_decide_eq_true hnan
      exact (hvalid.eq_packedNaN h.1 h.2).symm
    · rfl
  have hbits : (Float.Model.ofBits w).toBits = w := congrArg UInt64.ofBitVec hword
  show Float.ofModel (Float.Model.ofBits w) = _
  generalize Float.Model.ofBits w = y at hbits
  obtain ⟨v, hv⟩ := y
  cases hbits
  rfl

section Words

variable {x : Float} {negative : Bool} {m : Nat} {e : Int}

theorem eq_ofFields_of_toBits {rest : Nat}
    (h : x.toBits.toNat = if negative then Nat.pow 2 63 + rest else rest) :
    x = ofFields negative rest := by
  rw [ofFields, ← h, UInt64.ofNat_toNat, ofBits_toBits]

/-- A finite double is put together from its sign, exponent and significand. -/
theorem eq_ofFields (h : datum x = .finite negative m e) :
    x = ofFields negative ((e + 1074).toNat * Nat.pow 2 52 + m) := by
  apply eq_ofFields_of_toBits
  have hword := x.toBits.toNat_lt
  unfold datum at h
  dsimp only at h
  simp only [Nat.pow_eq] at h ⊢
  split at h
  · split at h <;> contradiction
  · split at h
    · injection h with hs hm he
      subst hm he
      cases negative <;> simp at hs ⊢ <;> omega
    · injection h with hs hm he
      subst hm he
      cases negative <;> simp at hs ⊢ <;> omega

/-- There are two infinities. -/
theorem eq_infinity (h : datum x = .infinite negative) : x = infinity negative := by
  apply eq_ofFields_of_toBits
  have hword := x.toBits.toNat_lt
  unfold datum at h
  dsimp only at h
  simp only [Nat.pow_eq] at h ⊢
  split at h
  · split at h
    · injection h with hs
      cases negative <;> simp at hs ⊢ <;> omega
    · contradiction
  · split at h <;> contradiction

/-- There is one double that is no number. -/
theorem eq_notANumber (h : datum x = .notANumber) : x = notANumber := by
  have hones : exponentField x.toBits.toBitVec = 2047 := by
    by_contra hne
    obtain ⟨_, _, _, hfinite⟩ := datum_of_field_ne hne
    rw [hfinite] at h
    contradiction
  have hfraction : fractionField x.toBits.toBitVec ≠ 0 := by
    intro hzero
    rw [datum_of_field_eq hones, if_pos hzero] at h
    contradiction
  have hword : x.toBits.toBitVec = UnpackedFloat.packedNaN Format.binary64 :=
    x.toModel.valid.eq_packedNaN (unpackExponent_eq_iff.2 hones)
      fun hzero => hfraction (unpackMantissa_eq_iff.1 hzero)
  rw [← ofBits_toBits x, notANumber]
  congr 1
  exact UInt64.eq_of_toBitVec_eq (hword.trans (by decide))

/-- The significands and exponents of finite doubles. -/
structure IsDouble (m : Nat) (e : Int) : Prop where
  lt : m < 2 ^ 53
  least : -1074 ≤ e
  greatest : e ≤ 971
  /-- Only the least exponent has significands of fewer places. -/
  full : e = -1074 ∨ 2 ^ 52 ≤ m

theorem isDouble_datum (h : datum x = .finite negative m e) : IsDouble m e := by
  unfold datum at h
  dsimp only at h
  simp only [Nat.pow_eq] at h
  split at h
  · split at h <;> contradiction
  · split at h
    · injection h with _ hm he
      constructor <;> omega
    · injection h with _ hm he
      constructor <;> omega

end Words

/-! ## powers of ten -/

/-- As `2 ^ 93 ≤ 10 ^ 28 ≤ 2 ^ 94`, powers of ten and of two compare by their exponents. -/
theorem ten_zpow_lt {p k : Int} (h : 93 * p < 28 * k) (h' : 94 * p < 28 * k) :
    (10 : ℚ) ^ p < 2 ^ k := by
  have hpower : ((10 : ℚ) ^ p) ^ 28 < (2 ^ k) ^ 28 := by
    rw [← zpow_natCast, ← zpow_natCast, ← zpow_mul, ← zpow_mul, mul_comm, mul_comm k, zpow_mul]
    obtain hp | hp := le_total 0 p
    · calc ((10 : ℚ) ^ ((28 : Nat) : Int)) ^ p ≤ ((2 : ℚ) ^ (94 : Int)) ^ p :=
            zpow_le_zpow_left₀ hp (by norm_num) (by norm_num)
        _ = 2 ^ (94 * p) := (zpow_mul _ _ _).symm
        _ < 2 ^ (28 * k) := zpow_lt_zpow_right₀ one_lt_two h'
    · calc ((10 : ℚ) ^ ((28 : Nat) : Int)) ^ p = ((10 ^ ((28 : Nat) : Int))⁻¹) ^ (-p) := by
            rw [inv_zpow', neg_neg]
        _ ≤ ((2 ^ (93 : Int))⁻¹) ^ (-p) :=
            zpow_le_zpow_left₀ (by omega) (by norm_num) (by norm_num)
        _ = 2 ^ (93 * p) := by rw [inv_zpow', neg_neg, zpow_mul]
        _ < 2 ^ (28 * k) := zpow_lt_zpow_right₀ one_lt_two h
  exact lt_of_pow_lt_pow_left₀ 28 (by positivity) hpower

theorem lt_ten_zpow {p k : Int} (h : 28 * k < 93 * p) (h' : 28 * k < 94 * p) :
    (2 : ℚ) ^ k < 10 ^ p := by
  have hinverse : (10 : ℚ) ^ (-p) < 2 ^ (-k) := ten_zpow_lt (by omega) (by omega)
  rw [zpow_neg, zpow_neg] at hinverse
  exact (inv_lt_inv₀ (by positivity) (by positivity)).1 hinverse

/-- A natural has no more decimal places than a third of its binary ones. -/
theorem lt_ten_pow (n : Nat) : n < 10 ^ (n.log2 / 3 + 1) := by
  calc n < 2 ^ (n.log2 + 1) := Nat.lt_log2_self
    _ ≤ 2 ^ (3 * (n.log2 / 3 + 1)) := Nat.pow_le_pow_right (by decide) (by omega)
    _ = 8 ^ (n.log2 / 3 + 1) := Nat.pow_mul 2 3 _
    _ ≤ 10 ^ (n.log2 / 3 + 1) := Nat.pow_le_pow_left (by decide) _

theorem scaled_cancel (q : ℚ) (e : Int) : q * 2 ^ (-e) * 2 ^ e = q := by
  rw [mul_assoc, ← zpow_add₀ two_ne_zero, neg_add_cancel, zpow_zero, mul_one]

/-! ## rounding to a natural -/

section Rounding

variable {n d k : Nat}

/-- The rationals that round to a natural; a tie goes to an even one. -/
def RoundsTo (q : ℚ) (k : Nat) : Prop :=
  if k % 2 = 0 then |q - k| ≤ 1 / 2 else |q - k| < 1 / 2

theorem RoundsTo.near {q : ℚ} (h : RoundsTo q k) : |q - k| ≤ 1 / 2 := by
  unfold RoundsTo at h
  split at h
  · exact h
  · exact h.le

theorem le_roundDiv (n : Nat) (hd : 0 < d) : (n / d : ℚ) ≤ roundDiv n d + 1 / 2 := by
  have hd' : (0 : ℚ) < d := Nat.cast_pos.2 hd
  have h : (2 * n : ℚ) ≤ 2 * d * roundDiv n d + d := by
    exact_mod_cast le_two_mul_roundDiv n d hd
  rw [div_le_iff₀ hd']
  linarith

/-- A quotient is rounded to an even number or below up to half a unit above it. -/
theorem roundDiv_le_of_even (hd : 0 < d) (hk : k % 2 = 0) (h : 2 * n ≤ 2 * d * k + d) :
    roundDiv n d ≤ k := by
  have hdiv := Nat.div_add_mod n d
  have hlow : n / d ≤ k := by
    have : n < (k + 1) * d := by
      rw [Nat.succ_mul, Nat.mul_comm k d]
      rw [Nat.mul_assoc] at h
      omega
    exact Nat.lt_succ_iff.1 ((Nat.div_lt_iff_lt_mul hd).2 this)
  unfold roundDiv
  dsimp only
  obtain hlt | heq := Nat.lt_or_eq_of_le hlow
  · split
    · exact hlow
    · split <;> omega
  · -- `k` is even, so a tie stays there
    rw [heq] at hdiv ⊢
    rw [Nat.mul_assoc] at h
    split
    · exact Nat.le_refl k
    · split <;> omega

/-- A quotient that rounds to a natural is rounded to it. -/
theorem roundDiv_eq (hd : 0 < d) (h : RoundsTo (n / d) k) : roundDiv n d = k := by
  have hd' : (0 : ℚ) < d := Nat.cast_pos.2 hd
  unfold RoundsTo at h
  split at h
  · next heven =>
    rw [abs_le, neg_le_sub_iff_le_add, ← sub_le_iff_le_add, le_div_iff₀ hd', sub_le_iff_le_add,
      div_le_iff₀ hd'] at h
    have hlow : (2 * d * k : ℚ) ≤ 2 * n + d := by linarith [h.1]
    have hhigh : (2 * n : ℚ) ≤ 2 * d * k + d := by linarith [h.2]
    apply Nat.le_antisymm
    · exact roundDiv_le_of_even hd heven (by exact_mod_cast hhigh)
    · exact (le_roundDiv_iff hd (Nat.dvd_of_mod_eq_zero heven)).2 (by exact_mod_cast hlow)
  · -- less than half a unit from `k` there is no other natural within half a unit
    rw [abs_lt] at h
    have hlow : (k : ℚ) < (roundDiv n d + 1 : Nat) := by
      push_cast
      linarith [le_roundDiv n hd]
    have hhigh : (roundDiv n d : ℚ) < (k + 1 : Nat) := by
      push_cast
      linarith [roundDiv_le n hd]
    exact Nat.le_antisymm (Nat.lt_succ_iff.1 (Nat.cast_lt.1 hhigh))
      (Nat.lt_succ_iff.1 (Nat.cast_lt.1 hlow))

theorem roundScaled_eq (hd : 0 < d) {e : Int} (h : RoundsTo (n / d * 2 ^ e) k) :
    roundScaled n d e = k := by
  unfold roundScaled
  split
  · next he =>
    obtain ⟨i, rfl⟩ := Int.eq_ofNat_of_zero_le he
    have hvalue : ((n * Nat.pow 2 i : Nat) / d : ℚ) = n / d * 2 ^ (i : Int) := by
      rw [Nat.pow_eq, Nat.cast_mul, Nat.cast_pow, Nat.cast_ofNat, mul_div_right_comm, zpow_natCast]
    rw [← hvalue] at h
    exact roundDiv_eq hd h
  · next he =>
    obtain ⟨i, hi⟩ := Int.eq_ofNat_of_zero_le (show 0 ≤ -e by omega)
    have hvalue : (n / (d * Nat.pow 2 i : Nat) : ℚ) = n / d * 2 ^ e := by
      rw [Nat.pow_eq, Nat.cast_mul, Nat.cast_pow, Nat.cast_ofNat, ← div_div, ← neg_neg e, hi,
        zpow_neg, zpow_natCast, div_eq_mul_inv]
    rw [← hvalue] at h
    rw [hi, Int.toNat_natCast]
    exact roundDiv_eq (Nat.mul_pos hd (Nat.two_pow_pos i)) h

end Rounding

/-! ## intervals -/

namespace Interval

/-- Whether a rational lies in the interval. -/
def Covers (i : Interval) (q : ℚ) : Prop :=
  if i.closed then i.low ≤ q ∧ q ≤ i.high else i.low < q ∧ q < i.high

theorem contains_iff (i : Interval) (n : Nat) {d : Nat} (hd : 0 < d) :
    i.contains n d = true ↔ i.Covers (n / d) := by
  have hd' : (0 : ℚ) < d := Nat.cast_pos.2 hd
  unfold contains Covers
  split
  · rw [decide_eq_true_iff, le_div_iff₀ hd', div_le_iff₀ hd']
    norm_cast
  · rw [decide_eq_true_iff, lt_div_iff₀ hd', div_lt_iff₀ hd']
    norm_cast

theorem covers_of_lt {i : Interval} {q : ℚ} (hlow : i.low < q) (hhigh : q < i.high) :
    i.Covers q := by
  unfold Covers
  split
  · exact ⟨hlow.le, hhigh.le⟩
  · exact ⟨hlow, hhigh⟩

variable {m : Nat} {e : Int} {q : ℚ}

theorem low_ofSignificand (hm : 0 < m) :
    (4 * m - 2 : ℚ) ≤ (ofSignificand m e).low ∧ ((ofSignificand m e).low : ℚ) ≤ 4 * m := by
  have h : 4 * m ≤ (ofSignificand m e).low + 2 ∧ (ofSignificand m e).low ≤ 4 * m := by
    unfold ofSignificand
    dsimp only
    split <;> omega
  rw [sub_le_iff_le_add]
  exact_mod_cast h

theorem high_ofSignificand : ((ofSignificand m e).high : ℚ) = 4 * m + 2 := by
  simp [ofSignificand]

theorem closed_ofSignificand : (ofSignificand m e).closed = true ↔ m % 2 = 0 := by
  simp [ofSignificand]

/-- What lies in the interval of a double rounds to its significand. -/
theorem roundsTo_of_covers (hm : 0 < m) (h : (ofSignificand m e).Covers (4 * q)) :
    RoundsTo q m := by
  have hlow := (low_ofSignificand (e := e) hm).1
  unfold Covers at h
  rw [high_ofSignificand] at h
  unfold RoundsTo
  split
  · next heven =>
    rw [if_pos (closed_ofSignificand.2 heven)] at h
    rw [abs_le]
    constructor <;> linarith
  · next hodd =>
    rw [if_neg (mt closed_ofSignificand.1 hodd)] at h
    rw [abs_lt]
    constructor <;> linarith

/-- What lies in the interval of a double is half a place from its significand at most. -/
theorem range_of_covers (hm : 0 < m) (h : (ofSignificand m e).Covers (4 * q)) :
    m - 1 / 2 ≤ q ∧ q ≤ m + 1 / 2 := by
  have hnear := (roundsTo_of_covers hm h).near
  rw [abs_le] at hnear
  constructor <;> linarith

/-- Zero lies in no interval of a double. -/
theorem ne_zero_of_covers (hm : 0 < m) (h : (ofSignificand m e).Covers (4 * q)) : q ≠ 0 := by
  have hlow := (range_of_covers hm h).1
  have hm' : (1 : ℚ) ≤ m := Nat.one_le_cast.2 hm
  intro hq
  linarith

/-- Below a power of two an interval reaches down a quarter. -/
theorem low_of_covers (he : -1074 < e) (h : (ofSignificand (2 ^ 52) e).Covers (4 * q)) :
    (2 ^ 52 - 1 / 4 : ℚ) ≤ q := by
  have hlow : (ofSignificand (2 ^ 52) e).low = 4 * 2 ^ 52 - 1 := if_pos ⟨rfl, he⟩
  unfold Covers at h
  rw [if_pos (closed_ofSignificand.2 rfl), hlow] at h
  have := h.1
  norm_num at this ⊢
  linarith

end Interval

/-! ## the nearest double -/

section Doubles

open CoinToss.Decimal.Interval

variable {m n d : Nat} {e p : Int}

/-- No rational in the interval of a double has a leading place above it. -/
theorem leadingExponent_le (hdouble : IsDouble m e) (hm : 0 < m) (hn : n ≠ 0) (hd : 0 < d)
    (h : (ofSignificand m e).Covers (4 * (n / d * 2 ^ (-e)))) : leadingExponent n d ≤ e + 52 := by
  have hlt : (2 : ℚ) ^ leadingExponent n d < 2 ^ (e + 53) := by
    calc (2 : ℚ) ^ leadingExponent n d ≤ n / d := (leadingExponent_range hn hd).1
      _ = n / d * 2 ^ (-e) * 2 ^ e := (scaled_cancel _ e).symm
      _ ≤ (m + 1 / 2) * 2 ^ e := by
        gcongr
        exact (range_of_covers hm h).2
      _ < 2 ^ (53 : Int) * 2 ^ e := by
        have : (m + 1 : ℚ) ≤ 2 ^ (53 : Int) := by exact_mod_cast hdouble.lt
        gcongr
        linarith
      _ = 2 ^ (e + 53) := by rw [← zpow_add₀ two_ne_zero, add_comm]
  have := (zpow_lt_zpow_iff_right₀ one_lt_two).1 hlt
  omega

/-- Only the interval of a power of two has rationals with a leading place below it, and they are
rounded up to it. -/
theorem below_leadingExponent (hdouble : IsDouble m e) (hn : n ≠ 0) (hd : 0 < d)
    (h : (ofSignificand m e).Covers (4 * (n / d * 2 ^ (-e)))) (he : -1074 < e)
    (hlead : leadingExponent n d < e + 52) :
    m = 2 ^ 52 ∧ leadingExponent n d = e + 51 ∧ RoundsTo (n / d * 2 ^ (-(e - 1))) (2 ^ 53) := by
  have hm : 2 ^ 52 ≤ m := hdouble.full.resolve_left (by omega)
  have hunit : (0 : ℚ) < 2 ^ e := by positivity
  have hhigh : (n / d * 2 ^ (-e) : ℚ) < 2 ^ 52 := by
    rw [zpow_neg, ← div_eq_mul_inv, div_lt_iff₀ hunit]
    calc (n / d : ℚ) < 2 ^ (leadingExponent n d + 1) := (leadingExponent_range hn hd).2
      _ ≤ 2 ^ (52 + e) := zpow_le_zpow_right₀ one_le_two (by omega)
      _ = 2 ^ 52 * 2 ^ e := by rw [zpow_add₀ two_ne_zero]; rfl
  have hpower : m = 2 ^ 52 := by
    have hnear := (range_of_covers (by omega) h).1
    have : (m : ℚ) < (2 ^ 52 + 1 : Nat) := by
      push_cast
      linarith
    exact Nat.le_antisymm (Nat.lt_succ_iff.1 (Nat.cast_lt.1 this)) hm
  subst hpower
  have hlow := low_of_covers he h
  refine ⟨rfl, ?_, ?_⟩
  · have hlt : (2 : ℚ) ^ (e + 51) < 2 ^ (leadingExponent n d + 1) := by
      calc (2 : ℚ) ^ (e + 51) = 2 ^ 51 * 2 ^ e := by rw [zpow_add₀ two_ne_zero, mul_comm]; rfl
        _ ≤ n / d * 2 ^ (-e) * 2 ^ e := by
          gcongr
          linarith
        _ = n / d := scaled_cancel _ e
        _ < 2 ^ (leadingExponent n d + 1) := (leadingExponent_range hn hd).2
    have := (zpow_lt_zpow_iff_right₀ one_lt_two).1 hlt
    omega
  · have htwice : (n / d * 2 ^ (-(e - 1)) : ℚ) = 2 * (n / d * 2 ^ (-e)) := by
      rw [neg_sub, sub_eq_add_neg, zpow_add₀ two_ne_zero, zpow_one]
      ring
    rw [htwice, RoundsTo, if_pos (by decide), abs_le]
    push_cast
    constructor <;> linarith

/-- The double of a significand and an exponent is the nearest one to whatever lies in its
interval. -/
theorem nearestDouble_of_covers (hdouble : IsDouble m e) (hm : 0 < m) (hd : 0 < d)
    (h : (ofSignificand m e).Covers (4 * (n / d * 2 ^ (-e)))) (negative : Bool) :
    nearestDouble negative n d = ofFields negative ((e + 1074).toNat * Nat.pow 2 52 + m) := by
  have hn : n ≠ 0 := by
    rintro rfl
    exact ne_zero_of_covers hm h (by simp)
  have hle := leadingExponent_le hdouble hm hn hd h
  have hlt := hdouble.lt
  have hleast := hdouble.least
  have hgreatest := hdouble.greatest
  have hrest : (max (leadingExponent n d - 52) (-1074) + 1074).toNat * Nat.pow 2 52 +
      roundScaled n d (-max (leadingExponent n d - 52) (-1074)) =
        (e + 1074).toNat * Nat.pow 2 52 + m := by
    by_cases hsame : max (leadingExponent n d - 52) (-1074) = e
    · rw [hsame, roundScaled_eq hd (roundsTo_of_covers hm h)]
    · obtain ⟨rfl, hlead, hround⟩ := below_leadingExponent hdouble hn hd h (by omega) (by omega)
      have hbelow : max (leadingExponent n d - 52) (-1074) = e - 1 := by omega
      rw [hbelow, roundScaled_eq hd hround]
      simp only [Nat.pow_eq]
      omega
  unfold nearestDouble
  dsimp only
  rw [if_neg hn, if_neg (by omega), hrest, if_neg]
  simp only [Nat.pow_eq]
  omega

/-- Decimals in the interval of a double are far from the exponents that are answered at once. -/
theorem exponent_range (hdouble : IsDouble m e) (hm : 0 < m) (hn : n ≠ 0)
    (h : (ofSignificand m e).Covers (4 * (n * 10 ^ p * 2 ^ (-e)))) :
    p ≤ 400 ∧ -400 ≤ p + (n.log2 / 3 : Nat) := by
  obtain ⟨hlow, hhigh⟩ := range_of_covers hm h
  have hten : (0 : ℚ) < 10 ^ p := by positivity
  have hm' : (1 : ℚ) ≤ m := Nat.one_le_cast.2 hm
  have hn' : (1 : ℚ) ≤ n := Nat.one_le_cast.2 (Nat.pos_of_ne_zero hn)
  constructor
  · have hlt : (10 : ℚ) ^ p < 10 ^ (400 : Int) := by
      calc (10 : ℚ) ^ p ≤ n * 10 ^ p := le_mul_of_one_le_left hten.le hn'
        _ = n * 10 ^ p * 2 ^ (-e) * 2 ^ e := (scaled_cancel _ e).symm
        _ ≤ 2 ^ (53 : Int) * 2 ^ (971 : Int) := by
          have : (m + 1 : ℚ) ≤ 2 ^ (53 : Int) := by exact_mod_cast hdouble.lt
          have := hdouble.greatest
          gcongr
          · linarith
          · exact one_le_two
        _ = 2 ^ (1024 : Int) := (zpow_add₀ two_ne_zero _ _).symm
        _ < 10 ^ (400 : Int) := lt_ten_zpow (by decide) (by decide)
    have := (zpow_lt_zpow_iff_right₀ (by norm_num)).1 hlt
    omega
  · have hdigits : (n : ℚ) < 10 ^ ((n.log2 / 3 : Nat) + 1 : Int) := by
      rw [← Nat.cast_succ, zpow_natCast]
      exact_mod_cast lt_ten_pow n
    have hlt : (10 : ℚ) ^ (-400 : Int) < 10 ^ ((n.log2 / 3 : Nat) + 1 + p) := by
      calc (10 : ℚ) ^ (-400 : Int) < 2 ^ (-1075 : Int) := ten_zpow_lt (by decide) (by decide)
        _ = 2 ^ (-1 : Int) * 2 ^ (-1074 : Int) := by
          rw [← zpow_add₀ two_ne_zero]
          rfl
        _ ≤ n * 10 ^ p * 2 ^ (-e) * 2 ^ e := by
          have := hdouble.least
          rw [zpow_neg_one]
          gcongr
          · linarith
          · exact one_le_two
        _ = n * 10 ^ p := scaled_cancel _ e
        _ < 10 ^ ((n.log2 / 3 : Nat) + 1 : Int) * 10 ^ p := by gcongr
        _ = 10 ^ ((n.log2 / 3 : Nat) + 1 + p) := (zpow_add₀ (by norm_num) _ _).symm
    have := (zpow_lt_zpow_iff_right₀ (by norm_num)).1 hlt
    omega

/-- And it is the nearest one to whatever decimal lies there. -/
theorem nearestDecimal_of_covers (hdouble : IsDouble m e) (hm : 0 < m)
    (h : (ofSignificand m e).Covers (4 * (n * 10 ^ p * 2 ^ (-e)))) (negative : Bool) :
    nearestDecimal negative n p = ofFields negative ((e + 1074).toNat * Nat.pow 2 52 + m) := by
  have hn : n ≠ 0 := by
    rintro rfl
    exact ne_zero_of_covers hm h (by simp)
  obtain ⟨hp, hsize⟩ := exponent_range hdouble hm hn h
  unfold nearestDecimal
  dsimp only
  rw [if_neg hn, if_neg (by omega), if_neg (by omega)]
  split
  · next hp =>
    obtain ⟨i, rfl⟩ := Int.eq_ofNat_of_zero_le hp
    have hvalue : ((n * 10 ^ i : Nat) / (1 : Nat) : ℚ) = n * 10 ^ (i : Int) := by simp
    rw [← hvalue] at h
    exact nearestDouble_of_covers hdouble hm Nat.one_pos h negative
  · next hp =>
    obtain ⟨i, hi⟩ := Int.eq_ofNat_of_zero_le (show 0 ≤ -p by omega)
    have hvalue : (n / (10 ^ i : Nat) : ℚ) = n * 10 ^ p := by
      rw [← neg_neg p, hi, zpow_neg, div_eq_mul_inv]
      simp
    rw [← hvalue] at h
    rw [hi, Int.toNat_natCast]
    exact nearestDouble_of_covers hdouble hm (Nat.pow_pos (by decide)) h negative

end Doubles

end CoinToss.Decimal
