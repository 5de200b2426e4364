import CoinToss.Decimal.Quantity
import Mathlib.Algebra.Order.Field.Rat
import Mathlib.Tactic.NormNum

/-!
# CoinToss.Proofs.Decimal.Exact

The numbers of the game read over the rationals.

There every ratio is the number it is written as, the order is the usual one, and the smaller and
the larger of two numbers are those of the order.

* `ofRatio_eq`, `lt_iff_exact`, `le_iff_exact` — ratios and order;
* `least_eq_min`, `greatest_eq_max`, `clamp_eq` — numbers between bounds.
-/

namespace CoinToss.Decimal

theorem ofRatio_eq (n : Int) (d : Nat) : (Quantity.ofRatio n d : Rat) = n / (d : Int) := rfl

theorem ofRatio_zero_exact : (Quantity.ofRatio 0 1 : Rat) = 0 := by
  rw [ofRatio_eq]
  norm_num

theorem lt_iff_exact {x y : Rat} : Quantity.lt x y = true ↔ x < y := decide_eq_true_iff

theorem le_iff_exact {x y : Rat} : Quantity.le x y = true ↔ x ≤ y := decide_eq_true_iff

theorem least_eq_min (x y : Rat) : least x y = min x y := by
  rw [least]
  by_cases h : y < x
  · rw [if_pos (lt_iff_exact.2 h), min_eq_right (le_of_lt h)]
  · rw [if_neg (mt lt_iff_exact.1 h), min_eq_left (not_lt.1 h)]

theorem greatest_eq_max (x y : Rat) : greatest x y = max x y := by
  rw [greatest]
  by_cases h : x < y
  · rw [if_pos (lt_iff_exact.2 h), max_eq_right (le_of_lt h)]
  · rw [if_neg (mt lt_iff_exact.1 h), max_eq_left (not_lt.1 h)]

/-- No rational needs the fallback. -/
theorem clamp_eq (low high fallback x : Rat) :
    clamp low high fallback x = min high (max low x) := by
  rw [← greatest_eq_max, ← least_eq_min]
  rfl

end CoinToss.Decimal
