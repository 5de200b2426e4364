import CoinToss.Proofs.Decimal.Nearest

/-!
# CoinToss.Proofs.Decimal.Shortest

The shortest decimal of a double is found, and any decimal of its value is read as the double.

A grid finer than half a place of a double has a point in the double's interval, the one just above
it.  The search starts above the leading digit and comes to such a grid before it ends, so what it
gives lies in the interval, and the nearest double to that is the double itself:

```
x  --datum-->  m · 2 ^ e  --shortest-->  d · 10 ^ p in the interval  --nearestDecimal-->  x
```

* `mem_gridPoints` — the points of a grid that are tried, over the rationals;
* `gridPoints_ne_nil`, `searchGrids_mem` — a fine grid has one, and the search ends there at last;
* `shortest_covers` — the shortest decimal lies in the interval;
* `nearestDecimal_of_shortest` — so it is read back, however its digits are written.
-/

namespace CoinToss.Decimal

variable {m d : Nat} {e p : Int}

/-! ## grids -/

theorem scaleBy_ratio (base : Nat) (hbase : 0 < base) (e : Int) {r : Nat × Nat} (hr : 0 < r.2) :
    0 < (scaleBy base e r).2 ∧
      ((scaleBy base e r).1 / (scaleBy base e r).2 : ℚ) = r.1 / r.2 * base ^ e := by
  unfold scaleBy
  split
  · next he =>
    obtain ⟨i, rfl⟩ := Int.eq_ofNat_of_zero_le he
    refine ⟨hr, ?_⟩
    simp [mul_div_right_comm]
  · next he =>
    obtain ⟨i, hi⟩ := Int.eq_ofNat_of_zero_le (show 0 ≤ -e by omega)
    refine ⟨Nat.mul_pos hr (Nat.pow_pos hbase), ?_⟩
    rw [← neg_neg e, hi, zpow_neg, zpow_natCast, ← div_eq_mul_inv, div_div]
    simp

/-- The points of a grid on both sides of a double, as far as they round to it. -/
theorem mem_gridPoints :
    d ∈ gridPoints m e p ↔
      (d = ⌊(m * 2 ^ e * 10 ^ (-p) : ℚ)⌋₊ ∨ d = ⌊(m * 2 ^ e * 10 ^ (-p) : ℚ)⌋₊ + 1) ∧
        0 < d ∧ (Interval.ofSignificand m e).Covers (4 * (d * 10 ^ p * 2 ^ (-e))) := by
  obtain ⟨htwo, hdouble⟩ := scaleBy_ratio 2 (by decide) e (r := (m, 1)) Nat.one_pos
  obtain ⟨-, hvalue⟩ := scaleBy_ratio 10 (by decide) (-p) htwo
  obtain ⟨hten, hdecimal⟩ := scaleBy_ratio 10 (by decide) p (r := (d, 1)) Nat.one_pos
  obtain ⟨hscaled, hquarters⟩ := scaleBy_ratio 2 (by decide) (2 - e) hten
  have hbelow : (scaleBy 10 (-p) (scaleBy 2 e (m, 1))).1 /
      (scaleBy 10 (-p) (scaleBy 2 e (m, 1))).2 = ⌊(m * 2 ^ e * 10 ^ (-p) : ℚ)⌋₊ := by
    rw [← Nat.floor_div_eq_div (K := ℚ), hvalue, hdouble]
    simp
  have hpoint : (Interval.ofSignificand m e).contains (scaleBy 2 (2 - e) (scaleBy 10 p (d, 1))).1
      (scaleBy 2 (2 - e) (scaleBy 10 p (d, 1))).2 = true ↔
        (Interval.ofSignificand m e).Covers (4 * (d * 10 ^ p * 2 ^ (-e))) := by
    have hfour : (d / (1 : Nat) * (10 : Nat) ^ p * (2 : Nat) ^ (2 - e) : ℚ) =
        4 * (d * 10 ^ p * 2 ^ (-e)) := by
      rw [sub_eq_add_neg, Nat.cast_two, zpow_add₀ two_ne_zero]
      norm_num
      ring
    rw [Interval.contains_iff _ _ hscaled, hquarters, hdecimal, hfour]
  unfold gridPoints
  dsimp only
  rw [hbelow, List.mem_filter, Bool.and_eq_true, decide_eq_true_iff, hpoint]
  split <;> simp [or_comm]

/-- On a grid finer than half a place, the point just above a double rounds to it. -/
theorem gridPoints_ne_nil (hm : 0 < m) (h : (10 : ℚ) ^ p < 2 ^ (e - 1)) :
    gridPoints m e p ≠ [] := by
  generalize hfloor : ⌊(m * 2 ^ e * 10 ^ (-p) : ℚ)⌋₊ = below
  have hback : (m * 2 ^ e * 10 ^ (-p) * (10 ^ p * 2 ^ (-e)) : ℚ) = m := by
    rw [zpow_neg, zpow_neg]
    field_simp
  have habove : (m : ℚ) < (below + 1 : Nat) * 10 ^ p * 2 ^ (-e) := by
    have hlt : (m * 2 ^ e * 10 ^ (-p) : ℚ) < below + 1 := by
      rw [← hfloor]
      exact Nat.lt_floor_add_one _
    rw [mul_assoc]
    calc (m : ℚ) = m * 2 ^ e * 10 ^ (-p) * (10 ^ p * 2 ^ (-e)) := hback.symm
      _ < (below + 1 : Nat) * (10 ^ p * 2 ^ (-e)) := by
        push_cast
        gcongr
  have hnear : ((below + 1 : Nat) * 10 ^ p * 2 ^ (-e) : ℚ) < m + 1 / 2 := by
    have hle : (below : ℚ) ≤ m * 2 ^ e * 10 ^ (-p) := by
      rw [← hfloor]
      exact Nat.floor_le (by positivity)
    calc ((below + 1 : Nat) * 10 ^ p * 2 ^ (-e) : ℚ)
        = below * (10 ^ p * 2 ^ (-e)) + 10 ^ p * 2 ^ (-e) := by
          push_cast
          ring
      _ < m * 2 ^ e * 10 ^ (-p) * (10 ^ p * 2 ^ (-e)) + 2 ^ (e - 1) * 2 ^ (-e) :=
          add_lt_add_of_le_of_lt (by gcongr) (by gcongr)
      _ = m + 1 / 2 := by
        have hhalf : e - 1 + -e = -1 := by omega
        rw [hback, ← zpow_add₀ two_ne_zero, hhalf, zpow_neg_one, inv_eq_one_div]
  apply List.ne_nil_of_mem (a := below + 1)
  rw [mem_gridPoints, hfloor]
  refine ⟨.inr rfl, Nat.succ_pos below, Interval.covers_of_lt ?_ ?_⟩
  · have hlow := (Interval.low_ofSignificand (e := e) hm).2
    linarith
  · rw [Interval.high_ofSignificand]
    linarith

/-! ## the search -/

/-- What the search gives is a point of a grid, if the last grid that it comes to has one. -/
theorem searchGrids_mem {fuel : Nat} (h : gridPoints m e (p - fuel) ≠ []) :
    (searchGrids m e (fuel + 1) p).1 ∈ gridPoints m e (searchGrids m e (fuel + 1) p).2 := by
  induction fuel generalizing p with
  | zero =>
      rw [Int.natCast_zero, Int.sub_zero] at h
      cases hpoints : gridPoints m e p with
      | nil => contradiction
      | cons d ds => simp [searchGrids, hpoints]
  | succ fuel ih =>
      cases hpoints : gridPoints m e p with
      | nil =>
          rw [searchGrids, hpoints]
          exact ih (by rwa [Int.sub_sub, Int.add_comm 1, ← Int.natCast_succ])
      | cons d ds => simp [searchGrids, hpoints]

/-- The shortest decimal of a double is found, and it rounds to the double. -/
theorem shortest_covers (hdouble : IsDouble m e) (hm : 0 < m) :
    0 < (shortest m e).1 ∧ (Interval.ofSignificand m e).Covers
      (4 * ((shortest m e).1 * 10 ^ (shortest m e).2 * 2 ^ (-e))) := by
  have hlog : m.log2 < 53 := (Nat.log2_lt (Nat.ne_of_gt hm)).2 hdouble.lt
  have hleast := hdouble.least
  have hgreatest := hdouble.greatest
  unfold shortest
  dsimp only
  -- twenty-three grids after the first one are finer than half a place by far
  refine (mem_gridPoints.1 (searchGrids_mem (gridPoints_ne_nil hm (ten_zpow_lt ?_ ?_)))).2
  · split <;> omega
  · split <;> omega

/-- A double is the nearest one to its shortest decimal, whatever its digits and exponent. -/
theorem nearestDecimal_of_shortest {x : Float} {negative : Bool}
    (h : datum x = .finite negative m e) (hm : 0 < m)
    (hvalue : (d * 10 ^ p : ℚ) = (shortest m e).1 * 10 ^ (shortest m e).2) :
    nearestDecimal negative d p = x := by
  have hdouble := isDouble_datum h
  have hcovers := (shortest_covers hdouble hm).2
  rw [← hvalue] at hcovers
  rw [nearestDecimal_of_covers hdouble hm hcovers, ← eq_ofFields h]

end CoinToss.Decimal
