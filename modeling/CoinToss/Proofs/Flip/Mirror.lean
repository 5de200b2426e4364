import CoinToss.Proofs.Decimal.Exact
import CoinToss.Proofs.Flip.Precedence
import Mathlib.Algebra.Order.Group.MinMax
import Mathlib.Tactic.Linarith

/-!
# CoinToss.Proofs.Flip.Mirror

Heads and tails are mirror images.

Read over the rationals, the odds of heads are the odds of tails once the faces are exchanged and the
last result is turned over:

```
heads face h, tails face t, after heads      heads at p
heads face t, tails face h, after tails      heads at 1 - p
```

Every part of the odds changes its sign in the mirror, and the bounds are exchanged.

* `Faces.enhanced_swap` — a combo boosts the opposite face, whichever it is on;
* `Effect.bias_opposite`, `Faces.momentum_swap` — biases and momentum change their sign;
* `clamp_mirror` — the bounds are as far from one as from zero;
* `headsOdds_mirror` — together.
-/

namespace CoinToss

open Decimal

/-! ## faces exchanged -/

namespace Faces

theorem enhanced_swap {α : Type} [Quantity α] (f : Faces α) :
    f.swap.enhanced = f.enhanced.map swap := by
  unfold enhanced swap
  dsimp only
  rcases f.heads.combo? with - | c <;> rcases f.tails.combo? with - | d
  · rfl
  · dsimp only
    cases f.heads.enhance d <;> rfl
  · dsimp only
    cases f.tails.enhance c <;> rfl
  · rfl

theorem loneCombo?_swap {α : Type} (f : Faces α) : f.swap.loneCombo? = f.loneCombo? := by
  unfold loneCombo? swap
  cases f.heads.combo? <;> cases f.tails.combo? <;> rfl

end Faces

/-! ## parts of the odds -/

/-- Over the rationals every pause can be told. -/
theorem Effect.exists_enhance (c : Combo Rat) (e : Effect Rat) : ∃ d, e.enhance c = .ok d := by
  cases e with
  | autoClick interval =>
      obtain ⟨mode, multiplier⟩ := c
      cases mode with
      | additive => exact ⟨_, rfl⟩
      | multiplicative =>
          unfold enhance Combo.quicken
          dsimp only
          split <;> exact ⟨_, rfl⟩
  | _ => exact ⟨_, rfl⟩

theorem Faces.exists_enhanced (f : Faces Rat) : ∃ g, f.enhanced = .ok g := by
  unfold enhanced
  split
  · next c _ _ =>
      obtain ⟨e, he⟩ := Effect.exists_enhance c f.tails
      rw [he]
      exact ⟨_, rfl⟩
  · next c _ _ =>
      obtain ⟨e, he⟩ := Effect.exists_enhance c f.heads
      rw [he]
      exact ⟨_, rfl⟩
  · exact ⟨_, rfl⟩

/-- On the other side a bias pushes the other way. -/
theorem Effect.bias_opposite (e : Effect Rat) (side : Side) :
    e.bias side.opposite = -e.bias side := by
  cases e with
  | weighted b => cases side <;> simp [bias, Side.opposite]
  | shaved b => cases side <;> simp [bias, Side.opposite]
  | _ => simp [bias, ofRatio_zero_exact]

/-- After the other result a combo pushes the other way, whichever face it is on. -/
theorem Faces.momentum_swap (f : Faces Rat) (last : Option Side) :
    f.swap.momentum (last.map Side.opposite) = -f.momentum last := by
  unfold momentum
  rw [loneCombo?_swap]
  rcases f.loneCombo? with - | ⟨c, e⟩
  · simp [ofRatio_zero_exact]
  · cases e with
    | none =>
        rcases last with - | side
        · simp [ofRatio_zero_exact]
        · cases side <;> simp [Side.opposite]
    | _ => simp [ofRatio_zero_exact]

/-! ## bounds -/

/-- Two probabilities that make one still do between the bounds. -/
theorem clamp_mirror {x y : Rat} (h : x + y = 1) :
    clamp leastOdds greatestOdds fairOdds x + clamp leastOdds greatestOdds fairOdds y = 1 := by
  have hleast : (leastOdds : Rat) = 1 / 10 := rfl
  have hgreatest : (greatestOdds : Rat) = 9 / 10 := rfl
  obtain rfl : y = 1 - x := by linarith
  have hmirror : min (9 / 10) (max (1 / 10) (1 - x)) = 1 - min (9 / 10) (max (1 / 10) x) := by
    calc min (9 / 10) (max (1 / 10) (1 - x))
        = min (1 - 1 / 10) (max (1 - 9 / 10) (1 - x)) := by norm_num
      _ = 1 - max (1 / 10) (min (9 / 10) x) := by rw [max_sub_sub_left, min_sub_sub_left]
      _ = 1 - min (9 / 10) (max (1 / 10) x) := by
          rw [max_min_distrib_left]
          norm_num
  rw [clamp_eq, clamp_eq, hleast, hgreatest, hmirror]
  linarith

/-! ## results turned over -/

/-- A result turned over: heads and tails exchanged, and anything else left as it is. -/
def Side.mirrorWord (s : String) : String :=
  match ofWord? s with
  | some side => side.opposite.word
  | none => s

theorem Side.ofWord?_word (side : Side) : ofWord? side.word = some side := by
  cases side <;> decide +kernel

theorem Side.ofWord?_mirrorWord (s : String) : ofWord? (mirrorWord s) = (ofWord? s).map opposite := by
  unfold mirrorWord
  cases h : ofWord? s with
  | none => exact h
  | some side => exact ofWord?_word side.opposite

theorem bind_mirrorWord (last : Option String) :
    (last.map Side.mirrorWord).bind Side.ofWord? =
      (last.bind Side.ofWord?).map Side.opposite := by
  cases last with
  | none => rfl
  | some s =>
      rw [Option.map_some, Option.bind_some, Option.bind_some]
      exact Side.ofWord?_mirrorWord s

/-- The odds of heads, and those with the faces exchanged and the last result turned over, make
one. -/
theorem Faces.headsOdds_mirror (f : Faces Rat) (last : Option String) :
    ∃ p q, f.headsOdds (last.bind Side.ofWord?) = .ok p ∧
      f.swap.headsOdds ((last.map Side.mirrorWord).bind Side.ofWord?) = .ok q ∧ p + q = 1 := by
  obtain ⟨g, hg⟩ := f.exists_enhanced
  have hswap : f.swap.enhanced = .ok g.swap := by
    rw [enhanced_swap, hg]
    rfl
  refine ⟨_, _, headsOdds_eq_ok.2 ⟨g, hg, rfl⟩, headsOdds_eq_ok.2 ⟨g.swap, hswap, rfl⟩,
    clamp_mirror ?_⟩
  have hfair : (fairOdds : Rat) = 1 / 2 := rfl
  have hheads : g.swap.tails.bias .tails = -g.heads.bias .heads := g.heads.bias_opposite .heads
  have htails : g.swap.heads.bias .heads = -g.tails.bias .tails := g.tails.bias_opposite .tails
  rw [bind_mirrorWord, momentum_swap, hheads, htails, hfair]
  linarith

end CoinToss
