import CoinToss.Coin.Condition
import CoinToss.Decimal.Quantity
import CoinToss.Text.Blank

/-!
# CoinToss.Flip.Odds

The odds of a flip from the effects of its two faces.

An `Always…` effect decides the flip unless the faces pull in both directions.  Otherwise heads
starts at one half, is shifted by the bias of each face and by the momentum of a lone combo, and
is kept between one tenth and nine tenths.

* `Faces.enhanced` — a combo boosts the effect of the opposite face, two combos cancel out;
* `Faces.headsOdds` — the probability of heads;
* `Faces.resolve` — what a draw decides.
-/

namespace CoinToss

open Decimal

variable {α : Type} [Quantity α]

/-! ## numbers of the game -/

/-- The probability of heads before any effect. -/
def fairOdds : α := Quantity.ofRatio 1 2

/-- The least probability of heads. -/
def leastOdds : α := Quantity.ofRatio 1 10

/-- The greatest probability of heads. -/
def greatestOdds : α := Quantity.ofRatio 9 10

/-- The shortest pause between automatic flips, in milliseconds. -/
def shortestInterval : Int := 100

/-- Milliseconds that an additive combo of one takes off the pause. -/
def intervalStep : α := Quantity.ofRatio 2000 1

/-! ## faces -/

/-- The effects of the coins on the two faces. -/
structure Faces (α : Type) where
  heads : Effect α
  tails : Effect α

/-- The faces exchanged. -/
def Faces.swap (f : Faces α) : Faces α := ⟨f.tails, f.heads⟩

/-- Whether one of the faces has an effect. -/
def Faces.has (f : Faces α) (kind : EffectKind) : Bool :=
  f.heads.kind == kind || f.tails.kind == kind

/-- The combo, if the effect is one. -/
def Effect.combo? : Effect α → Option (Combo α)
  | .combo c => some c
  | _ => .none

/-- Whether a combo can boost the effect. -/
def Effect.isEnhanceable : Effect α → Bool
  | .weighted _ | .shaved _ | .autoClick _ => true
  | _ => false

/-- The combo and the effect opposite to it, when exactly one face is a combo. -/
def Faces.loneCombo? (f : Faces α) : Option (Combo α × Effect α) :=
  match f.heads.combo?, f.tails.combo? with
  | some c, none => some (c, f.tails)
  | none, some c => some (c, f.heads)
  | _, _ => none

/-! ## enhancement -/

/-- A bias boosted by a combo. -/
def Combo.boost (c : Combo α) (bias : α) : α :=
  match c.mode with
  | .additive => bias + c.multiplier
  | .multiplicative => bias * c.multiplier

/-- A pause shortened by a combo, before the floor. -/
def Combo.quicken (c : Combo α) (interval : Int) : Except NumberFault Int :=
  match c.mode with
  | .additive => do pure (interval - (← Quantity.round (c.multiplier * intervalStep)))
  | .multiplicative =>
    if Quantity.lt (Quantity.ofRatio 0 1) c.multiplier then do
      Quantity.truncate ((← Quantity.ofInt interval) / c.multiplier)
    else pure interval

/-- An effect boosted by a combo. -/
def Effect.enhance (c : Combo α) : Effect α → Except NumberFault (Effect α)
  | .weighted bias => pure (.weighted (c.boost bias))
  | .shaved bias => pure (.shaved (c.boost bias))
  | .autoClick interval => do pure (.autoClick (max shortestInterval (← c.quicken interval)))
  | e => pure e

/-- The effects with each combo applied to the opposite face; two combos cancel out. -/
def Faces.enhanced (f : Faces α) : Except NumberFault (Faces α) :=
  match f.heads.combo?, f.tails.combo? with
  | some c, none => do pure ⟨f.heads, ← f.tails.enhance c⟩
  | none, some c => do pure ⟨← f.heads.enhance c, f.tails⟩
  | _, _ => pure f

/-! ## the probability of heads -/

/-- What the effect of one face adds to the probability of heads. -/
def Effect.bias (side : Side) : Effect α → α
  | .weighted b =>
    match side with
    | .heads => -b
    | .tails => b
  | .shaved b =>
    match side with
    | .heads => b
    | .tails => -b
  | _ => Quantity.ofRatio 0 1

/-- How strongly a combo pushes. -/
def Combo.momentum (c : Combo α) : α :=
  match c.mode with
  | .additive => c.multiplier
  | .multiplicative => Quantity.ofRatio 1 2 * (c.multiplier + Quantity.ofRatio (-1) 1)

/-- The push towards the last result: only of a lone combo opposite to a face without an
effect. -/
def Faces.momentum (f : Faces α) (last : Option Side) : α :=
  match f.loneCombo?, last with
  | some (c, .none), some .heads => c.momentum
  | some (c, .none), some .tails => -c.momentum
  | _, _ => Quantity.ofRatio 0 1

/-- The probability of heads of a flip that no effect forces. -/
def Faces.headsOdds (f : Faces α) (last : Option Side) : Except NumberFault α := do
  let e ← f.enhanced
  pure <| clamp leastOdds greatestOdds fairOdds
    (fairOdds + e.heads.bias .heads + e.tails.bias .tails + f.momentum last)

/-! ## results -/

/-- The side that the faces force; pulling in both directions forces none. -/
def Faces.forced? (f : Faces α) : Option Side :=
  match f.has .alwaysHeads, f.has .alwaysTails with
  | true, false => some .heads
  | false, true => some .tails
  | _, _ => none

/-- A decided flip. -/
structure Resolution (α : Type) where
  side : Side
  odds : α
  forced : Bool

/-- The side a draw stands for at given odds of heads. -/
def drawnSide (draw odds : α) : Side := if Quantity.lt draw odds then .heads else .tails

/-- Decides a flip by a draw. -/
def Faces.resolve (f : Faces α) (last : Option Side) (draw : α) :
    Except NumberFault (Resolution α) :=
  match f.forced? with
  | some .heads => pure ⟨.heads, Quantity.ofRatio 1 1, true⟩
  | some .tails => pure ⟨.tails, Quantity.ofRatio 0 1, true⟩
  | none => do
    let odds ← f.headsOdds last
    pure ⟨drawnSide draw odds, odds, false⟩

/-- The side a word names, in any case and with blanks around it. -/
def Side.ofWord? (s : String) : Option Side :=
  let word := String.ofList ((Text.trim Text.isBlank s.toList).map Char.toLower)
  if word = "heads" then some .heads else if word = "tails" then some .tails else none

/-! ## streak, luck and pace -/

/-- The streak after the bonus of a lone combo; none opposite to an effect it enhances. -/
def Faces.comboStreak (f : Faces α) (streak : Int) : Except NumberFault Int :=
  match f.loneCombo? with
  | none => pure streak
  | some (c, opposite) =>
    if opposite.isEnhanceable then pure streak
    else
      match c.mode with
      | .additive =>
        let bonus := c.multiplier * Quantity.ofRatio 100 1
        if Quantity.isNaN bonus then pure streak
        else do pure (streak + (← Quantity.round bonus))
      | .multiplicative => do
        let boosted := (← Quantity.ofInt streak) * c.multiplier
        if Quantity.isNaN boosted || Quantity.isInfinite boosted then pure streak
        else pure (max 0 (← Quantity.round boosted))

/-- A chance multiplier after the luck of one face. -/
def Effect.applyLuck (multiplier : α) : Effect α → α
  | .luck .additive modifier => multiplier + modifier
  | .luck .multiplicative modifier => multiplier * modifier
  | _ => multiplier

/-- The multiplier of unlock chances after the luck of both faces. -/
def Faces.luck (f : Faces α) (base : α) : α :=
  let multiplier := f.tails.applyLuck (f.heads.applyLuck base)
  if Quantity.isNaN multiplier then base else greatest (Quantity.ofRatio 0 1) multiplier

/-- The pause of an effect that flips by itself. -/
def Effect.interval? : Effect α → Option Int
  | .autoClick interval => some interval
  | _ => .none

/-- The shortest pause of the two faces, enhanced, if one flips by itself. -/
def Faces.autoClickInterval (f : Faces α) : Except NumberFault (Option Int) := do
  let e ← f.enhanced
  pure <|
    match e.heads.interval?, e.tails.interval? with
    | some a, some b => some (max shortestInterval (min a b))
    | some a, none => some (max shortestInterval a)
    | none, some b => some (max shortestInterval b)
    | none, none => none

end CoinToss
