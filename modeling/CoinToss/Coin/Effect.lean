import CoinToss.Schema.Named

/-!
# CoinToss.Coin.Effect

What a coin does to a flip when it is on a face.

`Effect` is generic in the numbers its strengths are given by: doubles in play, rationals where
laws of the odds are stated exactly.
-/

namespace CoinToss

open Schema

/-- The name of an effect's kind. -/
inductive EffectKind where
  | none
  | autoClick
  | weighted
  | shaved
  | combo
  | luck
  | alwaysHeads
  | alwaysTails
  deriving DecidableEq, Repr

instance : Named EffectKind where
  all := [.none, .autoClick, .weighted, .shaved, .combo, .luck, .alwaysHeads, .alwaysTails]
  name
    | .none => "None"
    | .autoClick => "AutoClick"
    | .weighted => "Weighted"
    | .shaved => "Shaved"
    | .combo => "Combo"
    | .luck => "Luck"
    | .alwaysHeads => "AlwaysHeads"
    | .alwaysTails => "AlwaysTails"
  find_name a := by cases a <;> decide

/-- Whether a modifier is added or multiplied. -/
inductive Mode where
  | additive
  | multiplicative
  deriving DecidableEq, Repr

instance : Named Mode where
  all := [.additive, .multiplicative]
  name
    | .additive => "Additive"
    | .multiplicative => "Multiplicative"
  find_name a := by cases a <;> decide

/-- A combo: it boosts the effect of the opposite face. -/
structure Combo (α : Type) where
  mode : Mode
  multiplier : α
  deriving DecidableEq

/-- What a coin does on a face. -/
inductive Effect (α : Type) where
  | none
  /-- Flips again by itself, every so many milliseconds. -/
  | autoClick (interval : Int)
  /-- The heavy side lands down. -/
  | weighted (bias : α)
  /-- The shaved side lands up. -/
  | shaved (bias : α)
  | combo (combo : Combo α)
  /-- Changes the chance of random unlocks. -/
  | luck (mode : Mode) (modifier : α)
  | alwaysHeads
  | alwaysTails
  deriving DecidableEq

/-- The kind of an effect. -/
def Effect.kind {α : Type} : Effect α → EffectKind
  | .none => .none
  | .autoClick _ => .autoClick
  | .weighted _ => .weighted
  | .shaved _ => .shaved
  | .combo _ => .combo
  | .luck _ _ => .luck
  | .alwaysHeads => .alwaysHeads
  | .alwaysTails => .alwaysTails

/-- Only a coin without an effect has the kind `none`. -/
@[simp] theorem Effect.kind_eq_none_iff {α : Type} (e : Effect α) : e.kind = .none ↔ e = .none := by
  cases e <;> simp [Effect.kind]

/-- An effect as it is written in a catalog. -/
structure CoinEffect where
  description : String
  effect : Effect Float

end CoinToss
