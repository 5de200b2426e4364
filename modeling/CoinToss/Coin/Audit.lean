import CoinToss.Coin.Basic

/-!
# CoinToss.Coin.Audit

Authoring mistakes of a coin.

The audit looks at the coin's own goal, then at its prerequisites, then at the coins it refers
to.  A coin with mistakes stays in the catalog; the list only tells its author.
-/

namespace CoinToss

open Schema

/-- A mistake in a coin's condition. -/
inductive Mistake where
  /-- A count of flips or a streak that is reached before the first flip. -/
  | countOfKind (kind : GoalKind)
  | count
  | noCoin
  | noCoins
  | chanceRange
  | noActiveCoin
  | runLength
  | noRunCoins
  | noRunConditionKind
  | noRunEffectKind
  | negativePrerequisites
  | pairOfCoins
  | choiceOfCoins
  /-- A mistake in the prerequisite of a number, counted from one. -/
  | prerequisiteNoCoin (index : Nat)
  | prerequisiteSelf (index : Nat)
  | prerequisiteCount (index : Nat)
  | prerequisiteNested (index : Nat)
  | unknownCoin (path : String)
  deriving DecidableEq, Repr

/-- What the author is told. -/
def Mistake.text : Mistake → String
  | .countOfKind kind => s!"Required count must be greater than 0 for {Named.name kind}."
  | .count => "Required count must be greater than 0."
  | .noCoin => "Required coin path must be set for LandOnCoin type."
  | .noCoins => "At least one required coin must be specified, or enable UseDynamicCoinList."
  | .chanceRange => "Unlock chance must be between 0 and 1 (0% to 100%)."
  | .noActiveCoin => "Active coin path must be set when RequiresActiveCoin is true."
  | .runLength => "Consecutive count must be greater than 0."
  | .noRunCoins => "At least one coin must be specified for SpecificCoins filter."
  | .noRunConditionKind => "Unlock condition type must be selected for UnlockConditionType filter."
  | .noRunEffectKind => "Effect type must be selected for EffectType filter."
  | .negativePrerequisites => "Prerequisite count cannot be negative."
  | .pairOfCoins =>
    "HeadsAndTails side requirement requires exactly 2 coins in RequiredCoinPaths."
  | .choiceOfCoins =>
    "AnyFromList side requirement requires at least 2 coins in RequiredCoinPaths."
  | .prerequisiteNoCoin i =>
    s!"Prerequisite {i}: Required coin path must be set for LandOnCoin type."
  | .prerequisiteSelf i => s!"Prerequisite {i}: Coin cannot require itself to unlock."
  | .prerequisiteCount i => s!"Prerequisite {i}: Required count must be greater than 0."
  | .prerequisiteNested i => s!"Prerequisite {i}: Nested prerequisites are ignored."
  | .unknownCoin path => s!"References unknown coin: {path}"

/-- A mistake if a test says so. -/
def mistakeIf (test : Bool) (m : Mistake) : List Mistake := if test then [m] else []

/-- A path that names no coin: none, or the empty one. -/
def isUnset (path : Option String) : Bool := path.getD "" = ""

/-- Mistakes in what a run counts. -/
def RunRule.filterMistakes (r : RunRule) : List Mistake :=
  match r.filter with
  | .specificCoins => mistakeIf r.coins.isEmpty .noRunCoins
  | .conditionKind => mistakeIf r.conditionKind.isNone .noRunConditionKind
  | .effectKind => mistakeIf r.effectKind.isNone .noRunEffectKind
  | .prerequisitesEqual | .prerequisitesAbove | .prerequisitesBelow =>
    mistakeIf (decide (r.prerequisiteCount < 0)) .negativePrerequisites
  | .anyEffect | .anyCondition => []

/-- Mistakes in a run. -/
def RunRule.mistakes (r : RunRule) : List Mistake :=
  mistakeIf (decide (r.length ≤ 0)) .runLength ++ r.filterMistakes ++
    mistakeIf (r.side == .headsAndTails && r.coins.length != 2) .pairOfCoins ++
    mistakeIf (r.side == .anyFromList && decide (r.coins.length < 2)) .choiceOfCoins

/-- Mistakes in a coin's own goal. -/
def Goal.mistakes (goal : Goal) : List Mistake :=
  match goal with
  | .none => []
  | .totalFlips n | .headsFlips n | .tailsFlips n | .streak _ n =>
    mistakeIf (decide (n ≤ 0)) (.countOfKind goal.kind)
  | .landOnCoin coin n => mistakeIf (isUnset coin) .noCoin ++ mistakeIf (decide (n ≤ 0)) .count
  | .chance r =>
    mistakeIf (!(decide (0 < r.chance) && decide (r.chance ≤ 1))) .chanceRange ++
      mistakeIf (r.needsActive && isUnset r.active) .noActiveCoin
  | .landOnCoins l =>
    mistakeIf (decide (l.count ≤ 0)) .count ++ mistakeIf (!l.dynamic && l.coins.isEmpty) .noCoins
  | .run r => r.mistakes

/-- The count of a goal that counts flips, a streak or landings on one coin. -/
def Goal.count? : Goal → Option Int
  | .totalFlips n | .headsFlips n | .tailsFlips n | .streak _ n | .landOnCoin _ n => some n
  | _ => .none

/-- Mistakes in the `i`-th prerequisite of the coin at a path. -/
def Condition.mistakesAsPrerequisite (path : String) (i : Nat) (c : Condition) : List Mistake :=
  (match c.goal with
    | .landOnCoin coin _ =>
      if isUnset coin then [.prerequisiteNoCoin i]
      else mistakeIf (coin == some path) (.prerequisiteSelf i)
    | _ => []) ++
    mistakeIf (c.goal.count?.any fun n => decide (n ≤ 0)) (.prerequisiteCount i) ++
    mistakeIf (!c.prerequisites.isEmpty) (.prerequisiteNested i)

/-- The coins a goal refers to. -/
def Goal.references : Goal → List String
  | .landOnCoin coin _ => if isUnset coin then [] else coin.toList
  | .landOnCoins l => l.coins
  | .chance r => if isUnset r.active then [] else r.active.toList
  | _ => []

/-- Mistakes in a coin.  References are looked up only where the known coins are given. -/
def Coin.mistakes (coin : Coin) (known : Option (List String)) : List Mistake :=
  match coin.unlock with
  | none => []
  | some c =>
    c.goal.mistakes ++
      (c.prerequisites.zipIdx 1).flatMap (fun (p, i) => p.mistakesAsPrerequisite coin.path i) ++
      match known with
      | none => []
      | some paths =>
        ((c.goal :: c.required).flatMap Goal.references).filterMap fun path =>
          if paths.contains path then none else some (.unknownCoin path)

end CoinToss
