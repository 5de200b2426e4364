import CoinToss.Coin.Effect

/-!
# CoinToss.Coin.Condition

What unlocks a coin.

A condition is a *goal* with *prerequisites*.  Prerequisites are conditions themselves, but only
their goals count: what a prerequisite requires in turn is never consulted.
-/

namespace CoinToss

open Schema

/-- The two sides of a coin. -/
inductive Side where
  | heads
  | tails
  deriving DecidableEq, Repr

namespace Side

/-- The name of a result. -/
def word : Side → String
  | .heads => "heads"
  | .tails => "tails"

/-- The other side. -/
def opposite : Side → Side
  | .heads => .tails
  | .tails => .heads

@[simp] theorem opposite_opposite (s : Side) : s.opposite.opposite = s := by cases s <;> rfl

end Side

instance : Named Side where
  all := [.heads, .tails]
  name
    | .heads => "Heads"
    | .tails => "Tails"
  find_name a := by cases a <;> decide

/-- How rare a coin is. -/
inductive Rarity where
  | common
  | uncommon
  | rare
  | legendary
  deriving DecidableEq, Repr

instance : Named Rarity where
  all := [.common, .uncommon, .rare, .legendary]
  name
    | .common => "Common"
    | .uncommon => "Uncommon"
    | .rare => "Rare"
    | .legendary => "Legendary"
  find_name a := by cases a <;> decide

/-- The name of a goal's kind. -/
inductive GoalKind where
  | none
  | totalFlips
  | headsFlips
  | tailsFlips
  | streak
  | landOnCoin
  | randomChance
  | landOnMultipleCoins
  | characteristics
  deriving DecidableEq, Repr

instance : Named GoalKind where
  all := [.none, .totalFlips, .headsFlips, .tailsFlips, .streak, .landOnCoin, .randomChance,
    .landOnMultipleCoins, .characteristics]
  name
    | .none => "None"
    | .totalFlips => "TotalFlips"
    | .headsFlips => "HeadsFlips"
    | .tailsFlips => "TailsFlips"
    | .streak => "Streak"
    | .landOnCoin => "LandOnCoin"
    | .randomChance => "RandomChance"
    | .landOnMultipleCoins => "LandOnMultipleCoins"
    | .characteristics => "LandOnCoinsWithCharacteristics"
  find_name a := by cases a <;> decide

/-- By what a run picks the coins that count. -/
inductive FilterKind where
  | specificCoins
  | conditionKind
  | effectKind
  | anyEffect
  | anyCondition
  | prerequisitesEqual
  | prerequisitesAbove
  | prerequisitesBelow
  deriving DecidableEq, Repr

instance : Named FilterKind where
  all := [.specificCoins, .conditionKind, .effectKind, .anyEffect, .anyCondition,
    .prerequisitesEqual, .prerequisitesAbove, .prerequisitesBelow]
  name
    | .specificCoins => "SpecificCoins"
    | .conditionKind => "UnlockConditionType"
    | .effectKind => "EffectType"
    | .anyEffect => "HasAnyEffect"
    | .anyCondition => "HasAnyUnlockCondition"
    | .prerequisitesEqual => "PrerequisiteCountEquals"
    | .prerequisitesAbove => "PrerequisiteCountGreaterThan"
    | .prerequisitesBelow => "PrerequisiteCountLessThan"
  find_name a := by cases a <;> decide

/-- On which faces a run wants its coins. -/
inductive SideRequirement where
  | either
  | both
  | headsOnly
  | tailsOnly
  | headsAndTails
  | anyFromList
  deriving DecidableEq, Repr

instance : Named SideRequirement where
  all := [.either, .both, .headsOnly, .tailsOnly, .headsAndTails, .anyFromList]
  name
    | .either => "Either"
    | .both => "Both"
    | .headsOnly => "HeadsOnly"
    | .tailsOnly => "TailsOnly"
    | .headsAndTails => "HeadsAndTails"
    | .anyFromList => "AnyFromList"
  find_name a := by cases a <;> decide

/-- Landing on every coin of a list. -/
structure CoinList where
  coins : List String
  count : Int
  /-- The list stands for every other coin of the catalog that can be unlocked. -/
  dynamic : Bool

/-- A chance roll after a flip. -/
structure ChanceRule where
  chance : Float
  /-- Rolls only while a certain coin is on a face. -/
  needsActive : Bool
  active : Option String

/-- Landing on matching coins several times in a row. -/
structure RunRule where
  filter : FilterKind
  coins : List String
  conditionKind : Option GoalKind
  effectKind : Option EffectKind
  prerequisiteCount : Int
  side : SideRequirement
  length : Int

/-- What has to be reached. -/
inductive Goal where
  | none
  | totalFlips (count : Int)
  | headsFlips (count : Int)
  | tailsFlips (count : Int)
  /-- A streak on one side, or on either. -/
  | streak (side : Option Side) (count : Int)
  | landOnCoin (coin : Option String) (count : Int)
  | landOnCoins (list : CoinList)
  | chance (rule : ChanceRule)
  | run (rule : RunRule)

/-- The kind of a goal. -/
def Goal.kind : Goal → GoalKind
  | .none => .none
  | .totalFlips _ => .totalFlips
  | .headsFlips _ => .headsFlips
  | .tailsFlips _ => .tailsFlips
  | .streak _ _ => .streak
  | .landOnCoin _ _ => .landOnCoin
  | .landOnCoins _ => .landOnMultipleCoins
  | .chance _ => .randomChance
  | .run _ => .characteristics

/-- A goal with its prerequisites, and what is told about it. -/
structure Condition where
  goal : Goal
  prerequisites : List Condition
  description : String
  flavorText : String
  rarity : Rarity

/-- The goals that have to be reached first. -/
def Condition.required (c : Condition) : List Goal := c.prerequisites.map (·.goal)

end CoinToss
