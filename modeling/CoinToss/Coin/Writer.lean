import CoinToss.Coin.Basic
import CoinToss.Json.Value

/-!
# CoinToss.Coin.Writer

Coins as JSON, with every member of their kinds written out.
-/

namespace CoinToss

open Schema

/-- The name of a value of a finite kind. -/
def Json.name {α : Type} [Named α] (a : α) : Json := .string (Named.name a)

/-- The members of an effect. -/
def Effect.members : Effect Float → Json.Members
  | .none | .alwaysHeads | .alwaysTails => []
  | .autoClick interval => [("autoClickInterval", .int interval)]
  | .weighted bias | .shaved bias => [("biasStrength", .number bias)]
  | .combo c => [("comboType", .name c.mode), ("comboMultiplier", .number c.multiplier)]
  | .luck mode modifier => [("luckModifier", .number modifier), ("luckModifierType", .name mode)]

/-- An effect as JSON. -/
def CoinEffect.toJson (e : CoinEffect) : Json :=
  .object (("description", .string e.description) :: ("type", .name e.effect.kind) ::
    e.effect.members)

/-- The members of a goal. -/
def Goal.members : Goal → Json.Members
  | .none => []
  | .totalFlips count | .headsFlips count | .tailsFlips count => [("requiredCount", .int count)]
  | .streak side count => [("requiredCount", .int count), ("streakSide", .orNull .name side)]
  | .landOnCoin coin count =>
    [("requiredCoinPath", .orNull .string coin), ("requiredCount", .int count)]
  | .landOnCoins l =>
    [("requiredCoinPaths", .strings l.coins), ("requiredCount", .int l.count),
     ("useDynamicCoinList", .bool l.dynamic)]
  | .chance r =>
    [("unlockChance", .number r.chance), ("requiresActiveCoin", .bool r.needsActive),
     ("activeCoinPath", .orNull .string r.active)]
  | .run r =>
    [("characteristicFilter", .name r.filter), ("requiredCoinPaths", .strings r.coins),
     ("filterUnlockConditionType", .orNull .name r.conditionKind),
     ("filterEffectType", .orNull .name r.effectKind),
     ("filterPrerequisiteCount", .int r.prerequisiteCount), ("sideRequirement", .name r.side),
     ("consecutiveCount", .int r.length)]

mutual
/-- A condition as JSON. -/
def Condition.toJson : Condition → Json
  | ⟨goal, prerequisites, description, flavorText, rarity⟩ =>
    .object (("description", .string description) :: ("flavorText", .string flavorText) ::
      ("rarity", .name rarity) :: ("prerequisites", .array (Condition.toJsons prerequisites)) ::
      ("type", .name goal.kind) :: goal.members)

/-- Conditions as JSON. -/
def Condition.toJsons : List Condition → List Json
  | [] => []
  | c :: cs => c.toJson :: Condition.toJsons cs
end

/-- A coin as JSON. -/
def Coin.toJson (coin : Coin) : Json :=
  .object [("path", .string coin.path), ("name", .string coin.name),
    ("category", .string coin.category), ("rarity", .orNull .name coin.rarity),
    ("unlockCondition", .orNull Condition.toJson coin.unlock),
    ("effect", .orNull CoinEffect.toJson coin.effect)]

/-- What lists of coins tell about a coin. -/
def Coin.summary (coin : Coin) : Json :=
  .object [("path", .string coin.path), ("name", .string coin.displayName),
    ("rarity", .name coin.effectiveRarity)]

end CoinToss
