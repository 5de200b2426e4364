import CoinToss.Coin.Basic
import CoinToss.Schema.Reading

/-!
# CoinToss.Coin.Reader

Coins from JSON.

A condition and an effect carry their kind in the member `type`, and only the members of that
kind are looked at.  Issues inside them are placed below the kind's name.  Members that are not
known are passed over.  Conditions that lie too deep in one another are refused
(`conditionDepth`).
-/

namespace CoinToss

open Schema

/-! ## tagged records -/

/-- The kind named by the member `type`. -/
def taggedKind {κ : Type} [Named κ] (members : Json.Members) : Checked κ :=
  match members.field? "type" with
  | none => .issue .unionTagNotFound
  | some (.string s) => .ofOption .unionTagInvalid (Named.ofName? s)
  | some _ => .issue .unionTagInvalid

/-- Reads a record by its kind; issues are placed below the name of the kind. -/
def tagged {κ α : Type} [Named κ] (read : κ → Json.Members → Checked α)
    (members : Json.Members) : Checked α :=
  match taggedKind members with
  | .failed issues => .failed issues
  | .ok kind => (read kind members).within (.key (Named.name kind))

/-! ## effects -/

/-- The effect of a kind. -/
def Effect.ofMembers (kind : EffectKind) (ms : Json.Members) : Checked (Effect Float) :=
  match kind with
  | .none => pure .none
  | .autoClick => Effect.autoClick <$> field (.camel "autoClickInterval") int 1000 ms
  | .weighted => Effect.weighted <$> field (.camel "biasStrength") float 0.1 ms
  | .shaved => Effect.shaved <$> field (.camel "biasStrength") float 0.1 ms
  | .combo =>
    (fun mode multiplier => Effect.combo ⟨mode, multiplier⟩)
      <$> field (.camel "comboType") named .additive ms
      <*> field (.camel "comboMultiplier") float 0.05 ms
  | .luck =>
    (fun modifier mode => Effect.luck mode modifier)
      <$> field (.camel "luckModifier") float 0.05 ms
      <*> field (.camel "luckModifierType") named .additive ms
  | .alwaysHeads => pure .alwaysHeads
  | .alwaysTails => pure .alwaysTails

/-- An effect with its description. -/
def CoinEffect.ofMembers (kind : EffectKind) (ms : Json.Members) : Checked CoinEffect :=
  CoinEffect.mk <$> field (.camel "description") string "" ms <*> Effect.ofMembers kind ms

/-- Reads an effect of any kind. -/
def CoinEffect.ofJson : Reading CoinEffect :=
  record .modelAttributesType (tagged CoinEffect.ofMembers)

/-! ## conditions -/

/-- The members of a run. -/
def RunRule.ofMembers (ms : Json.Members) : Checked RunRule :=
  RunRule.mk
    <$> field (.camel "characteristicFilter") named .specificCoins ms
    <*> field (.camel "requiredCoinPaths") (list .tupleType string) [] ms
    <*> field (.camel "filterUnlockConditionType") (optional named) .none ms
    <*> field (.camel "filterEffectType") (optional named) .none ms
    <*> field (.camel "filterPrerequisiteCount") int 0 ms
    <*> field (.camel "sideRequirement") named .either ms
    <*> field (.camel "consecutiveCount") int 0 ms

/-- The goal of a kind. -/
def Goal.ofMembers (kind : GoalKind) (ms : Json.Members) : Checked Goal :=
  let count := field (.camel "requiredCount") int 0 ms
  match kind with
  | .none => pure .none
  | .totalFlips => Goal.totalFlips <$> count
  | .headsFlips => Goal.headsFlips <$> count
  | .tailsFlips => Goal.tailsFlips <$> count
  | .streak =>
    (fun count side => Goal.streak side count)
      <$> count <*> field (.camel "streakSide") (optional named) .none ms
  | .landOnCoin =>
    Goal.landOnCoin <$> field (.camel "requiredCoinPath") (optional string) .none ms <*> count
  | .landOnMultipleCoins =>
    (fun coins count dynamic => Goal.landOnCoins ⟨coins, count, dynamic⟩)
      <$> field (.camel "requiredCoinPaths") (list .tupleType string) [] ms
      <*> count
      <*> field (.camel "useDynamicCoinList") bool false ms
  | .randomChance =>
    (fun chance needsActive active => Goal.chance ⟨chance, needsActive, active⟩)
      <$> field (.camel "unlockChance") float 0 ms
      <*> field (.camel "requiresActiveCoin") bool false ms
      <*> field (.camel "activeCoinPath") (optional string) .none ms
  | .characteristics => Goal.run <$> RunRule.ofMembers ms

/-- A condition of a kind, its prerequisites already read. -/
def Condition.ofMembers (prerequisites : Checked (List Condition)) (kind : GoalKind)
    (ms : Json.Members) : Checked Condition :=
  (fun description flavorText rarity prerequisites goal =>
      Condition.mk goal prerequisites description flavorText rarity)
    <$> field (.camel "description") string "" ms
    <*> field (.camel "flavorText") string "" ms
    <*> field (.camel "rarity") named .common ms
    <*> prerequisites.within (.key "prerequisites")
    <*> Goal.ofMembers kind ms

/-- Conditions may lie in one another this deep. -/
def conditionDepth : Nat := 254

mutual
/-- Reads a condition of any kind with its prerequisites, so many levels deep. -/
def Condition.ofJsonWithin (levels : Nat) : Json → Checked Condition
  | .object ms =>
    tagged (fun kind ms' =>
      if levels = 0 then .issue .tooDeep
      else Condition.ofMembers (Condition.prerequisitesIn (levels - 1) ms) kind ms') ms
  | _ => .issue .modelAttributesType

/-- The prerequisites of a condition: its first member of that name. -/
def Condition.prerequisitesIn (levels : Nat) : List (String × Json) → Checked (List Condition)
  | [] => .ok []
  | (key, v) :: rest =>
    if key = "prerequisites" then Condition.listOfJson levels v
    else Condition.prerequisitesIn levels rest

/-- Reads a list of conditions. -/
def Condition.listOfJson (levels : Nat) : Json → Checked (List Condition)
  | .array xs => Condition.elementsOfJson levels 0 xs
  | _ => .issue .tupleType

/-- Reads conditions in order, from place `i` on. -/
def Condition.elementsOfJson (levels : Nat) (i : Nat) : List Json → Checked (List Condition)
  | [] => .ok []
  | x :: xs =>
    List.cons <$> (Condition.ofJsonWithin levels x).within (.index i) <*>
      Condition.elementsOfJson levels (i + 1) xs
end

/-- Reads a condition of any kind with its prerequisites. -/
def Condition.ofJson : Reading Condition := Condition.ofJsonWithin conditionDepth

/-! ## coins -/

/-- The members of a coin. -/
def Coin.ofMembers (ms : Json.Members) : Checked Coin :=
  Coin.mk
    <$> Schema.required (.camel "path") string ms
    <*> field (.camel "name") string "" ms
    <*> field (.camel "category") string "" ms
    <*> field (.camel "rarity") (optional named) .none ms
    <*> field (.camel "unlockCondition") (optional Condition.ofJson) none ms
    <*> field (.camel "effect") (optional CoinEffect.ofJson) none ms

/-- Reads a coin. -/
def Coin.ofJson : Reading Coin := record .modelType Coin.ofMembers

end CoinToss
