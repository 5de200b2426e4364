import CoinToss.Decimal.Quantity
import CoinToss.Random.Source
import CoinToss.Unlock.Runs

/-!
# CoinToss.Unlock.Roll

Chance unlocks, and unlocks by hand.

After a flip every locked chance coin whose prerequisites are met rolls: once, or once for each
face that shows the coin it needs.  All its rolls are drawn even when the first one succeeds.

* `ChanceRule.rolls` — how often a coin rolls;
* `effectiveChance` — the chance of one roll;
* `Progress.rollAll` — the rolls of all coins, in the order of the catalog.
-/

namespace CoinToss

open Decimal

/-- A chance scaled by a multiplier and kept between zero and one; no number counts as zero. -/
def effectiveChance {α : Type} [Quantity α] (chance multiplier : α) : α :=
  let value := chance * multiplier
  if Quantity.isNaN value then Quantity.ofRatio 0 1
  else least (Quantity.ofRatio 1 1) (greatest (Quantity.ofRatio 0 1) value)

/-- One if so, else nothing. -/
def countOne (b : Bool) : Nat := if b then 1 else 0

/-- How often a coin rolls after a landing. -/
def ChanceRule.rolls (r : ChanceRule) (l : Landing) : Nat :=
  if !r.needsActive then 1
  else
    match r.active with
    | none => 0
    | some "" => 0
    | some path =>
      if l.heads.isNone && l.tails.isNone then countOne (l.coin == path)
      else countOne (l.heads == some path) + countOne (l.tails == some path)

/-- A coin unlocked by chance. -/
structure LuckyUnlock where
  coin : Coin
  chance : Float
  rolls : Nat

/-- The chance and the number of rolls of a coin that may roll: a locked chance coin with its
prerequisites met. -/
def Coin.roll? (c : Catalog) (l : Landing) (multiplier : Float) (p : Progress) (coin : Coin) :
    Option (Float × Nat) :=
  match coin.goal with
  | .chance r =>
    let chance := effectiveChance r.chance multiplier
    let rolls := r.rolls l
    if !coin.isUnlocked c.known p && coin.meetsPrerequisites c.known p && rolls != 0 &&
        decide (0 < chance) then some (chance, rolls)
    else none
  | _ => none

/-- Records a chance unlock, stamped with a time. -/
def Progress.unlockByChance (p : Progress) (path : String) (time : DateTime) : Progress :=
  { p with
    randomUnlocks := p.randomUnlocks.insert path
    notified := p.notified.insert path }.stamp path time

/-- The rolls of one coin. -/
def rollCoin (c : Catalog) (l : Landing) (multiplier : Float) (time : DateTime)
    (s : Progress × Source) (coin : Coin) : (Progress × Source) × Option LuckyUnlock :=
  let (p, source) := s
  match coin.roll? c l multiplier p with
  | none => (s, none)
  | some (chance, rolls) =>
    let (draws, source) := source.draws rolls
    if draws.any fun x => decide (x < chance) then
      ((p.unlockByChance coin.path time, source), some ⟨coin, chance, rolls⟩)
    else ((p, source), none)

/-- The rolls of all coins, in the order of the catalog. -/
def rollAll (c : Catalog) (l : Landing) (multiplier : Float) (time : DateTime) (p : Progress)
    (source : Source) : (Progress × Source) × List LuckyUnlock :=
  sweep (rollCoin c l multiplier time) (p, source) c.coins

/-- Unlocks a coin by hand; false if that was done before. -/
def Progress.unlockByHand (p : Progress) (path : String) (time : DateTime) : Progress × Bool :=
  if p.randomUnlocks.contains path then (p, false)
  else ({ p with randomUnlocks := p.randomUnlocks.insert path }.stamp path time, true)

end CoinToss
