import CoinToss.Decimal.Fixed
import CoinToss.Decimal.Quantity
import CoinToss.Unlock.Evaluation

/-!
# CoinToss.Unlock.Report

How far a coin is from being unlocked, in words and in percent.

A locked coin is described by its first prerequisite that is not reached, else by its own goal.
The percentage measures the goal; for a chance coin, whose goal has nothing to measure, its first
prerequisite.

Counts are told whatever their size.  A host that writes no integers of more than `digitLimit`
digits has no words for such a count, and fails where it would be told; counts that have been saved
are far below, at 64 bits.
-/

namespace CoinToss

open Decimal

/-! ## in words -/

/-- A count of something out of a number. -/
def outOf (current required : Int) (what : String) : String :=
  intText current ++ "/" ++ intText required ++ what

/-- How many coins of a list have been landed on often enough. -/
def CoinList.completed (l : CoinList) (p : Progress) : Nat :=
  l.coins.countP fun path => decide (l.count ≤ p.landCount path)

/-- A goal of the coin at a path and how far it is. -/
def Goal.describe (owner : String) (p : Progress) : Goal → String
  | .none => "Locked"
  | .totalFlips n => outOf p.totalFlips n " flips"
  | .headsFlips n => outOf p.headsFlips n " heads"
  | .tailsFlips n => outOf p.tailsFlips n " tails"
  | .streak side n =>
    outOf (p.longestOn side) n <|
      match side with
      | some .heads => " heads streak"
      | some .tails => " tails streak"
      | .none => " streak"
  | .landOnCoin coin n =>
    let path := coin.getD ""
    if path = "" then "Invalid condition" else outOf (p.landCount path) n " times"
  | .landOnCoins l =>
    if l.coins.isEmpty then "Invalid condition"
    else
      outOf (l.completed p) l.coins.length (" coins completed (" ++ intText l.count ++ " each)")
  | .chance r => "Random unlock (" ++ fixedText 3 (r.chance * 100) ++ "% chance)"
  | .run r => outOf (p.runLength owner) r.length " in a row"

/-- What a player is told about a coin. -/
def Coin.describe (known : Known) (p : Progress) (coin : Coin) : String :=
  if coin.isUnlocked known p then "Unlocked"
  else
    match coin.blocker? known p with
    | some g => "Requires: " ++ g.describe coin.path p
    | none => coin.goal.describe coin.path p

/-! ## in percent -/

section Percent

variable {α : Type} [Quantity α]

/-- No percent. -/
def nothing : α := Quantity.ofRatio 0 1

/-- All of it. -/
def hundred : α := Quantity.ofRatio 100 1

/-- A count in percent of a number, at most a hundred; zero if nothing is required. -/
def ratio (current required : Int) : Except NumberFault α :=
  if required ≤ 0 then pure nothing
  else do pure (least hundred ((← Quantity.quotient current required) * hundred))

/-- How much of a goal of the coin at a path is reached. -/
def Goal.percent (owner : String) (p : Progress) : Goal → Except NumberFault α
  | .none => pure hundred
  | .totalFlips n => ratio p.totalFlips n
  | .headsFlips n => ratio p.headsFlips n
  | .tailsFlips n => ratio p.tailsFlips n
  | .streak side n => ratio (p.longestOn side) n
  | .landOnCoin coin n =>
    let path := coin.getD ""
    if path = "" then pure nothing else ratio (p.landCount path) n
  | .landOnCoins l => ratio (l.completed p) l.coins.length
  | .chance _ => pure (if p.randomUnlocks.contains owner then hundred else nothing)
  | .run r => ratio (p.runLength owner) r.length

/-- The goal whose percentage is told: for a chance coin that of its first prerequisite. -/
def Coin.measured? (coin : Coin) : Option Goal :=
  match coin.goal with
  | .chance _ => coin.required.head?
  | g => some g

/-- How near a coin is to being unlocked. -/
def Coin.percent (known : Known) (p : Progress) (coin : Coin) : Except NumberFault α :=
  if coin.isUnlocked known p then pure hundred
  else
    match coin.measured? with
    | some g => g.percent coin.path p
    | none => pure nothing

end Percent

end CoinToss
