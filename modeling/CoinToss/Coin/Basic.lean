import CoinToss.Coin.Condition

/-!
# CoinToss.Coin.Basic

Coins of a catalog.
-/

namespace CoinToss

open Schema

/-- A coin: its path names it. -/
structure Coin where
  path : String
  name : String
  category : String
  rarity : Option Rarity
  unlock : Option Condition
  effect : Option CoinEffect

namespace Coin

/-- What follows the last occurrence of a character, or everything. -/
def afterLast (c : Char) (cs : List Char) : List Char :=
  (cs.reverse.takeWhile (· != c)).reverse

/-- What precedes the last occurrence of a character, or everything. -/
def beforeLast (c : Char) (cs : List Char) : List Char :=
  if cs.contains c then ((cs.reverse.dropWhile (· != c)).drop 1).reverse else cs

/-- The name shown: the given one, or the file name of the path without its extension. -/
def displayName (coin : Coin) : String :=
  if coin.name ≠ "" then coin.name
  else String.ofList (beforeLast '.' (afterLast '/' coin.path.toList))

/-- The rarity: the coin's own, or that of its condition. -/
def effectiveRarity (coin : Coin) : Rarity :=
  match coin.rarity with
  | some r => r
  | none => (coin.unlock.map (·.rarity)).getD .common

/-- Coins with a condition or an effect are in play for random faces. -/
def isConfigured (coin : Coin) : Bool := coin.unlock.isSome || coin.effect.isSome

/-- The goal of the condition; a coin without one has the goal `none`. -/
def goal (coin : Coin) : Goal := (coin.unlock.map (·.goal)).getD .none

/-- The goals that come before the coin's own. -/
def required (coin : Coin) : List Goal := (coin.unlock.map (·.required)).getD []

/-- The kind of the coin's goal. -/
def goalKind (coin : Coin) : GoalKind := coin.goal.kind

/-- What the coin does on a face. -/
def faceEffect (coin : Coin) : Effect Float := (coin.effect.map (·.effect)).getD .none

/-- The kind of the coin's effect. -/
def effectKind (coin : Coin) : EffectKind := coin.faceEffect.kind

end Coin

end CoinToss
