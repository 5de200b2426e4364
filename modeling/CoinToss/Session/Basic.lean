import CoinToss.Flip.Face
import CoinToss.Flip.Odds
import CoinToss.Store.Saved
import CoinToss.Unlock.Chronicle

/-!
# CoinToss.Session.Basic

A session: one player's game, the store it is kept in, and the calls made on it.

`World` is everything a call can read or change.  The log only grows.

The paths in orders and calls are texts.  A string with halves of characters is none: it could be
shown by a random face that falls back on it, but what has landed on it can neither be saved nor be
told, so that sessions which are asked for such paths are left out.
-/

namespace CoinToss

open Decimal

/-! ## the state of a session -/

/-- What a session is set up with. -/
structure Setup where
  catalog : Catalog
  /-- The key of the store under which progress is kept. -/
  key : String
  /-- Weights for random faces; an empty table stands for the standard one. -/
  weights : WeightTable
  /-- The multiplier of unlock chances where a flip gives none. -/
  multiplier : Float

/-- The player's game. -/
structure Game where
  progress : Progress
  /-- The streak of the last result, with bonuses. -/
  streak : Int
  last : Option Side
  /-- Whether saved progress has been read. -/
  loaded : Bool
  /-- Whether an exclusive call is under way. -/
  busy : Bool

/-- A game before its progress is read. -/
def Game.fresh : Game := ⟨.empty, 0, none, false, false⟩

/-- All that calls read and change. -/
structure World where
  game : Game
  store : Option Store
  source : Source
  clock : DateTime
  log : Array Log.Record

namespace World

/-- Logs records. -/
def tell (w : World) (records : List Log.Record) : World :=
  { w with log := w.log ++ records.toArray }

/-- Replaces the game's progress. -/
def setProgress (w : World) (p : Progress) : World :=
  { w with game := { w.game with progress := p } }

/-- Raises or lowers the busy flag. -/
def setBusy (w : World) (b : Bool) : World := { w with game := { w.game with busy := b } }

/-- A new game in the same world. -/
def restart (w : World) : World := { w with game := .fresh }

end World

/-! ## calls and replies -/

/-- A flip as it is asked for. -/
structure FlipOrder where
  heads : String
  tails : String
  headsRandom : Bool := false
  tailsRandom : Bool := false
  /-- The multiplier of unlock chances, if other than the session's. -/
  multiplier : Option Float := none

/-- A call on a session. -/
inductive Call where
  | flip (order : FlipOrder)
  /-- Records a landing decided elsewhere. -/
  | track (landing : Landing) (streak : Int)
  /-- Rolls the chance coins for a landing. -/
  | roll (landing : Landing) (multiplier : Float)
  | unlock (path : String)
  | reset
  /-- Reads saved progress, again if need be. -/
  | load
  /-- Reads saved progress if that has not been done. -/
  | ensureLoaded

/-- Whether a call keeps others out while it is under way. -/
def Call.isExclusive : Call → Bool
  | .ensureLoaded => false
  | _ => true

/-- Whether a call has to read saved progress first. -/
def Call.needsRead (g : Game) : Call → Bool
  | .load => true
  | _ => !g.loaded

/-- What a flip has come to. -/
structure Outcome where
  side : Side
  landed : String
  heads : String
  tails : String
  odds : Float
  streak : Int
  unlocked : List Coin
  lucky : List Coin
  saved : Bool

/-- What a call answers. -/
inductive Reply where
  | nothing
  | flipped (outcome : Outcome)
  | coins (unlocked : List Coin)
  | changed (b : Bool)
  | saved (b : Bool)

/-- The reply with word of whether progress was saved. -/
def Reply.withSaved (saved : Bool) : Reply → Reply
  | .flipped o => .flipped { o with saved := saved }
  | .saved _ => .saved saved
  | r => r

/-- Why a call fails. -/
inductive CallFault where
  /-- Another call is under way. -/
  | busy
  /-- The odds cannot be worked out. -/
  | number (fault : NumberFault)
  /-- Progress holds integers beyond 64 bits. -/
  | unstorable

/-- What is told of a failed call. -/
def CallFault.message : CallFault → String
  | .busy => "A flip is already in progress"
  | .number fault => fault.message
  | .unstorable => "Integer exceeds 64-bit range"

/-- What a call comes to. -/
abbrev Result := Except CallFault Reply

end CoinToss
