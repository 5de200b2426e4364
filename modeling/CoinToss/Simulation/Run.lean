import CoinToss.Log.Formatter
import CoinToss.Session.Lifecycle
import CoinToss.Session.Standing
import CoinToss.Simulation.Command

/-!
# CoinToss.Simulation.Run

A number of flips by themselves, and the lines that tell of them.

Each unlock is told as it happens; what has been counted and the coins still locked are told at the
end.

* `run` — the lines of a simulation, up to the flip that fails if one does.
-/

namespace CoinToss.Simulation

open Decimal

/-! ## lines -/

/-- A number filled up with blanks on the left. -/
def padLeft (width : Nat) (s : String) : String :=
  String.ofList (List.replicate (width - s.length) ' ') ++ s

/-- The name and rarity of a coin. -/
def label (coin : Coin) : String :=
  coin.displayName ++ " (" ++ Schema.Named.name coin.effectiveRarity ++ ")"

/-- The line of an unlock. -/
def unlockLine (number : Nat) (how : String) (coin : Coin) : String :=
  "[flip " ++ padLeft 6 (toString number) ++ "] " ++ how ++ " " ++ label coin

/-- The lines of a flip. -/
def outcomeLines (number : Nat) (o : Outcome) : List String :=
  o.unlocked.map (unlockLine number "unlocked") ++ o.lucky.map (unlockLine number "lucky unlock")

/-- The lines of what has been counted and what is still locked. -/
def summaryLines (c : Catalog) (g : Game) : List String :=
  let locked := c.coins.filter fun coin => !g.isUnlocked c coin.path
  ["",
   "Flips: " ++ intText g.progress.totalFlips ++ " (heads " ++ intText g.progress.headsFlips ++
     ", tails " ++ intText g.progress.tailsFlips ++ ")",
   "Longest streak: " ++ intText g.progress.longestStreak,
   "Unlocked " ++ toString (g.unlocked c).length ++ "/" ++ toString c.size ++ " coins"] ++
  locked.map fun coin =>
    "  locked: " ++ Log.padRight 20 coin.displayName ++ " " ++ g.describe c coin.path

/-! ## flips -/

/-- Why a simulation stops. -/
inductive Fault where
  /-- A seed was asked for, but none given. -/
  | noSeed
  | call (fault : CallFault)

/-- What is told of a fault. -/
def Fault.message : Fault → String
  | .noSeed =>
    "The only supported seed types are: None,\nint, float, str, bytes, and bytearray."
  | .call fault => fault.message

/-- What a simulation has come to. -/
structure Report where
  lines : List String
  fault : Option Fault

/-- Lines in front of a report. -/
def Report.after (lines : List String) (r : Report) : Report := { r with lines := lines ++ r.lines }

/-- Flips the same order again and again, then tells what has been counted. -/
def flips (s : Setup) (order : FlipOrder) : Nat → Nat → World → Report
  | 0, _, w => ⟨summaryLines s.catalog w.game, none⟩
  | left + 1, number, w =>
    match w.run s (.flip order) with
    | (w, .ok (.flipped o)) =>
      (flips s order left (number + 1) w).after (outcomeLines number o)
    | (w, .ok _) => flips s order left (number + 1) w
    | (_, .error fault) => ⟨[], some (.call fault)⟩

/-- The path of a face: the one ordered, or another if none is. -/
def faceOr (path other : String) : String := if path = "" then other else path

/-- The time of a simulation.  No line tells a time, so the clock may stand still. -/
def standstill : DateTime := ⟨1970, 1, 1, 0, 0, 0, 0, some 0, by decide, by decide, by decide⟩

/-- The draws of a seed; those of an unknown one are the caller's. -/
def sourceOf (unknown : Source) : Seed → Except Fault Source
  | .unknown => .ok unknown
  | .given n => .ok (.ofSeed n)
  | .missing => .error .noSeed

/-- Runs a simulation on a catalog, with the draws to use where no seed is ordered. -/
def run (c : Catalog) (unknown : Source) (o : Order) : Report :=
  match c.coins, sourceOf unknown o.seed with
  | [], _ => ⟨["No coins in catalog."], none⟩
  | _, .error fault => ⟨[], some fault⟩
  | first :: _, .ok source =>
    let heads := faceOr o.heads first.path
    let order : FlipOrder := ⟨heads, faceOr o.tails heads, o.randomFaces, o.randomFaces, none⟩
    let s : Setup := ⟨c, "coinUnlockProgress", [], 1⟩
    let w : World := ⟨.fresh, some (.empty .memory), source, standstill, #[]⟩
    match w.run s .load with
    | (w, .ok _) => flips s order o.flips.toNat 1 w
    | (_, .error fault) => ⟨[], some (.call fault)⟩

end CoinToss.Simulation
