import CoinToss.Coin.Condition
import CoinToss.Paths.PathSet
import CoinToss.Paths.Tally
import CoinToss.Time.DateTime

/-!
# CoinToss.Progress.Basic

What a player has done so far.

Every counter only grows, but for the runs, which drop to zero when broken.  The first unlock of a
coin is stamped with its time and the stamp is never changed.

* `recordStreak_longest` — the longest streak is never below either side's, if it was not before;
* `stamp_of_contains` — a stamped coin keeps its stamp.
-/

namespace CoinToss

/-- A player's progress. -/
structure Progress where
  totalFlips : Int
  headsFlips : Int
  tailsFlips : Int
  longestStreak : Int
  longestHeads : Int
  longestTails : Int
  /-- How often each coin has been landed on. -/
  landings : Tally Int
  /-- Coins unlocked by chance or by hand. -/
  randomUnlocks : PathSet
  /-- When each coin was unlocked first. -/
  stamps : Tally DateTime
  /-- Coins whose unlock has been told. -/
  notified : PathSet
  /-- Matching landings in a row, by the coin that waits for them. -/
  runs : Tally Int
  deriving DecidableEq

namespace Progress

/-- Nothing done yet. -/
def empty : Progress where
  totalFlips := 0
  headsFlips := 0
  tailsFlips := 0
  longestStreak := 0
  longestHeads := 0
  longestTails := 0
  landings := .empty
  randomUnlocks := .empty
  stamps := .empty
  notified := .empty
  runs := .empty

instance : Inhabited Progress := ⟨empty⟩

/-- How often a coin has been landed on. -/
def landCount (p : Progress) (path : String) : Int := (p.landings.get? path).getD 0

/-- The current run of a coin. -/
def runLength (p : Progress) (path : String) : Int := (p.runs.get? path).getD 0

/-- The longest streak on a side, or on either. -/
def longestOn (p : Progress) : Option Side → Int
  | some .heads => p.longestHeads
  | some .tails => p.longestTails
  | none => p.longestStreak

/-- Raises the longest streaks that a streak beats. -/
def recordStreak (p : Progress) (streak : Int) (side : Side) : Progress :=
  match side with
  | .heads =>
    { p with
      longestHeads := max p.longestHeads streak, longestStreak := max p.longestStreak streak }
  | .tails =>
    { p with
      longestTails := max p.longestTails streak, longestStreak := max p.longestStreak streak }

/-- Stamps the first unlock of a coin. -/
def stamp (p : Progress) (path : String) (time : DateTime) : Progress :=
  if p.stamps.contains path then p else { p with stamps := p.stamps.insert path time }

/-- A stamped coin keeps its stamp. -/
theorem stamp_of_contains {p : Progress} {path : String} (h : p.stamps.contains path = true)
    (time : DateTime) : p.stamp path time = p := by
  simp [stamp, h]

/-- After stamping a coin is stamped, and so is whatever was. -/
@[simp] theorem contains_stamps_stamp (p : Progress) (path other : String) (time : DateTime) :
    (p.stamp path time).stamps.contains other =
      (decide (other = path) || p.stamps.contains other) := by
  unfold stamp
  split
  · next h => by_cases e : other = path <;> simp [e, h]
  · simp

/-- The longest streak stays the larger of the two sides'. -/
theorem recordStreak_longest {p : Progress}
    (h : p.longestStreak = max p.longestHeads p.longestTails) (streak : Int) (side : Side) :
    (p.recordStreak streak side).longestStreak =
      max (p.recordStreak streak side).longestHeads (p.recordStreak streak side).longestTails := by
  cases side <;> simp only [recordStreak, h] <;> omega

end Progress

end CoinToss
