import CoinToss.Decimal.Fixed
import CoinToss.Log.Record
import CoinToss.Unlock.Roll
import CoinToss.Unlock.Track

/-!
# CoinToss.Unlock.Chronicle

What is logged of landings and rolls.  Counts are told whatever their size, also beyond the
`digitLimit` digits that a host may write.
-/

namespace CoinToss

open Decimal

/-- A broken run. -/
def BrokenRun.record (b : BrokenRun) : Log.Record :=
  Log.record Log.debug "characteristics"
    ("Consecutive run for " ++ b.path ++ " broken at " ++ intText b.length)

/-- A coin unlocked by what the player has done, after so many flips. -/
def Coin.unlockRecord (flips : Int) (coin : Coin) : Log.Record :=
  Log.record Log.info "tracker"
    ("Unlocked " ++ coin.path ++ " after " ++ intText flips ++ " flips")

/-- A coin unlocked by chance. -/
def LuckyUnlock.record (u : LuckyUnlock) : Log.Record :=
  Log.record Log.info "random_unlocks"
    s!"Random unlock: {u.coin.path} ({percentText 4 u.chance} x{u.rolls})"

/-- What is logged of a landing, the flips counted with it. -/
def Tracked.records (t : Tracked) (flips : Int) : List Log.Record :=
  t.broken.map BrokenRun.record ++ t.unlocked.map (Coin.unlockRecord flips)

end CoinToss
