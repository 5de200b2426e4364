import CoinToss.Unlock.Runs

/-!
# CoinToss.Unlock.Track

Recording a landing.

All counters move first, then the runs; what is unlocked after that is stamped, and a coin that
was locked before the landing is told once.  Chance coins are told by their rolls, never here.

* `Progress.count` — flips, streaks and land counts;
* `Progress.track` — the whole record of a landing.
-/

namespace CoinToss

/-- Counts a landing: the flip, its side, the streak it ends and the coin it shows. -/
def Progress.count (p : Progress) (l : Landing) (streak : Int) : Progress :=
  let p := { p with totalFlips := p.totalFlips + 1 }
  let p :=
    match l.side with
    | .heads => { p with headsFlips := p.headsFlips + 1 }
    | .tails => { p with tailsFlips := p.tailsFlips + 1 }
  let p := p.recordStreak streak l.side
  if l.coin = "" then p
  else { p with landings := p.landings.insert l.coin (p.landCount l.coin + 1) }

/-- Counts a landing and moves the runs. -/
def Progress.land (c : Catalog) (p : Progress) (l : Landing) (streak : Int) :
    Progress × List BrokenRun :=
  (p.count l streak).advanceRuns c l

/-- Whether a newly unlocked coin is to be told by the tracker. -/
def Progress.tells (before : Coin → Bool) (p : Progress) (coin : Coin) : Bool :=
  !before coin && !p.notified.contains coin.path && coin.goalKind != .randomChance

/-- Stamps a coin that is unlocked and tells it if it was not before. -/
def Progress.settle (known : Known) (before : Coin → Bool) (time : DateTime) (p : Progress)
    (coin : Coin) : Progress × Option Coin :=
  if coin.unlock.isNone || !coin.isUnlocked known p then (p, none)
  else
    let stamped := p.stamp coin.path time
    if p.tells before coin then
      ({ stamped with notified := stamped.notified.insert coin.path }, some coin)
    else (stamped, none)

/-- What a landing has brought about. -/
structure Tracked where
  unlocked : List Coin
  broken : List BrokenRun

/-- Records a landing: counters, runs, stamps and what is told. -/
def Progress.track (c : Catalog) (p : Progress) (l : Landing) (streak : Int) (time : DateTime) :
    Progress × Tracked :=
  let (landed, broken) := p.land c l streak
  let (settled, unlocked) :=
    sweep (Progress.settle c.known (Coin.isUnlocked c.known p) time) landed c.coins
  (settled, ⟨unlocked, broken⟩)

end CoinToss
