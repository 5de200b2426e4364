import CoinToss.Catalog.Basic
import CoinToss.Progress.Basic

/-!
# CoinToss.Unlock.Evaluation

Whether a coin is unlocked.

A goal is measured on the progress and, for chance goals and runs, on the path of the coin that
has it.  A goal that refers to no coin, or to an unknown one, is never reached.  Only the goals of
the prerequisites count, and a stamped coin stays unlocked whatever its goal says.

* `isUnlocked_of_stamped` — a stamp unlocks;
* `isUnlocked_eq` — what decides for a coin without a stamp.
-/

namespace CoinToss

/-- Which paths name a coin. -/
abbrev Known := String → Bool

/-- The paths of a catalog. -/
def Catalog.known (c : Catalog) : Known := c.contains

/-- Whether a path is set and names a coin. -/
def Known.names (known : Known) (path : String) : Bool := path != "" && known path

/-- Whether a goal of the coin at a path is reached. -/
def Goal.isReached (known : Known) (owner : String) (p : Progress) : Goal → Bool
  | .none => true
  | .totalFlips n => decide (n ≤ p.totalFlips)
  | .headsFlips n => decide (n ≤ p.headsFlips)
  | .tailsFlips n => decide (n ≤ p.tailsFlips)
  | .streak side n => decide (n ≤ p.longestOn side)
  | .landOnCoin coin n =>
    match coin with
    | some path => known.names path && decide (n ≤ p.landCount path)
    | .none => false
  | .landOnCoins l =>
    !l.coins.isEmpty && l.coins.all known.names &&
      l.coins.all fun path => decide (l.count ≤ p.landCount path)
  | .chance _ => p.randomUnlocks.contains owner
  | .run r => decide (0 < r.length) && decide (r.length ≤ p.runLength owner)

namespace Coin

/-- Whether every prerequisite is reached. -/
def meetsPrerequisites (known : Known) (p : Progress) (coin : Coin) : Bool :=
  coin.required.all (Goal.isReached known coin.path p)

/-- The first prerequisite that is not reached. -/
def blocker? (known : Known) (p : Progress) (coin : Coin) : Option Goal :=
  coin.required.find? fun g => !g.isReached known coin.path p

/-- Whether the coin is stamped. -/
def isStamped (p : Progress) (coin : Coin) : Bool := p.stamps.contains coin.path

/-- Whether the coin's own goal is reached. -/
def meetsGoal (known : Known) (p : Progress) (coin : Coin) : Bool :=
  coin.goal.isReached known coin.path p

/-- Whether the coin is unlocked. -/
def isUnlocked (known : Known) (p : Progress) (coin : Coin) : Bool :=
  coin.unlock.isNone || coin.isStamped p ||
    (coin.meetsPrerequisites known p && coin.meetsGoal known p)

/-- A stamp unlocks. -/
theorem isUnlocked_of_stamped {known : Known} {p : Progress} {coin : Coin}
    (h : coin.isStamped p = true) : coin.isUnlocked known p = true := by
  simp [isUnlocked, h]

/-- Without a stamp, prerequisites and goal decide. -/
theorem isUnlocked_eq {known : Known} {p : Progress} {coin : Coin}
    (hc : coin.unlock.isSome = true) (hs : coin.isStamped p = false) :
    coin.isUnlocked known p = (coin.meetsPrerequisites known p && coin.meetsGoal known p) := by
  simp [isUnlocked, hs, Option.isNone_eq_false_iff.2 hc]

/-- Something blocks a coin exactly when its prerequisites are not met. -/
theorem blocker?_isNone {known : Known} {p : Progress} {coin : Coin} :
    (coin.blocker? known p).isNone = coin.meetsPrerequisites known p := by
  rw [Bool.eq_iff_iff]
  simp [blocker?, meetsPrerequisites]

end Coin

/-- The unlocked coins of a catalog, in order. -/
def Catalog.unlocked (c : Catalog) (p : Progress) : List Coin :=
  c.coins.filter (Coin.isUnlocked c.known p)

end CoinToss
