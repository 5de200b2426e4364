import CoinToss.Unlock.Evaluation

/-!
# CoinToss.Unlock.Runs

Runs of matching landings.

A coin that waits for a run counts the landings that match one after the other.  A landing that
does not match drops the count to zero; a coin that is unlocked keeps it; a coin whose
prerequisites are not met does not count at all.

* `sweep` — goes through coins with a state, collecting what is to be told;
* `Progress.advanceRuns` — what a landing does to all counts.
-/

namespace CoinToss

/-! ## landings -/

/-- A flip that has landed: the coin and side shown, and the coins on the faces if known. -/
structure Landing where
  coin : String
  side : Side
  heads : Option String := none
  tails : Option String := none

/-- Goes through a list with a state, collecting what the steps yield. -/
def sweep {σ α β : Type} (step : σ → α → σ × Option β) (s : σ) : List α → σ × List β
  | [] => (s, [])
  | a :: as =>
    let (s, out) := step s a
    let (s, outs) := sweep step s as
    (s, out.toList ++ outs)

/-! ## matching -/

/-- How many prerequisites a coin has. -/
def Coin.prerequisiteCount (coin : Coin) : Int := coin.required.length

/-- Whether a run counts the coin at a path. -/
def RunRule.picks (r : RunRule) (path : Option String) (coin : Option Coin) : Bool :=
  match r.filter with
  | .specificCoins => path.any fun q => q != "" && r.coins.contains q
  | .conditionKind => coin.any fun c => r.conditionKind == some c.goalKind
  | .effectKind => coin.any fun c => r.effectKind == some c.effectKind
  | .anyEffect => coin.any fun c => c.effectKind != .none
  | .anyCondition => coin.any fun c => c.goalKind != .none
  | .prerequisitesEqual => coin.any fun c => c.prerequisiteCount == r.prerequisiteCount
  | .prerequisitesAbove => coin.any fun c => decide (r.prerequisiteCount < c.prerequisiteCount)
  | .prerequisitesBelow => coin.any fun c => decide (c.prerequisiteCount < r.prerequisiteCount)

/-- Whether a run counts the coin of a catalog at a path. -/
def RunRule.picksIn (r : RunRule) (c : Catalog) (path : Option String) : Bool :=
  r.picks path (path.bind c.get?)

/-- Whether the faces show exactly the two coins of a list, in either order. -/
def isPair (coins : List String) (heads tails : Option String) : Bool :=
  match coins, heads, tails with
  | [a, b], some h, some t =>
    h != "" && t != "" && ((h == a && t == b) || (h == b && t == a))
  | _, _, _ => false

/-- Whether a landing matches a run. -/
def RunRule.matchesLanding (r : RunRule) (c : Catalog) (l : Landing) : Bool :=
  match r.side with
  | .either => r.picksIn c (some l.coin)
  | .both => r.picksIn c l.heads && r.picksIn c l.tails
  | .headsOnly => l.side == .heads && r.picksIn c (some l.coin)
  | .tailsOnly => l.side == .tails && r.picksIn c (some l.coin)
  | .headsAndTails => isPair r.coins l.heads l.tails
  | .anyFromList => l.heads.any r.coins.contains || l.tails.any r.coins.contains

/-! ## counting -/

/-- A run that a landing has ended. -/
structure BrokenRun where
  path : String
  length : Int

/-- Sets the count of a coin. -/
def Progress.setRun (p : Progress) (path : String) (n : Int) : Progress :=
  { p with runs := p.runs.insert path n }

/-- What a landing does to the count of a coin that waits for a run. -/
def Progress.advanceRun (c : Catalog) (l : Landing) (p : Progress) (coin : Coin) :
    Progress × Option BrokenRun :=
  match coin.goal with
  | .run r =>
    if coin.isUnlocked c.known p then (p, none)
    else if !coin.meetsPrerequisites c.known p then (p.setRun coin.path 0, none)
    else if r.matchesLanding c l then (p.setRun coin.path (p.runLength coin.path + 1), none)
    else
      (p.setRun coin.path 0,
        if p.runLength coin.path = 0 then none else some ⟨coin.path, p.runLength coin.path⟩)
  | _ => (p, none)

/-- What a landing does to the counts of all coins that wait for a run. -/
def Progress.advanceRuns (c : Catalog) (l : Landing) (p : Progress) : Progress × List BrokenRun :=
  sweep (Progress.advanceRun c l) p c.coins

end CoinToss
