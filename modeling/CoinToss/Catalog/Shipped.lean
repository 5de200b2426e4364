import CoinToss.Catalog.Loading

/-!
# CoinToss.Catalog.Shipped

The coins that come with the game.
-/

namespace CoinToss

/-! ## describing coins -/

/-- A coin without condition and effect. -/
def Coin.plain (path name category : String) : Coin := ⟨path, name, category, none, none, none⟩

/-- A condition without prerequisites and flavor. -/
def Condition.simple (goal : Goal) (rarity : Rarity) (description : String) : Condition :=
  ⟨goal, [], description, "", rarity⟩

/-- The coin unlocked by reaching a goal. -/
def Coin.unlockedBy (coin : Coin) (rarity : Rarity) (goal : Goal) (description : String) : Coin :=
  { coin with unlock := some (.simple goal rarity description) }

/-- The coin with a flavor text on its condition. -/
def Coin.flavored (coin : Coin) (text : String) : Coin :=
  { coin with unlock := coin.unlock.map fun c => { c with flavorText := text } }

/-- The coin with one more prerequisite on its condition. -/
def Coin.after (coin : Coin) (goal : Goal) (description : String) : Coin :=
  { coin with
    unlock := coin.unlock.map fun c =>
      { c with prerequisites := c.prerequisites ++ [.simple goal .common description] } }

/-- The coin with an effect. -/
def Coin.acting (coin : Coin) (description : String) (effect : Effect Float) : Coin :=
  { coin with effect := some ⟨description, effect⟩ }

namespace Catalog

open Coin (plain)

/-! ## the coins -/

/-- The coins that come with the game, in order. -/
def shippedCoins : List Coin := [
  plain "coins/Logos/logo.png" "Logo" "Logos",
  plain "coins/Logos/jp_logo.png" "JP Logo" "Logos",
  plain "coins/Zodiak/Gemini.png" "" "Zodiak"
    |>.unlockedBy .common (.totalFlips 10)
      "Flip 10 times to unlock",
  plain "coins/Zodiak/Ram.png" "" "Zodiak"
    |>.unlockedBy .common (.headsFlips 5)
      "Get 5 heads to unlock",
  plain "coins/Zodiak/Tauros.png" "" "Zodiak"
    |>.unlockedBy .common (.tailsFlips 5)
      "Get 5 tails to unlock",
  plain "coins/Zodiak/Rooster.png" "" "Zodiak"
    |>.unlockedBy .uncommon (.streak none 3)
      "Get a 3-flip streak to unlock",
  plain "coins/Zodiak/Pig.png" "" "Zodiak"
    |>.unlockedBy .uncommon (.landOnCoin (some "coins/Zodiak/Ram.png") 10)
      "Use Ram coin 10 times to unlock",
  plain "coins/Zodiak/Dragon.png" "" "Zodiak"
    |>.unlockedBy .rare (.landOnCoins ⟨[
        "coins/Zodiak/Gemini.png",
        "coins/Zodiak/Ram.png",
        "coins/Zodiak/Tauros.png",
        "coins/Zodiak/Rooster.png",
        "coins/Zodiak/Pig.png"], 10, false⟩)
      "Use each other Zodiak coin 10 times to unlock",
  plain "coins/Zodiak/Dragon_Rare.png" "Dragon (Rare)" "Zodiak"
    |>.unlockedBy .legendary (.chance ⟨5e-5, true, some "coins/Zodiak/Dragon.png"⟩)
      "Ultra rare! 0.005% chance when using Dragon coin",
  plain "coins/Powers/Digital_Ox.png" "" "Powers"
    |>.unlockedBy .rare (.totalFlips 100)
      "Flip 100 times"
    |>.acting "Automatically flips once per second" (.autoClick 1000),
  plain "coins/Powers/DragonCore.png" "" "Powers"
    |>.unlockedBy .common (.streak none 5)
      "Soar on the wings of a dragon!"
    |>.acting "Shaved - biased to land this side up more often" (.shaved 0.2),
  plain "coins/Powers/Heavy.png" "" "Powers"
    |>.unlockedBy .common (.streak none 6)
      "oooh So heavy!"
    |>.acting "Weighted - heavy side lands down (opposite side shows)" (.weighted 0.4),
  plain "coins/Combo/DragonSamurai.png" "" "Combo"
    |>.unlockedBy .rare (.totalFlips 150)
      "Complete 150 total flips"
    |>.flavored "Where dragon meets warrior, power and precision combine."
    |>.acting "Doubles the opposite side's effect, or doubles the current streak"
      (.combo ⟨.multiplicative, 2.0⟩),
  plain "coins/Combo/Moai.png" "" "Combo"
    |>.unlockedBy .rare (.totalFlips 300)
      "Complete 300 total flips"
    |>.flavored
      "Silent guardian of ancient mysteries. Its presence magnifies the strength of its counterpart."
    |>.acting "Adds 3% to the opposite side's effect, or adds 3 to the current streak"
      (.combo ⟨.additive, 0.03⟩),
  plain "coins/Random/River.png" "" "Random"
    |>.unlockedBy .common (.chance ⟨0.02, false, none⟩)
      "2% chance to unlock on any flip",
  plain "coins/Random/Winter.png" "" "Random"
    |>.unlockedBy .uncommon (.chance ⟨0.06, false, none⟩)
      "6% chance to unlock on any flip",
  plain "coins/Random/Chaos.png" "" "Random"
    |>.unlockedBy .rare (.chance ⟨0.005, false, none⟩)
      "0.5% chance to unlock on any flip"
    |>.after (.totalFlips 200) "Flip 200 times",
  plain "coins/Random/Panda.png" "" "Random"
    |>.unlockedBy .uncommon (.chance ⟨0.1, true, some "coins/Zodiak/Pig.png"⟩)
      "10% chance per Pig face showing"
    |>.acting "Raises every random unlock chance by 5%" (.luck .additive 0.05),
  plain "coins/Achievements/Zen.png" "" "Achievements"
    |>.unlockedBy .rare (.run ⟨.effectKind, [], none, some .combo, 0, .either, 5⟩)
      "Land on a Combo coin 5 times in a row"
    |>.after (.landOnCoin (some "coins/Combo/DragonSamurai.png") 1) "",
  plain "coins/Achievements/Twins.png" "" "Achievements"
    |>.unlockedBy .uncommon
      (.run ⟨.specificCoins, ["coins/Zodiak/Gemini.png", "coins/Zodiak/Ram.png"], none, none, 0,
        .headsAndTails, 3⟩)
      "Flip Gemini against Ram 3 times in a row",
  plain "coins/Achievements/Collector.png" "" "Achievements"
    |>.unlockedBy .legendary (.landOnCoins ⟨[], 1, true⟩)
      "Land on every unlockable coin at least once"
    |>.acting "Always lands heads" .alwaysHeads
]

/-- The catalog that comes with the game, and what is logged about it. -/
def shipped : Catalog × List Log.Record :=
  let (c, records) := build shippedCoins
  (c, records ++ [log Log.info s!"Loaded {c.size} coins from coins.json"])

end Catalog

end CoinToss
