import CoinToss.Proofs.Unlock.History
import CoinToss.Proofs.Unlock.Latch

/-!
# CoinToss.Proofs.Unlock.Futile

Coins that play never unlocks.

A goal that names no coin of the catalog, or asks for a run of no length, is futile: no progress
reaches it.  As a prerequisite a goal of chance or of a run is no better.  Both are measured on what
is kept under the path of the coin that waits, and play moves that only once the prerequisites are
met:

```
prerequisite       kept under the own path      moved by
chance             unlocked by chance           a roll, prerequisites met
run                matching landings in a row   a landing, prerequisites met
```

* `Goal.Futile`, `Coin.Futile` — goals that nothing reaches, and coins that wait for one;
* `Coin.Shut` — nothing is kept under the path of such a coin;
* `Shut.play` — every move leaves it so, unless it unlocks the coin by hand;
* `locked_of_futile` — so the coin stays locked over every run of moves.
-/

namespace CoinToss

/-- Goals that nothing reaches: they name no coin of the catalog, or ask for a run of no length. -/
inductive Goal.Futile (c : Catalog) : Goal → Prop
  | noCoin (count : Int) : Futile c (.landOnCoin Option.none count)
  | unknownCoin {path : String} (h : path = "" ∨ path ∉ c.paths) (count : Int) :
      Futile c (.landOnCoin (some path) count)
  | noCoins {l : CoinList} (h : l.coins = []) : Futile c (.landOnCoins l)
  | unknownCoins {l : CoinList} {path : String} (hmem : path ∈ l.coins)
      (h : path = "" ∨ path ∉ c.paths) : Futile c (.landOnCoins l)
  | noRun {r : RunRule} (h : r.length ≤ 0) : Futile c (.run r)

/-- Whether a goal is measured on what is kept under the path of the coin that has it. -/
def Goal.isOwn : Goal → Bool
  | .chance _ | .run _ => true
  | _ => false

/-- Coins that wait for a futile goal, or for a prerequisite that is measured on themselves. -/
def Coin.Futile (c : Catalog) (coin : Coin) : Prop :=
  coin.goal.Futile c ∨ ∃ g ∈ coin.required, g.Futile c ∨ g.isOwn = true

/-- Whether a move unlocks the coin at a path by hand. -/
def Move.unlocks (path : String) : Move → Bool
  | .unlock other _ => other == path
  | _ => false

section Futile

variable {c : Catalog} {p q : Progress} {coin : Coin}

theorem names_eq_false {path : String} (h : path = "" ∨ path ∉ c.paths) :
    c.known.names path = false := by
  rw [Bool.eq_false_iff, Ne, names_iff]
  tauto

/-- Nothing reaches a futile goal. -/
theorem isReached_of_futile {g : Goal} (hg : g.Futile c) (owner : String) (p : Progress) :
    g.isReached c.known owner p = false := by
  cases hg with
  | noCoin count => rfl
  | unknownCoin h count => simp [Goal.isReached, names_eq_false h]
  | noCoins h => simp [Goal.isReached, h]
  | @unknownCoins l path hmem h =>
      have hall : l.coins.all c.known.names = false :=
        List.all_eq_false.2 ⟨path, hmem, by simp [names_eq_false h]⟩
      simp [Goal.isReached, hall]
  | noRun h => simp [Goal.isReached, Int.not_lt.2 h]

/-- A futile coin has a condition. -/
theorem Coin.Futile.isSome_unlock (hf : coin.Futile c) : coin.unlock.isSome = true := by
  cases hu : coin.unlock with
  | some u => rfl
  | none =>
      obtain hg | ⟨g, hg, -⟩ := hf
      · rw [Coin.goal, hu] at hg
        cases hg
      · simp [Coin.required, hu] at hg

/-! ## what is kept under a path -/

/-- Nothing is kept under the path of a coin: neither a stamp nor an unlock by chance or by hand,
and no run is counted if a prerequisite is measured on the coin itself. -/
structure Coin.Shut (coin : Coin) (p : Progress) : Prop where
  unstamped : p.stamps.contains coin.path = false
  unlucky : p.randomUnlocks.contains coin.path = false
  idle : (∃ g ∈ coin.required, g.isOwn = true) → p.runLength coin.path = 0

namespace Coin.Shut

theorem empty (coin : Coin) : coin.Shut .empty := ⟨rfl, rfl, fun _ => rfl⟩

/-- It is a matter of what the coin sees. -/
theorem congr (hs : coin.Shut p) (h : q.sight coin.path = p.sight coin.path) : coin.Shut q where
  unstamped := (Progress.contains_stamps_congr h).trans hs.unstamped
  unlucky := (congrArg Sight.randomUnlock h).trans hs.unlucky
  idle hown := (Progress.runLength_congr h).trans (hs.idle hown)

/-- A prerequisite that is futile, or measured on the coin itself, is not met. -/
theorem blocked (hs : coin.Shut p) (h : ∃ g ∈ coin.required, g.Futile c ∨ g.isOwn = true) :
    coin.meetsPrerequisites c.known p = false := by
  obtain ⟨g, hmem, hg⟩ := h
  rw [meetsPrerequisites, List.all_eq_false]
  refine ⟨g, hmem, ?_⟩
  obtain hfutile | hown := hg
  · simp [isReached_of_futile hfutile]
  · cases g with
    | chance r => simp [Goal.isReached, hs.unlucky]
    | run r =>
        have hidle := hs.idle ⟨_, hmem, hown⟩
        simp only [Goal.isReached, hidle, Bool.and_eq_true, decide_eq_true_eq]
        omega
    | _ => simp [Goal.isOwn] at hown

/-- A futile coin is locked while nothing is kept under its path. -/
theorem locked (hs : coin.Shut p) (hf : coin.Futile c) : coin.isUnlocked c.known p = false := by
  rw [Coin.isUnlocked_eq hf.isSome_unlock hs.unstamped, Bool.and_eq_false_iff]
  obtain hgoal | hrequired := hf
  · exact .inr (isReached_of_futile hgoal coin.path p)
  · exact .inl (hs.blocked hrequired)

/-! ## moves -/

theorem count (hs : coin.Shut p) (l : Landing) (streak : Int) : coin.Shut (p.count l streak) where
  unstamped := by simp [hs.unstamped]
  unlucky := by simp [hs.unlucky]
  idle hown := by simp [hs.idle hown]

/-- A run that is waited for before the coin's own goal is never counted. -/
theorem land (hs : coin.Shut p) (hc : coin ∈ c.coins) (l : Landing) (streak : Int) :
    coin.Shut (p.land c l streak).1 := by
  have hcount := hs.count l streak
  refine ⟨?_, ?_, fun hown => ?_⟩
  · rw [Progress.land_eq]
    exact hcount.unstamped
  · rw [Progress.land_eq]
    exact hcount.unlucky
  · obtain ⟨g, hmem, hg⟩ := hown
    have hblocked : coin.meetsPrerequisites c.known (p.count l streak) = false :=
      hcount.blocked ⟨g, hmem, .inr hg⟩
    rw [Progress.runLength_congr (Progress.sight_land hc)]
    obtain he | he | ⟨hm, -⟩ :=
      Progress.runLength_advanceRun_cases c l (p.count l streak) coin
    · exact he.trans (hcount.idle ⟨g, hmem, hg⟩)
    · exact he
    · rw [hblocked] at hm
      contradiction

theorem track (hs : coin.Shut p) (hc : coin ∈ c.coins) (hf : coin.Futile c) (l : Landing)
    (streak : Int) (time : DateTime) : coin.Shut (p.track c l streak time).1 := by
  have hland := hs.land hc l streak
  refine ⟨?_, ?_, ?_⟩
  · rw [Progress.contains_stamps_track hc, hs.unstamped, hland.locked hf]
    simp
  · rw [Progress.track_eq]
    exact hland.unlucky
  · rw [Progress.track_eq]
    exact hland.idle

/-- A futile coin does not roll: chance is not futile, so it is a prerequisite that is. -/
theorem roll?_eq_none (hs : coin.Shut p) (hf : coin.Futile c) (l : Landing) (multiplier : Float) :
    coin.roll? c l multiplier p = none := by
  unfold roll?
  split
  · next r hgoal =>
    obtain hfutile | hrequired := hf
    · rw [hgoal] at hfutile
      cases hfutile
    · simp [hs.blocked hrequired]
  · rfl

theorem rollAll (hs : coin.Shut p) (hc : coin ∈ c.coins) (hf : coin.Futile c) (l : Landing)
    (multiplier : Float) (time : DateTime) (source : Source) :
    coin.Shut (CoinToss.rollAll c l multiplier time p source).1.1 := by
  obtain ⟨t, ht, hafter, -⟩ := exists_turn_rollAll l multiplier time p source hc
  have hturn : coin.Shut t.1 := hs.congr ht
  have hnothing : (rollCoin c l multiplier time t coin).1 = t := by
    simp only [rollCoin, hturn.roll?_eq_none hf]
  rw [hnothing] at hafter
  exact hturn.congr hafter

/-- Every move keeps a futile coin shut, unless it unlocks the coin by hand. -/
theorem play (hs : coin.Shut p) (hc : coin ∈ c.coins) (hf : coin.Futile c) {m : Move}
    (hm : m.unlocks coin.path = false) : coin.Shut (p.play c m).1 := by
  cases m with
  | land l streak time => exact hs.track hc hf l streak time
  | roll l multiplier time source => exact hs.rollAll hc hf l multiplier time source
  | unlock path time =>
      have hne : coin.path ≠ path := by
        rintro rfl
        simp [Move.unlocks] at hm
      exact hs.congr (p.sight_unlockByHand_of_ne time hne)

end Coin.Shut

/-- A coin that waits for a futile goal, or for chance or a run before its own goal, is never
unlocked: over every run of landings, rolls and unlocks by hand from the start, whatever is landed
on and drawn, it is locked as long as it is not unlocked by hand itself. -/
theorem locked_of_futile (hc : coin ∈ c.coins) (hf : coin.Futile c) (ms : List Move)
    (hms : ∀ m ∈ ms, m.unlocks coin.path = false) :
    coin.isUnlocked c.known (Progress.empty.playAll c ms).1 = false := by
  have hshut : coin.Shut (Progress.empty.playAll c ms).1 :=
    Progress.playAll_keeps (fun _ m hm hq => hq.play hc hf (hms m hm)) (.empty coin)
  exact hshut.locked hf

end Futile

/-- Landings that match the run of `waitingCoin`, and another coin unlocked by hand. -/
def matchingMoves : List Move :=
  List.replicate 3 (.land ⟨"a", .heads, some "a", some "a"⟩ 3 firstOfMay) ++
    [.unlock "b" firstOfMay]

/-- The coin would have to count a landing before it starts to count. -/
theorem locked_of_futile_waitingCoin :
    waitingCoin ∈ waitingCatalog.coins ∧ waitingCoin.Futile waitingCatalog ∧
      (∀ m ∈ matchingMoves, m.unlocks waitingCoin.path = false) ∧
      waitingCoin.isUnlocked waitingCatalog.known
        (Progress.empty.playAll waitingCatalog matchingMoves).1 = false := by
  have hc : waitingCoin ∈ waitingCatalog.coins := List.mem_singleton_self _
  have hf : waitingCoin.Futile waitingCatalog := .inr ⟨_, List.mem_singleton_self _, .inr rfl⟩
  have hms : ∀ m ∈ matchingMoves, m.unlocks waitingCoin.path = false := by decide
  exact ⟨hc, hf, hms, locked_of_futile hc hf matchingMoves hms⟩

end CoinToss
