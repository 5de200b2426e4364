import CoinToss.Proofs.Unlock.Moves

/-!
# CoinToss.Proofs.Unlock.Latch

Unlocks never revert.

Counters, sets and stamps only grow, so the one thing that could lock a coin again is its run,
which a landing may drop to zero.  A landing moves the counters first and the runs after that, and
the run of a coin that is unlocked by then is left alone: whoever is unlocked before a landing is
still unlocked when the runs move, and so keeps the run that unlocks it.

* `isUnlocked_count`, `isUnlocked_land` — the two halves of a landing;
* `isUnlocked_play` — the step;
* `isUnlocked_playAll` — any run of moves, from any progress.
-/

namespace CoinToss

section Latch

variable {c : Catalog} {p : Progress} {coin : Coin}

/-- Counting a landing breaks no run, so it locks no coin. -/
theorem isUnlocked_count (l : Landing) (streak : Int) (h : coin.isUnlocked c.known p = true) :
    coin.isUnlocked c.known (p.count l streak) = true :=
  Coin.isUnlocked_of_runs (p.grows_count l streak) (p.runs_count l streak) h

/-- The runs move past a coin that is unlocked. -/
theorem isUnlocked_land (hc : coin ∈ c.coins) (l : Landing) (streak : Int)
    (h : coin.isUnlocked c.known p = true) :
    coin.isUnlocked c.known (p.land c l streak).1 = true := by
  have hcount : coin.isUnlocked c.known (p.count l streak) = true := isUnlocked_count l streak h
  have hsight : (p.land c l streak).1.sight coin.path = (p.count l streak).sight coin.path := by
    rw [Progress.sight_land hc, Progress.advanceRun_of_unlocked hcount]
  rw [Coin.isUnlocked_congr c.known hsight, hcount]

/-- No move locks a coin. -/
theorem isUnlocked_play (hc : coin ∈ c.coins) (m : Move) (h : coin.isUnlocked c.known p = true) :
    coin.isUnlocked c.known (p.play c m).1 = true := by
  cases m with
  | land l streak time =>
      have hland := isUnlocked_land hc l streak h
      exact (Progress.isUnlocked_track hc).trans hland
  | roll l multiplier time source =>
      exact Coin.isUnlocked_of_runs (grows_rollAll p source) (runs_rollAll p source) h
  | unlock path time =>
      exact Coin.isUnlocked_of_runs (p.grows_unlockByHand path time)
        (p.runs_unlockByHand path time) h

/-- Unlocks never revert: a coin of the catalog that is unlocked, stamped or not, is unlocked after
every run of moves. -/
theorem isUnlocked_playAll (hc : coin ∈ c.coins) (moves : List Move)
    (h : coin.isUnlocked c.known p = true) :
    coin.isUnlocked c.known (p.playAll c moves).1 = true :=
  Progress.playAll_keeps (P := fun q => coin.isUnlocked c.known q = true)
    (fun _ m _ hq => isUnlocked_play hc m hq) h

end Latch

/-- A coin that waits for two landings in a row on "a", and for one such landing before it
starts to wait. -/
def waitingCoin : Coin where
  path := "run"
  name := ""
  category := ""
  rarity := none
  unlock := some
    { goal := .run ⟨.specificCoins, ["a"], none, none, 0, .either, 2⟩
      prerequisites :=
        [⟨.run ⟨.specificCoins, ["a"], none, none, 0, .either, 1⟩, [], "", "", .common⟩]
      description := ""
      flavorText := ""
      rarity := .common }
  effect := none

/-- The only coin of its catalog. -/
def waitingCatalog : Catalog := ⟨[waitingCoin], by decide⟩

/-- Noon of a first of May, two hours east of Greenwich. -/
def firstOfMay : DateTime :=
  { year := 2024, month := 5, day := 1, hour := 12, minute := 0, second := 0, micro := 0,
    offset := some 120 }

/-- The run is finished, but the coin is not stamped. -/
def finishedRun : Progress := Progress.empty.setRun "run" 2

/-- A landing elsewhere that would have broken the run, then a coin unlocked by hand. -/
def movesElsewhere : List Move :=
  [.land ⟨"b", .tails, some "b", some "b"⟩ 1 firstOfMay, .unlock "b" firstOfMay]

/-- A finished run that is not stamped yet outlasts a landing that would have broken it. -/
theorem isUnlocked_playAll_finishedRun :
    waitingCoin ∈ waitingCatalog.coins ∧ waitingCoin.isStamped finishedRun = false ∧
      waitingCoin.isUnlocked waitingCatalog.known finishedRun = true ∧
        waitingCoin.isUnlocked waitingCatalog.known
          (finishedRun.playAll waitingCatalog movesElsewhere).1 = true :=
  ⟨List.mem_singleton_self _, by decide, by decide,
    isUnlocked_playAll (List.mem_singleton_self _) movesElsewhere (by decide)⟩

end CoinToss
