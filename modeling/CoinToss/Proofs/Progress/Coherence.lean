import CoinToss.Proofs.Progress.Range
import CoinToss.Proofs.Unlock.Earned
import CoinToss.Proofs.Unlock.Reports

/-!
# CoinToss.Proofs.Progress.Coherence

What the parts of progress have to do with each other.

Counters and streaks bound each other, whoever has been unlocked by chance or by hand, or told of,
is stamped, and a run gets no longer than its coin asks for.  A landing moves the runs of locked
coins only, and a run that reaches its length unlocks its coin before that landing is over:

```
run < length, locked  --advanceRun-->  run ≤ length  --settle-->  stamped, if run = length
```

* `Tally.total`, `total_play` — how many landings there have been on coins, all in all;
* `Coin.RunWithin` — a run is shorter than its length, or its coin is stamped;
* `Progress.Coherent` — all that holds of the parts;
* `Coherent.play` — every move keeps it.
-/

namespace CoinToss

/-! ## land counts -/

namespace Tally

/-- What the values of a tally come to together. -/
def total (t : Tally Int) : Int := t.entries.foldr (fun e sum => e.2 + sum) 0

theorem sum_put (path : String) (n : Int) (l : List (String × Int)) :
    (put path n l).foldr (fun e sum => e.2 + sum) 0 =
      l.foldr (fun e sum => e.2 + sum) 0 + (n - (find? path l).getD 0) := by
  induction l with
  | nil => simp [put, find?]
  | cons e rest ih =>
      obtain ⟨key, m⟩ := e
      by_cases h : key = path
      · simp only [put, find?, if_pos h, List.foldr_cons, Option.getD_some]
        omega
      · simp only [put, find?, if_neg h, List.foldr_cons, ih]
        omega

/-- A write makes the difference between the new value and the old one. -/
theorem total_insert (t : Tally Int) (path : String) (n : Int) :
    (t.insert path n).total = t.total + (n - (t.get? path).getD 0) := sum_put path n t.entries

end Tally

/-- The path that a move lands on, if it is a landing. -/
def Move.landed? : Move → Option String
  | .land l _ _ => some l.coin
  | _ => none

/-- Whether a coin has been landed on: the empty path is that of no coin. -/
def landsOnCoin (path : Option String) : Bool := path.any (· != "")

namespace Progress

variable {c : Catalog} {p : Progress}

/-- A move that lands on a coin is one more landing, and no other move is. -/
theorem total_play (c : Catalog) (p : Progress) (m : Move) :
    (p.play c m).1.landings.total =
      p.landings.total + if landsOnCoin m.landed? = true then 1 else 0 := by
  cases m with
  | land l streak time =>
      rw [play, landings_track, landings_count]
      by_cases h : l.coin = ""
      · simp [h, Move.landed?, landsOnCoin]
      · have hlands : landsOnCoin (Move.land l streak time).landed? = true := by
          simp [h, Move.landed?, landsOnCoin]
        rw [if_neg h, if_pos hlands, Tally.total_insert, landCount]
        omega
  | roll l multiplier time source =>
      rw [play, rollAll_eq]
      simp [Move.landed?, landsOnCoin]
  | unlock path time =>
      rw [play, unlockByHand_eq]
      simp [Move.landed?, landsOnCoin]

end Progress

/-! ## runs -/

/-- If a coin waits for a run, its run is shorter than that, or just as long and the coin is
stamped. -/
def Coin.RunWithin (coin : Coin) (p : Progress) : Prop :=
  ∀ r, coin.goal = .run r → 0 < r.length →
    p.runLength coin.path < r.length ∨
      p.runLength coin.path = r.length ∧ p.stamps.contains coin.path = true

section RunWithin

variable {c : Catalog} {p q : Progress} {coin : Coin}

/-- It stays so as long as the run stands. -/
theorem Coin.RunWithin.of_grows (h : coin.RunWithin p) (hgrows : p.Grows q)
    (hrun : q.runLength coin.path = p.runLength coin.path) : coin.RunWithin q := by
  intro r hgoal hlength
  rw [hrun]
  exact (h r hgoal hlength).imp_right fun hfull => ⟨hfull.1, hgrows.contains_stamps hfull.2⟩

/-- A coin that waits for a run has a condition. -/
theorem isSome_unlock_of_run {r : RunRule} (hgoal : coin.goal = .run r) :
    coin.unlock.isSome = true := by
  cases hu : coin.unlock with
  | some u => rfl
  | none => simp [Coin.goal, hu] at hgoal

/-- A run that a landing has brought to its length unlocks its coin, whose prerequisites were met
when the run went on. -/
theorem isUnlocked_land_of_full {l : Landing} {streak : Int} {r : RunRule}
    (hgoal : coin.goal = .run r) (hlength : 0 < r.length)
    (hmet : coin.meetsPrerequisites c.known (p.count l streak) = true)
    (hlonger : p.runLength coin.path ≤ (p.land c l streak).1.runLength coin.path)
    (hfull : (p.land c l streak).1.runLength coin.path = r.length) :
    coin.isUnlocked c.known (p.land c l streak).1 = true := by
  have hgrows : (p.count l streak).Grows (p.land c l streak).1 := by
    rw [Progress.land_eq]
    exact Progress.grows_runs _ _
  have hlater : coin.meetsPrerequisites c.known (p.land c l streak).1 = true :=
    Coin.meetsPrerequisites_mono hgrows (by simpa using hlonger) hmet
  simp [Coin.isUnlocked, hlater, Coin.meetsGoal, hgoal, Goal.isReached, hlength, hfull]

/-- A landing leaves the run of an unlocked coin alone, and stamps a coin whose run it brings to
its length. -/
theorem Coin.RunWithin.track (h : coin.RunWithin p) (hc : coin ∈ c.coins) (l : Landing)
    (streak : Int) (time : DateTime) : coin.RunWithin (p.track c l streak time).1 := by
  intro r hgoal hlength
  have hwithin := h r hgoal hlength
  have htrack : (p.track c l streak time).1.runLength coin.path =
      (p.land c l streak).1.runLength coin.path := by
    rw [Progress.track_eq]
    rfl
  have hland : (p.land c l streak).1.runLength coin.path =
      ((p.count l streak).advanceRun c l coin).1.runLength coin.path :=
    Progress.runLength_congr (Progress.sight_land hc)
  have hgrows : p.Grows (p.track c l streak time).1 := p.grows_track c l streak time
  cases hu : coin.isUnlocked c.known (p.count l streak) with
  | true =>
      have hstands : (p.land c l streak).1.runLength coin.path = p.runLength coin.path := by
        rw [hland, Progress.advanceRun_of_unlocked hu, Progress.runLength_count]
      rw [htrack, hstands]
      exact hwithin.imp_right fun hfull => ⟨hfull.1, hgrows.contains_stamps hfull.2⟩
  | false =>
      have hshort : p.runLength coin.path < r.length := by
        have hunstamped := Coin.isStamped_of_locked hu
        simp only [Progress.stamps_count] at hunstamped
        simpa [hunstamped] using hwithin
      rw [runLength_advanceRun l hgoal hu, Progress.runLength_count] at hland
      by_cases hon : (coin.meetsPrerequisites c.known (p.count l streak) &&
          r.matchesLanding c l) = true
      · rw [if_pos hon] at hland
        by_cases hfull : p.runLength coin.path + 1 = r.length
        · -- the landing stamps what it unlocks
          have hunlocked : coin.isUnlocked c.known (p.land c l streak).1 = true := by
            simp only [Bool.and_eq_true] at hon
            exact isUnlocked_land_of_full hgoal hlength hon.1 (by omega) (by omega)
          refine .inr ⟨by omega, ?_⟩
          rw [Progress.contains_stamps_track hc, hunlocked, isSome_unlock_of_run hgoal]
          simp
        · exact .inl (by omega)
      · rw [if_neg hon] at hland
        exact .inl (by omega)

/-- Every move keeps it. -/
theorem Coin.RunWithin.play (h : coin.RunWithin p) (hc : coin ∈ c.coins) (m : Move) :
    coin.RunWithin (p.play c m).1 := by
  cases m with
  | land l streak time => exact h.track hc l streak time
  | roll l multiplier time source =>
      refine h.of_grows (grows_rollAll p source) ?_
      rw [Progress.play, rollAll_eq]
      rfl
  | unlock path time =>
      refine h.of_grows (p.grows_unlockByHand path time) ?_
      rw [Progress.play, Progress.unlockByHand_eq]
      rfl

end RunWithin

/-! ## all parts together -/

/-- What holds of the parts of progress in any game. -/
structure Progress.Coherent (c : Catalog) (p : Progress) : Prop where
  counted : p.Counted
  latched : p.Latched
  landed : ∀ path n, p.landings.get? path = some n → 1 ≤ n
  runs : ∀ coin ∈ c.coins, coin.RunWithin p

namespace Progress.Coherent

variable {c : Catalog} {p : Progress}

theorem empty (c : Catalog) : Progress.empty.Coherent c where
  counted := .empty
  latched := .empty
  landed path n h := by contradiction
  runs coin _ r _ hlength := .inl hlength

/-- A move lands once more where it lands, and nowhere else. -/
theorem landed_play (h : p.Coherent c) (m : Move) (path : String) (n : Int)
    (hn : (p.play c m).1.landings.get? path = some n) : 1 ≤ n := by
  cases m with
  | land l streak time =>
      have hcount := h.counted.landings l.coin
      rw [Progress.play, landings_track, landings_count] at hn
      by_cases hnone : l.coin = ""
      · rw [if_pos hnone] at hn
        exact h.landed path n hn
      · rw [if_neg hnone, Tally.get?_insert] at hn
        by_cases hpath : path = l.coin
        · rw [if_pos hpath, Option.some.injEq] at hn
          omega
        · rw [if_neg hpath] at hn
          exact h.landed path n hn
  | roll l multiplier time source =>
      rw [Progress.play, rollAll_eq] at hn
      exact h.landed path n hn
  | unlock path time =>
      rw [Progress.play, unlockByHand_eq] at hn
      exact h.landed _ n hn

/-- Every move keeps the parts together. -/
theorem play (h : p.Coherent c) (m : Move) : (p.play c m).1.Coherent c where
  counted := h.counted.play c m
  latched := h.latched.play c m
  landed := h.landed_play m
  runs coin hc := (h.runs coin hc).play hc m

end Progress.Coherent

end CoinToss
