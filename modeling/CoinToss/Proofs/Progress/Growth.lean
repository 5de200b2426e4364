import CoinToss.Unlock.Roll
import CoinToss.Unlock.Track

/-!
# CoinToss.Proofs.Progress.Growth

Progress only grows, the runs apart.

`p.Grows q` says that `q` holds all that `p` held: no counter is smaller, no member and no entry
is gone, no stamp is changed.  The runs are left out, for they drop to zero when broken.

* `Goal.isReached_mono` — what has been reached stays reached, if the owner's run is not shorter;
* `grows_count`, `grows_runs`, `grows_stamp`, … — each update of progress lets it grow.
-/

namespace CoinToss

/-- Nothing of what only grows has become less or has got lost. -/
structure Progress.Grows (p q : Progress) : Prop where
  totalFlips : p.totalFlips ≤ q.totalFlips
  headsFlips : p.headsFlips ≤ q.headsFlips
  tailsFlips : p.tailsFlips ≤ q.tailsFlips
  longestOn : ∀ side, p.longestOn side ≤ q.longestOn side
  landCount : ∀ path, p.landCount path ≤ q.landCount path
  landed : ∀ path, p.landings.contains path = true → q.landings.contains path = true
  randomUnlocks : ∀ path, path ∈ p.randomUnlocks → path ∈ q.randomUnlocks
  stamps : ∀ path time, p.stamps.get? path = some time → q.stamps.get? path = some time
  notified : ∀ path, path ∈ p.notified → path ∈ q.notified

namespace Progress.Grows

variable {p q r : Progress}

theorem refl (p : Progress) : p.Grows p where
  totalFlips := Int.le_refl _
  headsFlips := Int.le_refl _
  tailsFlips := Int.le_refl _
  longestOn _ := Int.le_refl _
  landCount _ := Int.le_refl _
  landed _ h := h
  randomUnlocks _ h := h
  stamps _ _ h := h
  notified _ h := h

theorem trans (h : p.Grows q) (k : q.Grows r) : p.Grows r where
  totalFlips := Int.le_trans h.totalFlips k.totalFlips
  headsFlips := Int.le_trans h.headsFlips k.headsFlips
  tailsFlips := Int.le_trans h.tailsFlips k.tailsFlips
  longestOn side := Int.le_trans (h.longestOn side) (k.longestOn side)
  landCount path := Int.le_trans (h.landCount path) (k.landCount path)
  landed path hp := k.landed path (h.landed path hp)
  randomUnlocks path hp := k.randomUnlocks path (h.randomUnlocks path hp)
  stamps path time hp := k.stamps path time (h.stamps path time hp)
  notified path hp := k.notified path (h.notified path hp)

/-- A stamped path stays stamped. -/
theorem contains_stamps (h : p.Grows q) {path : String} (hp : p.stamps.contains path = true) :
    q.stamps.contains path = true := by
  obtain ⟨time, ht⟩ := Option.isSome_iff_exists.1 hp
  exact Option.isSome_iff_exists.2 ⟨time, h.stamps path time ht⟩

end Progress.Grows

/-! ## what grows stays reached -/

section Mono

variable {p q : Progress}

/-- What has been reached stays reached. -/
theorem Goal.isReached_mono {known : Known} {owner : String} (h : p.Grows q)
    (hrun : p.runLength owner ≤ q.runLength owner) {g : Goal}
    (hg : g.isReached known owner p = true) : g.isReached known owner q = true := by
  cases g with
  | none => rfl
  | totalFlips n =>
      simp only [isReached, decide_eq_true_eq] at hg ⊢
      exact Int.le_trans hg h.totalFlips
  | headsFlips n =>
      simp only [isReached, decide_eq_true_eq] at hg ⊢
      exact Int.le_trans hg h.headsFlips
  | tailsFlips n =>
      simp only [isReached, decide_eq_true_eq] at hg ⊢
      exact Int.le_trans hg h.tailsFlips
  | streak side n =>
      simp only [isReached, decide_eq_true_eq] at hg ⊢
      exact Int.le_trans hg (h.longestOn side)
  | landOnCoin coin n =>
      cases coin with
      | none => exact hg
      | some path =>
          simp only [isReached, Bool.and_eq_true, decide_eq_true_eq] at hg ⊢
          exact ⟨hg.1, Int.le_trans hg.2 (h.landCount path)⟩
  | landOnCoins l =>
      simp only [isReached, Bool.and_eq_true, List.all_eq_true, decide_eq_true_eq] at hg ⊢
      exact ⟨hg.1, fun path hp => Int.le_trans (hg.2 path hp) (h.landCount path)⟩
  | chance r =>
      simp only [isReached, PathSet.contains_iff] at hg ⊢
      exact h.randomUnlocks owner hg
  | run r =>
      simp only [isReached, Bool.and_eq_true, decide_eq_true_eq] at hg ⊢
      exact ⟨hg.1, Int.le_trans hg.2 hrun⟩

/-- Prerequisites that are met stay met while the run is not broken. -/
theorem Coin.meetsPrerequisites_mono {known : Known} {coin : Coin} (h : p.Grows q)
    (hrun : p.runLength coin.path ≤ q.runLength coin.path)
    (hm : coin.meetsPrerequisites known p = true) : coin.meetsPrerequisites known q = true := by
  simp only [meetsPrerequisites, List.all_eq_true] at hm ⊢
  exact fun g hg => Goal.isReached_mono h hrun (hm g hg)

/-- An unlocked coin stays unlocked while its run is not broken. -/
theorem Coin.isUnlocked_mono {known : Known} {coin : Coin} (h : p.Grows q)
    (hrun : p.runLength coin.path ≤ q.runLength coin.path) (hu : coin.isUnlocked known p = true) :
    coin.isUnlocked known q = true := by
  simp only [isUnlocked, Bool.or_eq_true, Bool.and_eq_true] at hu ⊢
  rcases hu with (hnone | hstamped) | ⟨hpre, hgoal⟩
  · exact .inl (.inl hnone)
  · exact .inl (.inr (h.contains_stamps hstamped))
  · exact .inr ⟨meetsPrerequisites_mono h hrun hpre, Goal.isReached_mono h hrun hgoal⟩

/-- An unlocked coin stays unlocked while no run changes. -/
theorem Coin.isUnlocked_of_runs {known : Known} {coin : Coin} (h : p.Grows q)
    (hruns : q.runs = p.runs) (hu : coin.isUnlocked known p = true) :
    coin.isUnlocked known q = true := by
  refine isUnlocked_mono h (Int.le_of_eq ?_) hu
  rw [Progress.runLength, Progress.runLength, hruns]

end Mono

/-! ## updates -/

namespace Progress

/-- The runs do not matter. -/
theorem grows_runs (p : Progress) (runs : Tally Int) : p.Grows { p with runs := runs } :=
  { Grows.refl p with }

theorem grows_stamp (p : Progress) (path : String) (time : DateTime) :
    p.Grows (p.stamp path time) := by
  unfold stamp
  split
  · exact Grows.refl p
  · next hnew =>
    have hstamps : ∀ other t, p.stamps.get? other = some t →
        (p.stamps.insert path time).get? other = some t := by
      intro other t ht
      have hne : other ≠ path := by
        rintro rfl
        simp [Tally.contains, ht] at hnew
      rw [p.stamps.get?_insert_of_ne time hne, ht]
    exact { Grows.refl p with stamps := hstamps }

/-- Members may be added to the sets. -/
theorem grows_sets (p : Progress) {random told : PathSet}
    (hr : ∀ path, path ∈ p.randomUnlocks → path ∈ random)
    (ht : ∀ path, path ∈ p.notified → path ∈ told) :
    p.Grows { p with randomUnlocks := random, notified := told } :=
  { Grows.refl p with randomUnlocks := hr, notified := ht }

theorem longestOn_le_recordStreak (p : Progress) (streak : Int) (side : Side)
    (other : Option Side) : p.longestOn other ≤ (p.recordStreak streak side).longestOn other := by
  cases side <;> rcases other with _ | _ | _ <;> simp only [recordStreak, longestOn] <;> omega

theorem grows_recordStreak (p : Progress) (streak : Int) (side : Side) :
    p.Grows (p.recordStreak streak side) := by
  have hlongest := p.longestOn_le_recordStreak streak side
  cases side <;> exact { Grows.refl p with longestOn := hlongest }

/-- One more landing on a coin. -/
theorem grows_landOn (p : Progress) (path : String) :
    p.Grows { p with landings := p.landings.insert path (p.landCount path + 1) } := by
  have hcount : ∀ other, p.landCount other ≤
      ((p.landings.insert path (p.landCount path + 1)).get? other).getD 0 := by
    intro other
    rw [Tally.get?_insert]
    split
    · next e =>
      rw [e, Option.getD_some]
      omega
    · exact Int.le_refl _
  have hlanded : ∀ other, p.landings.contains other = true →
      (p.landings.insert path (p.landCount path + 1)).contains other = true := by
    intro other h
    rw [Tally.contains_insert, h, Bool.or_true]
  exact { Grows.refl p with landCount := hcount, landed := hlanded }

/-- Counting a landing lets progress grow. -/
theorem grows_count (p : Progress) (l : Landing) (streak : Int) : p.Grows (p.count l streak) := by
  have hflips : p.Grows { p with totalFlips := p.totalFlips + 1 } :=
    { Grows.refl p with totalFlips := Int.le_add_one (Int.le_refl _) }
  have hheads (q : Progress) : q.Grows { q with headsFlips := q.headsFlips + 1 } :=
    { Grows.refl q with headsFlips := Int.le_add_one (Int.le_refl _) }
  have htails (q : Progress) : q.Grows { q with tailsFlips := q.tailsFlips + 1 } :=
    { Grows.refl q with tailsFlips := Int.le_add_one (Int.le_refl _) }
  unfold count
  cases l.side with
  | heads =>
      have h := (hflips.trans (hheads _)).trans (grows_recordStreak _ streak .heads)
      dsimp only
      split
      · exact h
      · exact h.trans (grows_landOn _ l.coin)
  | tails =>
      have h := (hflips.trans (htails _)).trans (grows_recordStreak _ streak .tails)
      dsimp only
      split
      · exact h
      · exact h.trans (grows_landOn _ l.coin)

end Progress

end CoinToss
