import CoinToss.Proofs.Progress.Growth
import CoinToss.Proofs.Unlock.Sight

/-!
# CoinToss.Proofs.Unlock.Landing

What recording a landing does to progress, seen from one coin.

A landing is counted, the runs advance, and what is unlocked then is stamped.  Runs and stamps are
swept over in the order of the catalog, but no coin's step comes into the sight of another, so each
coin may be followed on its own:

```
p  --count-->  counted  --advanceRun coin-->  landed  --settle coin-->  tracked
```

* `sight_land`, `sight_track` — the two sweeps, seen from one coin;
* `isUnlocked_track` — settling decides nothing anew;
* `contains_stamps_track` — who is stamped after a landing;
* `mem_told_iff` — who is told of.
-/

namespace CoinToss

theorem PathSet.contains_insert_of_ne (s : PathSet) {path other : String} (h : other ≠ path) :
    (s.insert path).contains other = s.contains other := by
  rw [Bool.eq_iff_iff]
  simp [h]

namespace Progress

/-! ## sights of updates -/

theorem sight_setRun_self (p : Progress) (path : String) (n : Int) :
    (p.setRun path n).sight path = { p.sight path with run := some n } := by
  simp [sight, setRun]

theorem sight_setRun_of_ne (p : Progress) {path other : String} (n : Int) (h : other ≠ path) :
    (p.setRun path n).sight other = p.sight other := by
  simp [sight, setRun, Tally.get?_insert_of_ne _ n h]

@[simp] theorem runLength_setRun (p : Progress) (path : String) (n : Int) :
    (p.setRun path n).runLength path = n := by
  simp [runLength, setRun]

/-- Stamping changes nothing else. -/
theorem stamp_eq (p : Progress) (path : String) (time : DateTime) :
    p.stamp path time = { p with stamps := (p.stamp path time).stamps } := by
  unfold stamp
  split <;> rfl

theorem sight_stamp_self (p : Progress) (path : String) (time : DateTime) :
    (p.stamp path time).sight path =
      { p.sight path with stamp := some ((p.stamps.get? path).getD time) } := by
  unfold stamp
  split
  · next h =>
    obtain ⟨t, ht⟩ := Option.isSome_iff_exists.1 h
    simp [sight, ht]
  · next h =>
    have hnone : p.stamps.get? path = none := by
      simpa [Tally.contains] using h
    simp [sight, hnone]

theorem sight_stamp_of_ne (p : Progress) {path other : String} (time : DateTime)
    (h : other ≠ path) : (p.stamp path time).sight other = p.sight other := by
  unfold stamp
  split
  · rfl
  · simp [sight, Tally.get?_insert_of_ne _ time h]

theorem sight_notify_self (p : Progress) (path : String) :
    ({ p with notified := p.notified.insert path } : Progress).sight path =
      { p.sight path with notified := true } := by
  have hm : (p.notified.insert path).contains path = true := by simp
  simp [sight, hm]

theorem sight_notify_of_ne (p : Progress) {path other : String} (h : other ≠ path) :
    ({ p with notified := p.notified.insert path } : Progress).sight other = p.sight other := by
  simp [sight, PathSet.contains_insert_of_ne _ h]

/-! ## counters -/

section Count

variable (p : Progress) (l : Landing) (streak : Int)

@[simp] theorem totalFlips_count : (p.count l streak).totalFlips = p.totalFlips + 1 := by
  unfold count recordStreak
  cases l.side <;> dsimp only <;> split <;> rfl

@[simp] theorem headsFlips_count :
    (p.count l streak).headsFlips = p.headsFlips + if l.side = .heads then 1 else 0 := by
  unfold count recordStreak
  cases l.side <;> dsimp only <;> split <;> simp

@[simp] theorem tailsFlips_count :
    (p.count l streak).tailsFlips = p.tailsFlips + if l.side = .tails then 1 else 0 := by
  unfold count recordStreak
  cases l.side <;> dsimp only <;> split <;> simp

/-- A landing measures the longest streak of its side, and that of either side. -/
@[simp] theorem longestOn_count (side : Option Side) :
    (p.count l streak).longestOn side =
      if side.all (· == l.side) then max (p.longestOn side) streak else p.longestOn side := by
  unfold count recordStreak
  cases l.side <;> rcases side with _ | _ | _ <;> dsimp only <;> split <;> rfl

@[simp] theorem landings_count :
    (p.count l streak).landings =
      if l.coin = "" then p.landings else p.landings.insert l.coin (p.landCount l.coin + 1) := by
  unfold count recordStreak landCount
  cases l.side <;> dsimp only <;> split <;> rfl

/-- A landing counts for the coin it shows; the empty path shows none. -/
theorem landCount_count (path : String) :
    (p.count l streak).landCount path =
      if path = l.coin ∧ path ≠ "" then p.landCount path + 1 else p.landCount path := by
  rw [landCount, landings_count]
  by_cases he : l.coin = ""
  · have hnot : ¬(path = l.coin ∧ path ≠ "") := fun h => h.2 (h.1.trans he)
    rw [if_pos he, if_neg hnot, landCount]
  · rw [if_neg he, Tally.get?_insert]
    by_cases hp : path = l.coin
    · subst hp
      rw [if_pos rfl, if_pos ⟨rfl, he⟩, Option.getD_some]
    · rw [if_neg hp, if_neg fun h => hp h.1, landCount]

@[simp] theorem randomUnlocks_count : (p.count l streak).randomUnlocks = p.randomUnlocks := by
  unfold count recordStreak
  cases l.side <;> dsimp only <;> split <;> rfl

@[simp] theorem stamps_count : (p.count l streak).stamps = p.stamps := by
  unfold count recordStreak
  cases l.side <;> dsimp only <;> split <;> rfl

@[simp] theorem notified_count : (p.count l streak).notified = p.notified := by
  unfold count recordStreak
  cases l.side <;> dsimp only <;> split <;> rfl

@[simp] theorem runs_count : (p.count l streak).runs = p.runs := by
  unfold count recordStreak
  cases l.side <;> dsimp only <;> split <;> rfl

@[simp] theorem runLength_count (path : String) :
    (p.count l streak).runLength path = p.runLength path := by
  rw [runLength, runs_count, runLength]

end Count

/-! ## runs -/

/-- Advancing one coin's run stays in the sight of that coin. -/
theorem advanceRun_local (c : Catalog) (l : Landing) :
    Local Coin.path Progress.sight (Progress.advanceRun c l) where
  elsewhere p coin other hne := by
    unfold advanceRun
    split
    · split
      · rfl
      · split
        · exact sight_setRun_of_ne p 0 hne
        · split
          · exact sight_setRun_of_ne p _ hne
          · exact sight_setRun_of_ne p 0 hne
    · rfl
  here p q coin h := by
    unfold advanceRun
    rw [Coin.isUnlocked_congr c.known h, Coin.meetsPrerequisites_congr c.known h,
      runLength_congr h]
    split
    · split
      · exact h
      · split
        · rw [sight_setRun_self, sight_setRun_self, h]
        · split
          · rw [sight_setRun_self, sight_setRun_self, h]
          · rw [sight_setRun_self, sight_setRun_self, h]
    · exact h
  yields p q coin h := by
    unfold advanceRun
    rw [Coin.isUnlocked_congr c.known h, Coin.meetsPrerequisites_congr c.known h,
      runLength_congr h]
    split
    · split
      · rfl
      · split
        · rfl
        · split <;> rfl
    · rfl

/-- The run of an unlocked coin stands. -/
theorem advanceRun_of_unlocked {c : Catalog} {l : Landing} {p : Progress} {coin : Coin}
    (h : coin.isUnlocked c.known p = true) : (p.advanceRun c l coin).1 = p := by
  unfold advanceRun
  split
  · rw [if_pos h]
  · rfl

/-- A coin's run stands, breaks or, with the prerequisites met, goes on. -/
theorem runLength_advanceRun_cases (c : Catalog) (l : Landing) (p : Progress) (coin : Coin) :
    (p.advanceRun c l coin).1.runLength coin.path = p.runLength coin.path ∨
      (p.advanceRun c l coin).1.runLength coin.path = 0 ∨
        (coin.meetsPrerequisites c.known p = true ∧
          (p.advanceRun c l coin).1.runLength coin.path = p.runLength coin.path + 1) := by
  unfold advanceRun
  split
  · split
    · exact .inl rfl
    · cases hm : coin.meetsPrerequisites c.known p with
      | false => exact .inr (.inl (runLength_setRun p coin.path 0))
      | true =>
          split
          · contradiction
          · split
            · exact .inr (.inr ⟨rfl, runLength_setRun p coin.path _⟩)
            · exact .inr (.inl (runLength_setRun p coin.path 0))
  · exact .inl rfl

/-- Only the runs change. -/
theorem advanceRun_eq (c : Catalog) (l : Landing) (p : Progress) (coin : Coin) :
    (p.advanceRun c l coin).1 = { p with runs := (p.advanceRun c l coin).1.runs } := by
  unfold advanceRun
  split
  · split
    · rfl
    · split
      · rfl
      · split <;> rfl
  · rfl

/-! ## landings -/

section Land

variable {c : Catalog} {p : Progress} {l : Landing} {streak : Int} {coin : Coin}

/-- After a landing a coin sees its own run advanced. -/
theorem sight_land (hc : coin ∈ c.coins) :
    (p.land c l streak).1.sight coin.path =
      ((p.count l streak).advanceRun c l coin).1.sight coin.path :=
  (advanceRun_local c l).view_sweep_of_mem (p.count l streak) c.nodup hc

/-- Moving the runs changes nothing else. -/
theorem land_eq (c : Catalog) (p : Progress) (l : Landing) (streak : Int) :
    (p.land c l streak).1 = { p.count l streak with runs := (p.land c l streak).1.runs } := by
  have hkeep : ∀ q : Progress, ∀ coin ∈ c.coins,
      q = { p.count l streak with runs := q.runs } →
        (q.advanceRun c l coin).1 =
          { p.count l streak with runs := (q.advanceRun c l coin).1.runs } := by
    intro q coin _ hq
    rw [advanceRun_eq, hq]
  exact sweep_keeps (P := fun q : Progress => q = { p.count l streak with runs := q.runs })
    hkeep rfl

theorem grows_land (c : Catalog) (p : Progress) (l : Landing) (streak : Int) :
    p.Grows (p.land c l streak).1 := by
  rw [land_eq]
  exact (p.grows_count l streak).trans (grows_runs _ _)

/-! ## stamps and reports -/

theorem settle_of_locked {known : Known} {before : Coin → Bool} {time : DateTime}
    (h : (coin.unlock.isNone || !coin.isUnlocked known p) = true) :
    p.settle known before time coin = (p, none) := by
  rw [settle, if_pos h]

theorem settle_of_unlocked {known : Known} {before : Coin → Bool} {time : DateTime}
    (hu : coin.unlock.isSome = true) (h : coin.isUnlocked known p = true) :
    p.settle known before time coin =
      if p.tells before coin then
        ({ p.stamp coin.path time with
            notified := (p.stamp coin.path time).notified.insert coin.path }, some coin)
      else (p.stamp coin.path time, none) := by
  have hnone : coin.unlock.isNone = false := Option.isNone_eq_false_iff.2 hu
  have hf : (coin.unlock.isNone || !coin.isUnlocked known p) = false := by
    rw [hnone, h]
    rfl
  rw [settle, if_neg (by rw [hf]; decide)]

/-- Settling one coin stays in the sight of that coin. -/
theorem settle_local (known : Known) (before : Coin → Bool) (time : DateTime) :
    Local Coin.path Progress.sight (Progress.settle known before time) where
  elsewhere p coin other hne := by
    unfold settle
    split
    · rfl
    · dsimp only
      split
      · rw [sight_notify_of_ne _ hne, sight_stamp_of_ne p time hne]
      · exact sight_stamp_of_ne p time hne
  here p q coin h := by
    have hstamp : p.stamps.get? coin.path = q.stamps.get? coin.path := congrArg Sight.stamp h
    have hnotified : p.notified.contains coin.path = q.notified.contains coin.path :=
      congrArg Sight.notified h
    unfold settle tells
    rw [Coin.isUnlocked_congr known h, hnotified]
    split
    · exact h
    · dsimp only
      split
      · rw [sight_notify_self, sight_notify_self, sight_stamp_self, sight_stamp_self, h, hstamp]
      · rw [sight_stamp_self, sight_stamp_self, h, hstamp]
  yields p q coin h := by
    have hnotified : p.notified.contains coin.path = q.notified.contains coin.path :=
      congrArg Sight.notified h
    unfold settle tells
    rw [Coin.isUnlocked_congr known h, hnotified]
    split
    · rfl
    · dsimp only
      split <;> rfl

/-- Settling stamps a coin that has a condition and is unlocked. -/
theorem contains_stamps_settle (known : Known) (before : Coin → Bool) (time : DateTime)
    (p : Progress) (coin : Coin) :
    (p.settle known before time coin).1.stamps.contains coin.path =
      (p.stamps.contains coin.path || (coin.unlock.isSome && coin.isUnlocked known p)) := by
  cases hu : coin.unlock.isSome with
  | false =>
      have hnone : coin.unlock.isNone = true := by
        rwa [← Option.not_isSome, Bool.not_eq_true']
      rw [settle_of_locked (by rw [hnone, Bool.true_or]), Bool.false_and, Bool.or_false]
  | true =>
      cases h : coin.isUnlocked known p with
      | false => rw [settle_of_locked (by rw [h]; simp), Bool.and_false, Bool.or_false]
      | true =>
          rw [settle_of_unlocked hu h]
          split <;> simp

/-- Settling a coin decides nothing anew: what it finds unlocked, it stamps. -/
theorem isUnlocked_settle (known : Known) (before : Coin → Bool) (time : DateTime) (p : Progress)
    (coin : Coin) : coin.isUnlocked known (p.settle known before time coin).1 =
      coin.isUnlocked known p := by
  by_cases hl : (coin.unlock.isNone || !coin.isUnlocked known p) = true
  · rw [settle_of_locked hl]
  · simp only [Bool.or_eq_true, Bool.not_eq_true', not_or, Option.isNone_iff_eq_none,
      Bool.not_eq_false] at hl
    have hu : coin.unlock.isSome = true := Option.isSome_iff_ne_none.2 hl.1
    have hstamped : coin.isStamped (p.settle known before time coin).1 = true := by
      rw [Coin.isStamped, contains_stamps_settle, hu, hl.2, Bool.and_self, Bool.or_true]
    rw [Coin.isUnlocked_of_stamped hstamped, hl.2]

/-- Only stamps and reports change. -/
theorem settle_eq (known : Known) (before : Coin → Bool) (time : DateTime) (p : Progress)
    (coin : Coin) : (p.settle known before time coin).1 =
      { p with
        stamps := (p.settle known before time coin).1.stamps
        notified := (p.settle known before time coin).1.notified } := by
  unfold settle
  split
  · rfl
  · dsimp only
    split
    · rw [stamp_eq]
    · rw [stamp_eq]

theorem grows_settle (known : Known) (before : Coin → Bool) (time : DateTime) (p : Progress)
    (coin : Coin) : p.Grows (p.settle known before time coin).1 := by
  have hstamp := p.grows_stamp coin.path time
  unfold settle
  split
  · exact Grows.refl p
  · dsimp only
    split
    · refine hstamp.trans (grows_sets _ (fun path h => h) fun path h => ?_)
      exact PathSet.mem_insert.2 (.inr h)
    · exact hstamp

/-! ## the whole record -/

variable {time : DateTime}

/-- After a landing is recorded a coin sees its own stamp settled. -/
theorem sight_track (hc : coin ∈ c.coins) :
    (p.track c l streak time).1.sight coin.path =
      ((p.land c l streak).1.settle c.known (Coin.isUnlocked c.known p) time coin).1.sight
        coin.path :=
  (settle_local _ _ _).view_sweep_of_mem (p.land c l streak).1 c.nodup hc

/-- Stamping and telling change nothing else. -/
theorem track_eq (c : Catalog) (p : Progress) (l : Landing) (streak : Int) (time : DateTime) :
    (p.track c l streak time).1 =
      { (p.land c l streak).1 with
        stamps := (p.track c l streak time).1.stamps
        notified := (p.track c l streak time).1.notified } := by
  refine sweep_keeps (P := fun q : Progress =>
    q = { (p.land c l streak).1 with stamps := q.stamps, notified := q.notified }) ?_ rfl
  intro q coin _ hq
  rw [settle_eq, hq]

theorem grows_track (c : Catalog) (p : Progress) (l : Landing) (streak : Int) (time : DateTime) :
    p.Grows (p.track c l streak time).1 := by
  refine (grows_land c p l streak).trans ?_
  exact sweep_keeps (P := (p.land c l streak).1.Grows)
    (fun q coin _ hq => hq.trans (grows_settle _ _ _ q coin)) (Grows.refl _)

/-- A coin is unlocked after a landing exactly if it is once the runs have moved. -/
theorem isUnlocked_track (hc : coin ∈ c.coins) :
    coin.isUnlocked c.known (p.track c l streak time).1 =
      coin.isUnlocked c.known (p.land c l streak).1 := by
  rw [Coin.isUnlocked_congr c.known (sight_track hc), isUnlocked_settle]

theorem landings_track (c : Catalog) (p : Progress) (l : Landing) (streak : Int)
    (time : DateTime) : (p.track c l streak time).1.landings = (p.count l streak).landings := by
  rw [track_eq, land_eq]

/-- After a landing a coin is stamped if it was, or if it has a condition and is unlocked now. -/
theorem contains_stamps_track (hc : coin ∈ c.coins) :
    (p.track c l streak time).1.stamps.contains coin.path =
      (p.stamps.contains coin.path ||
        (coin.unlock.isSome && coin.isUnlocked c.known (p.land c l streak).1)) := by
  have hstamps : (p.land c l streak).1.stamps = p.stamps := by
    rw [land_eq, stamps_count]
  rw [contains_stamps_congr (sight_track hc), contains_stamps_settle, hstamps]

/-- Told of are the coins, but for chance coins, that are unlocked once the runs have moved, were
not before and have not been told of yet. -/
theorem mem_told_iff : coin ∈ (p.track c l streak time).2.unlocked ↔
    coin ∈ c.coins ∧ coin.unlock.isSome = true ∧
      coin.isUnlocked c.known (p.land c l streak).1 = true ∧
        p.tells (Coin.isUnlocked c.known p) coin = true := by
  have hnotified : (p.land c l streak).1.notified = p.notified := by
    rw [land_eq, notified_count]
  have htells : (p.land c l streak).1.tells (Coin.isUnlocked c.known p) =
      p.tells (Coin.isUnlocked c.known p) := by
    funext coin
    rw [tells, hnotified, tells]
  have hsweep := (settle_local c.known (Coin.isUnlocked c.known p) time).mem_sweep_iff
    (p.land c l streak).1 c.nodup coin
  refine hsweep.trans ?_
  constructor
  · rintro ⟨d, hd, hyield⟩
    by_cases hl : (d.unlock.isNone || !d.isUnlocked c.known (p.land c l streak).1) = true
    · rw [settle_of_locked hl] at hyield
      contradiction
    · simp only [Bool.or_eq_true, Bool.not_eq_true', not_or, Option.isNone_iff_eq_none,
        Bool.not_eq_false] at hl
      have hu : d.unlock.isSome = true := Option.isSome_iff_ne_none.2 hl.1
      rw [settle_of_unlocked hu hl.2, htells] at hyield
      split at hyield
      · next ht =>
        rw [← Option.some.inj hyield]
        exact ⟨hd, hu, hl.2, ht⟩
      · contradiction
  · rintro ⟨hc, hu, hl, ht⟩
    refine ⟨coin, hc, ?_⟩
    rw [settle_of_unlocked hu hl, htells, if_pos ht]

/-- What is told of comes in the order of the catalog. -/
theorem told_sublist (c : Catalog) (p : Progress) (l : Landing) (streak : Int)
    (time : DateTime) : (p.track c l streak time).2.unlocked.Sublist c.coins := by
  refine sublist_sweep (fun q d e he => ?_) _ c.coins
  unfold settle at he
  split at he
  · contradiction
  · dsimp only at he
    split at he
    · exact (Option.some.inj he).symm
    · contradiction

end Land

end Progress

end CoinToss
