import CoinToss.Proofs.Unlock.Latch
import Mathlib.Data.List.Nodup

/-!
# CoinToss.Proofs.Unlock.Reports

Every unlock is reported exactly once.

Chance coins are told of by their roll and all others by the landing that unlocks them.  Neither
can take the other's place: a roll comes into the sight of chance coins only, and a landing finds
a chance coin unlocked only if it is stamped already.  The latter is an invariant of play:

```
Latched p  =  whoever has been unlocked by chance or by hand, or told of, is stamped
```

* `mem_told_iff_of_latched` — a move tells of the coins it unlocks, unless it unlocks by hand;
* `unlocked_of_reported` — what a run reports was locked before it and is unlocked after it;
* `nodup_reports` — no path is reported twice;
* `reports_exactly_once` — the whole of it, from empty progress.
-/

namespace CoinToss

/-- Coins of one path are the same coin. -/
theorem Catalog.eq_of_path_eq {c : Catalog} {a b : Coin} (ha : a ∈ c.coins) (hb : b ∈ c.coins)
    (h : a.path = b.path) : a = b := List.inj_on_of_nodup_map c.nodup ha hb h

/-! ## the latch -/

/-- Whoever has been unlocked by chance or by hand, or told of, is stamped. -/
structure Progress.Latched (p : Progress) : Prop where
  randomUnlocks : ∀ path, path ∈ p.randomUnlocks → p.stamps.contains path = true
  notified : ∀ path, path ∈ p.notified → p.stamps.contains path = true

namespace Progress.Latched

variable {p q : Progress}

theorem empty : Progress.empty.Latched where
  randomUnlocks path h := absurd h (PathSet.not_mem_empty path)
  notified path h := absurd h (PathSet.not_mem_empty path)

/-- Counters and runs do not matter. -/
theorem of_eq (h : p.Latched) (hr : q.randomUnlocks = p.randomUnlocks) (hs : q.stamps = p.stamps)
    (hn : q.notified = p.notified) : q.Latched where
  randomUnlocks path hp := by
    rw [hs]
    exact h.randomUnlocks path (hr ▸ hp)
  notified path hp := by
    rw [hs]
    exact h.notified path (hn ▸ hp)

/-- A path may be added to the sets if it is stamped along with that. -/
theorem of_stamp {path : String} (h : p.Latched)
    (hs : ∀ other, q.stamps.contains other = (decide (other = path) || p.stamps.contains other))
    (hr : ∀ other, other ∈ q.randomUnlocks → other = path ∨ other ∈ p.randomUnlocks)
    (hn : ∀ other, other ∈ q.notified → other = path ∨ other ∈ p.notified) : q.Latched where
  randomUnlocks other ho := by
    rw [hs, Bool.or_eq_true, decide_eq_true_eq]
    exact (hr other ho).imp_right (h.randomUnlocks other)
  notified other ho := by
    rw [hs, Bool.or_eq_true, decide_eq_true_eq]
    exact (hn other ho).imp_right (h.notified other)

theorem land (h : p.Latched) (c : Catalog) (l : Landing) (streak : Int) :
    (p.land c l streak).1.Latched := by
  rw [land_eq]
  exact h.of_eq (p.randomUnlocks_count l streak) (p.stamps_count l streak)
    (p.notified_count l streak)

theorem settle (h : p.Latched) (known : Known) (before : Coin → Bool) (time : DateTime)
    (coin : Coin) : (p.settle known before time coin).1.Latched := by
  have hstamps := fun other => p.contains_stamps_stamp coin.path other time
  unfold Progress.settle
  split
  · exact h
  · dsimp only
    split
    · refine h.of_stamp hstamps (fun other ho => ?_) fun other ho => ?_
      · rw [stamp_eq] at ho
        exact .inr ho
      · rw [stamp_eq] at ho
        exact PathSet.mem_insert.1 ho
    · refine h.of_stamp hstamps (fun other ho => ?_) fun other ho => ?_
      · rw [stamp_eq] at ho
        exact .inr ho
      · rw [stamp_eq] at ho
        exact .inr ho

theorem unlockByChance (h : p.Latched) (path : String) (time : DateTime) :
    (p.unlockByChance path time).Latched := by
  refine h.of_stamp (fun other => contains_stamps_stamp _ path other time)
    (fun other ho => ?_) fun other ho => ?_
  · rw [Progress.unlockByChance, stamp_eq] at ho
    exact PathSet.mem_insert.1 ho
  · rw [Progress.unlockByChance, stamp_eq] at ho
    exact PathSet.mem_insert.1 ho

theorem unlockByHand (h : p.Latched) (path : String) (time : DateTime) :
    (p.unlockByHand path time).1.Latched := by
  unfold Progress.unlockByHand
  split
  · exact h
  · refine h.of_stamp (fun other => contains_stamps_stamp _ path other time)
      (fun other ho => ?_) fun other ho => ?_
    · rw [stamp_eq] at ho
      exact PathSet.mem_insert.1 ho
    · rw [stamp_eq] at ho
      exact .inr ho

/-- Play keeps the latch. -/
theorem play (h : p.Latched) (c : Catalog) (m : Move) : (p.play c m).1.Latched := by
  cases m with
  | land l streak time =>
      exact sweep_keeps (P := Latched) (fun _ coin _ hq => hq.settle _ _ time coin)
        (h.land c l streak)
  | roll l multiplier time source =>
      exact rollAll_keeps (fun _ coin _ hq => hq.unlockByChance coin.path time) h
  | unlock path time => exact h.unlockByHand path time

end Progress.Latched

/-! ## one move -/

section Step

variable {c : Catalog} {p : Progress} {coin : Coin}

theorem Coin.isSome_unlock_of_locked {known : Known} (h : coin.isUnlocked known p = false) :
    coin.unlock.isSome = true := by
  cases hu : coin.unlock with
  | none => simp [isUnlocked, hu] at h
  | some u => rfl

theorem Coin.isStamped_of_locked {known : Known} (h : coin.isUnlocked known p = false) :
    p.stamps.contains coin.path = false := by
  cases hs : p.stamps.contains coin.path with
  | false => rfl
  | true => rw [isUnlocked_of_stamped hs] at h; contradiction

/-- While the latch holds, a landing cannot unlock a chance coin. -/
theorem isUnlocked_land_of_chance (hp : p.Latched) (l : Landing) (streak : Int)
    (hkind : coin.goalKind = .randomChance) (h : coin.isUnlocked c.known p = false) :
    coin.isUnlocked c.known (p.land c l streak).1 = false := by
  have hsome := Coin.isSome_unlock_of_locked h
  have hlocked := Coin.isStamped_of_locked h
  have hstamps : (p.land c l streak).1.stamps = p.stamps := by
    rw [Progress.land_eq, Progress.stamps_count]
  have hrandom : (p.land c l streak).1.randomUnlocks = p.randomUnlocks := by
    rw [Progress.land_eq, Progress.randomUnlocks_count]
  have hgoal : coin.meetsGoal c.known (p.land c l streak).1 = false := by
    unfold Coin.goalKind at hkind
    unfold Coin.meetsGoal
    cases hg : coin.goal with
    | chance r =>
        rw [Goal.isReached, hrandom]
        cases hm : p.randomUnlocks.contains coin.path with
        | false => rfl
        | true =>
            rw [hp.randomUnlocks coin.path (PathSet.contains_iff.1 hm)] at hlocked
            contradiction
    | _ => simp [hg, Goal.kind] at hkind
  rw [Coin.isUnlocked_eq hsome (by rw [Coin.isStamped, hstamps, hlocked]), hgoal, Bool.and_false]

/-- A landing tells of the coins that were locked and are unlocked after it, and of no others. -/
theorem mem_track_iff (hp : p.Latched) (hc : coin ∈ c.coins) (l : Landing) (streak : Int)
    (time : DateTime) :
    coin ∈ (p.track c l streak time).2.unlocked ↔
      coin.isUnlocked c.known p = false ∧
        coin.isUnlocked c.known (p.track c l streak time).1 = true := by
  rw [Progress.mem_told_iff, Progress.isUnlocked_track hc, Progress.tells]
  constructor
  · rintro ⟨-, -, hland, ht⟩
    simp only [Bool.and_eq_true, Bool.not_eq_true'] at ht
    exact ⟨ht.1.1, hland⟩
  · rintro ⟨hlocked, hland⟩
    refine ⟨hc, Coin.isSome_unlock_of_locked hlocked, hland, ?_⟩
    have hnotified : p.notified.contains coin.path = false := by
      cases hn : p.notified.contains coin.path with
      | false => rfl
      | true =>
          have hstamped := hp.notified coin.path (PathSet.contains_iff.1 hn)
          rw [Coin.isStamped_of_locked hlocked] at hstamped
          contradiction
    have hkind : coin.goalKind ≠ .randomChance := by
      intro hk
      rw [isUnlocked_land_of_chance hp l streak hk hlocked] at hland
      contradiction
    rw [hlocked, hnotified]
    simpa using hkind

/-- A move that does not unlock by hand tells of the coins it unlocks, and of no others. -/
theorem mem_told_iff_of_latched (hp : p.Latched) (hc : coin ∈ c.coins) {m : Move}
    (hm : m.isByHand = false) :
    coin ∈ (p.play c m).2 ↔
      coin.isUnlocked c.known p = false ∧ coin.isUnlocked c.known (p.play c m).1 = true := by
  cases m with
  | land l streak time => exact mem_track_iff hp hc l streak time
  | roll l multiplier time source => exact mem_rollAll_iff p source hc
  | unlock path time => contradiction

/-- What a move tells of was locked before it and is unlocked after it. -/
theorem unlocked_of_told (hp : p.Latched) {m : Move} (h : coin ∈ (p.play c m).2) :
    coin ∈ c.coins ∧ coin.isUnlocked c.known p = false ∧
      coin.isUnlocked c.known (p.play c m).1 = true := by
  have hc : coin ∈ c.coins := (p.play_sublist c m).subset h
  have hm : m.isByHand = false := by
    cases m with
    | unlock path time => simp [Progress.play] at h
    | _ => rfl
  exact ⟨hc, (mem_told_iff_of_latched hp hc hm).1 h⟩

end Step

/-! ## runs of moves -/

/-- All that a run of moves tells of, in order. -/
def Progress.reports (c : Catalog) (p : Progress) (ms : List Move) : List Coin :=
  (p.playAll c ms).2.flatten

section Run

variable {c : Catalog} {p : Progress} {coin : Coin} {m : Move} {ms : List Move}

theorem reports_cons (c : Catalog) (p : Progress) (m : Move) (ms : List Move) :
    p.reports c (m :: ms) = (p.play c m).2 ++ (p.play c m).1.reports c ms := rfl

theorem reports_append (c : Catalog) (p : Progress) (ms ns : List Move) :
    p.reports c (ms ++ ns) = p.reports c ms ++ (p.playAll c ms).1.reports c ns := by
  rw [Progress.reports, Progress.playAll_append, List.flatten_append]
  rfl

/-- A coin that is locked after a move was locked before it. -/
theorem locked_of_locked_play (hc : coin ∈ c.coins)
    (h : coin.isUnlocked c.known (p.play c m).1 = false) : coin.isUnlocked c.known p = false := by
  cases hu : coin.isUnlocked c.known p with
  | false => rfl
  | true => rw [isUnlocked_play hc m hu] at h; contradiction

/-- What a run reports was locked before it and is unlocked after it. -/
theorem unlocked_of_reported (hp : p.Latched) (h : coin ∈ p.reports c ms) :
    coin ∈ c.coins ∧ coin.isUnlocked c.known p = false ∧
      coin.isUnlocked c.known (p.playAll c ms).1 = true := by
  induction ms generalizing p with
  | nil => simp [Progress.reports, Progress.playAll] at h
  | cons m ms ih =>
      rw [reports_cons, List.mem_append] at h
      rw [Progress.playAll_cons]
      rcases h with h | h
      · obtain ⟨hc, hlocked, hunlocked⟩ := unlocked_of_told hp h
        refine ⟨hc, hlocked, ?_⟩
        exact Progress.playAll_keeps (P := fun q => coin.isUnlocked c.known q = true)
          (fun _ n _ hq => isUnlocked_play hc n hq) hunlocked
      · obtain ⟨hc, hlocked, hunlocked⟩ := ih (hp.play c m) h
        exact ⟨hc, locked_of_locked_play hc hlocked, hunlocked⟩

/-- No path is reported twice. -/
theorem nodup_reports (hp : p.Latched) (ms : List Move) :
    ((p.reports c ms).map (·.path)).Nodup := by
  induction ms generalizing p with
  | nil => exact List.nodup_nil
  | cons m ms ih =>
      rw [reports_cons, List.map_append, List.nodup_append]
      refine ⟨c.nodup.sublist ((p.play_sublist c m).map _), ih (hp.play c m), ?_⟩
      intro path hpath other hother
      obtain ⟨a, ha, rfl⟩ := List.mem_map.1 hpath
      obtain ⟨b, hb, rfl⟩ := List.mem_map.1 hother
      obtain ⟨hac, -, hunlocked⟩ := unlocked_of_told hp ha
      obtain ⟨hbc, hlocked, -⟩ := unlocked_of_reported (hp.play c m) hb
      intro hab
      -- told of now, the coin is unlocked; told of later, it would still be locked
      rw [c.eq_of_path_eq hac hbc hab, hlocked] at hunlocked
      contradiction

/-- A run without unlocks by hand reports the coins that were locked before it and are unlocked
after it. -/
theorem reported_of_unlocked (hp : p.Latched) (hc : coin ∈ c.coins)
    (hms : ∀ m ∈ ms, m.isByHand = false) (hlocked : coin.isUnlocked c.known p = false)
    (hunlocked : coin.isUnlocked c.known (p.playAll c ms).1 = true) :
    coin ∈ p.reports c ms := by
  induction ms generalizing p with
  | nil =>
      rw [Progress.playAll, hlocked] at hunlocked
      contradiction
  | cons m ms ih =>
      rw [reports_cons, List.mem_append]
      cases hnext : coin.isUnlocked c.known (p.play c m).1 with
      | true =>
          have hm : m.isByHand = false := hms m List.mem_cons_self
          exact .inl ((mem_told_iff_of_latched hp hc hm).2 ⟨hlocked, hnext⟩)
      | false =>
          have hrest : ∀ n ∈ ms, n.isByHand = false := fun n hn =>
            hms n (List.mem_cons_of_mem m hn)
          exact .inr (ih (hp.play c m) hrest hnext hunlocked)

/-- By hand a path gets stamped, unless that was done before. -/
theorem contains_stamps_play_unlock (hp : p.Latched) (path : String) (time : DateTime) :
    (p.play c (.unlock path time)).1.stamps.contains path = true := by
  unfold Progress.play Progress.unlockByHand
  dsimp only
  split
  · next h => exact hp.randomUnlocks path (PathSet.contains_iff.1 h)
  · rw [Progress.contains_stamps_stamp, decide_eq_true rfl, Bool.true_or]

/-- A coin that is unlocked by hand while it is locked is reported neither before nor after. -/
theorem not_reported_of_byHand (hp : p.Latched) {earlier later : List Move} {time : DateTime}
    (hlocked : coin.isUnlocked c.known (p.playAll c earlier).1 = false) :
    coin ∉ p.reports c (earlier ++ .unlock coin.path time :: later) := by
  have hlatched : (p.playAll c earlier).1.Latched :=
    Progress.playAll_keeps (fun _ m _ hq => hq.play c m) hp
  rw [reports_append, reports_cons, List.mem_append, List.mem_append]
  rintro (h | h | h)
  · rw [(unlocked_of_reported hp h).2.2] at hlocked
    contradiction
  · simp [Progress.play] at h
  · have hstamped := contains_stamps_play_unlock (c := c) hlatched coin.path time
    obtain ⟨-, hlater, -⟩ := unlocked_of_reported (hlatched.play c _) h
    rw [Coin.isUnlocked_of_stamped hstamped] at hlater
    contradiction

/-- What every move of a run tells of comes in the order of the catalog. -/
theorem playAll_sublist (c : Catalog) (p : Progress) (ms : List Move) :
    ∀ told ∈ (p.playAll c ms).2, told.Sublist c.coins := by
  induction ms generalizing p with
  | nil => simp [Progress.playAll]
  | cons m ms ih =>
      rw [Progress.playAll_cons]
      intro told h
      rcases List.mem_cons.1 h with rfl | h
      · exact p.play_sublist c m
      · exact ih _ told h

end Run

/-- Every unlock is reported exactly once.  Over any run of moves from empty progress what is told
of comes in the order of the catalog and no path is reported twice.  Without unlocks by hand a
coin has been reported exactly if it was locked at first and is unlocked now; a coin that is
unlocked by hand while it is locked is never reported. -/
theorem reports_exactly_once (c : Catalog) (ms : List Move) :
    (∀ told ∈ (Progress.empty.playAll c ms).2, told.Sublist c.coins) ∧
      ((Progress.empty.reports c ms).map (·.path)).Nodup ∧
      ((∀ m ∈ ms, m.isByHand = false) → ∀ coin ∈ c.coins,
        (coin ∈ Progress.empty.reports c ms ↔
          coin.isUnlocked c.known .empty = false ∧
            coin.isUnlocked c.known (Progress.empty.playAll c ms).1 = true)) ∧
      ∀ coin ∈ c.coins, ∀ earlier time later, ms = earlier ++ .unlock coin.path time :: later →
        coin.isUnlocked c.known (Progress.empty.playAll c earlier).1 = false →
          coin ∉ Progress.empty.reports c ms := by
  refine ⟨playAll_sublist c .empty ms, nodup_reports .empty ms, ?_, ?_⟩
  · intro hms coin hc
    constructor
    · exact fun h => (unlocked_of_reported .empty h).2
    · exact fun h => reported_of_unlocked .empty hc hms h.1 h.2
  · rintro coin - earlier time later rfl hlocked
    exact not_reported_of_byHand .empty hlocked

/-- A coin for the second flip. -/
def secondFlipCoin : Coin where
  path := "second"
  name := ""
  category := ""
  rarity := none
  unlock := some ⟨.totalFlips 2, [], "", "", .common⟩
  effect := none

/-- The only coin of its catalog. -/
def secondFlipCatalog : Catalog := ⟨[secondFlipCoin], by decide⟩

/-- Two landings. -/
def twoLandings : List Move :=
  [.land ⟨"second", .heads, none, none⟩ 1 firstOfMay,
    .land ⟨"second", .heads, none, none⟩ 2 firstOfMay]

/-- Two landings report the coin; if it is unlocked by hand after the first, they do not. -/
theorem reports_exactly_once_twoLandings :
    (∀ m ∈ twoLandings, m.isByHand = false) ∧ secondFlipCoin ∈ secondFlipCatalog.coins ∧
      secondFlipCoin ∈ Progress.empty.reports secondFlipCatalog twoLandings ∧
      secondFlipCoin ∉ Progress.empty.reports secondFlipCatalog
        (twoLandings.take 1 ++ .unlock secondFlipCoin.path firstOfMay :: twoLandings.drop 1) := by
  have hbyHand : ∀ m ∈ twoLandings, m.isByHand = false := by decide
  have hc : secondFlipCoin ∈ secondFlipCatalog.coins := List.mem_singleton_self _
  refine ⟨hbyHand, hc, ?_, ?_⟩
  · have hplay := (reports_exactly_once secondFlipCatalog twoLandings).2.2.1 hbyHand
    exact (hplay secondFlipCoin hc).2 ⟨by decide, by decide⟩
  · have hhand := (reports_exactly_once secondFlipCatalog (twoLandings.take 1 ++
      .unlock secondFlipCoin.path firstOfMay :: twoLandings.drop 1)).2.2.2
    exact hhand secondFlipCoin hc _ firstOfMay _ rfl (by decide)

end CoinToss
