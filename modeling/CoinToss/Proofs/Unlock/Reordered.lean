import CoinToss.Proofs.Catalog.Audit
import CoinToss.Proofs.Catalog.Reordered
import CoinToss.Proofs.Unlock.Landing

/-!
# CoinToss.Proofs.Unlock.Reordered

Recording a landing over the same coins in another order.

The two sweeps of a landing go through the coins in another order then, but no coin's step comes
into the sight of another: each path sees the same before and after, whichever coins have had their
turn.  What a landing leaves is therefore the same, but for the order in which stamps and runs came
in, and what it tells of are the same coins, each catalog's in its own order.

* `Progress.Same` — progress that says the same;
* `advanceRun_reordered`, `settle_reordered` — the steps of one coin;
* `sight_land_reordered`, `sight_track_reordered` — the sweeps, seen from any path;
* `track_of_perm` — the coins of a list, in whatever order.
-/

namespace CoinToss

/-- Progress that says the same, whatever came in first. -/
structure Progress.Same (p q : Progress) : Prop where
  totalFlips : p.totalFlips = q.totalFlips
  headsFlips : p.headsFlips = q.headsFlips
  tailsFlips : p.tailsFlips = q.tailsFlips
  longestStreak : p.longestStreak = q.longestStreak
  longestHeads : p.longestHeads = q.longestHeads
  longestTails : p.longestTails = q.longestTails
  landings : p.landings.Same q.landings
  randomUnlocks : p.randomUnlocks = q.randomUnlocks
  stamps : p.stamps.Same q.stamps
  notified : p.notified = q.notified
  runs : p.runs.Same q.runs

/-- Sets that contain the same paths are equal. -/
theorem PathSet.ext_contains {s t : PathSet} (h : ∀ path, s.contains path = t.contains path) :
    s = t :=
  ext_mem fun path => by rw [← contains_iff, h, contains_iff]

namespace Progress

/-- Progress that every path sees alike says the same. -/
theorem Same.of_sight {p q : Progress} (h : ∀ path, p.sight path = q.sight path) : p.Same q where
  totalFlips := congrArg Sight.totalFlips (h "")
  headsFlips := congrArg Sight.headsFlips (h "")
  tailsFlips := congrArg Sight.tailsFlips (h "")
  longestStreak := congrArg Sight.longestStreak (h "")
  longestHeads := congrArg Sight.longestHeads (h "")
  longestTails := congrArg Sight.longestTails (h "")
  landings path := by
    have hlandings : p.landings = q.landings := congrArg Sight.landings (h "")
    rw [hlandings]
  randomUnlocks := PathSet.ext_contains fun path => congrArg Sight.randomUnlock (h path)
  stamps path := congrArg Sight.stamp (h path)
  notified := PathSet.ext_contains fun path => congrArg Sight.notified (h path)
  runs path := congrArg Sight.run (h path)

variable {c d : Catalog} {p : Progress} {l : Landing} {streak : Int} {time : DateTime} {a b : Coin}

/-! ## one coin -/

/-- Reordered coins advance the same run. -/
theorem advanceRun_reordered (h : c.Reordered d) (hab : a.Reordered b) (l : Landing)
    (p : Progress) : p.advanceRun c l a = p.advanceRun d l b := by
  unfold advanceRun
  rw [hab.isUnlocked, hab.meetsPrerequisites, hab.path, h.known]
  obtain ⟨hgoal, -⟩ := hab
  generalize a.goal = g at hgoal ⊢
  generalize b.goal = g' at hgoal ⊢
  cases hgoal with
  | list => rfl
  | same =>
      cases g with
      | run r => simp only [h.matchesLanding]
      | _ => rfl

/-- Reordered coins are stamped alike, and told of alike. -/
theorem settle_reordered (hab : a.Reordered b) (known : Known) {before earlier : Coin → Bool}
    (hbefore : before a = earlier b) (time : DateTime) (p : Progress) :
    p.settle known earlier time b =
      ((p.settle known before time a).1, (p.settle known before time a).2.map fun _ => b) := by
  have htells : p.tells before a = p.tells earlier b := by
    rw [tells, hbefore, hab.path, hab.goalKind, tells]
  simp only [settle, hab.isNone_unlock, hab.isUnlocked, htells, hab.path]
  split
  · rfl
  · split <;> rfl

/-! ## landings -/

/-- A path sees the same once the runs have moved. -/
theorem sight_land_reordered (h : c.Reordered d) (p : Progress) (l : Landing) (streak : Int)
    (path : String) :
    (p.land c l streak).1.sight path = (p.land d l streak).1.sight path := by
  obtain ⟨hc, hd⟩ | ⟨a, b, hc, hd, hab⟩ := h.get?_cases path
  · have hnot {e : Catalog} (he : e.get? path = none) :
        (p.land e l streak).1.sight path = (p.count l streak).sight path :=
      view_sweep_of_notMem (advanceRun_local e l).elsewhere _ (Catalog.notMem_of_get?_eq_none he)
    rw [hnot hc, hnot hd]
  · obtain rfl := Catalog.get?_path hc
    rw [sight_land (List.mem_of_find?_eq_some hc), advanceRun_reordered h hab, hab.path,
      sight_land (List.mem_of_find?_eq_some hd)]

/-- And once the landing is recorded. -/
theorem sight_track_reordered (h : c.Reordered d) (p : Progress) (l : Landing) (streak : Int)
    (time : DateTime) (path : String) :
    (p.track c l streak time).1.sight path = (p.track d l streak time).1.sight path := by
  obtain ⟨hc, hd⟩ | ⟨a, b, hc, hd, hab⟩ := h.get?_cases path
  · have hnot {e : Catalog} (he : e.get? path = none) :
        (p.track e l streak time).1.sight path = (p.land e l streak).1.sight path :=
      view_sweep_of_notMem (settle_local e.known _ time).elsewhere _
        (Catalog.notMem_of_get?_eq_none he)
    rw [hnot hc, hnot hd, sight_land_reordered h]
  · have hbefore : a.isUnlocked c.known p = b.isUnlocked d.known p := by
      rw [hab.isUnlocked, h.known]
    obtain rfl := Catalog.get?_path hc
    rw [sight_track (List.mem_of_find?_eq_some hc), hab.path,
      sight_track (List.mem_of_find?_eq_some hd), settle_reordered hab d.known hbefore, h.known,
      ← hab.path]
    exact (settle_local _ _ time).here _ _ a (sight_land_reordered h p l streak a.path)

/-- Of reordered coins both are told of, or neither. -/
theorem mem_told_reordered (h : c.Reordered d) (hab : a.Reordered b) (ha : a ∈ c.coins)
    (hb : b ∈ d.coins) :
    a ∈ (p.track c l streak time).2.unlocked ↔ b ∈ (p.track d l streak time).2.unlocked := by
  have hunlocked : a.isUnlocked c.known (p.land c l streak).1 =
      b.isUnlocked d.known (p.land d l streak).1 := by
    rw [Coin.isUnlocked_congr c.known (sight_land_reordered h p l streak a.path), hab.isUnlocked,
      h.known]
  have htells : p.tells (Coin.isUnlocked c.known p) a = p.tells (Coin.isUnlocked d.known p) b := by
    rw [tells, hab.isUnlocked, h.known, hab.path, hab.goalKind, tells]
  have hunlock : a.unlock.isSome = b.unlock.isSome := by
    rw [← Option.not_isNone, hab.isNone_unlock, Option.not_isNone]
  rw [mem_told_iff, mem_told_iff, hunlocked, htells, hunlock]
  exact and_congr_left' (iff_of_true ha hb)

end Progress

/-! ## coins in another order -/

/-- Recording a landing over coins with different paths does not depend on the order in which they
are listed: the same is left, and the same coins are told of, each catalog's in its own order, but
that a dynamic list of theirs is in that order too. -/
theorem track_of_perm {coins more : List Coin} (hpaths : (coins.map (·.path)).Nodup)
    (horder : coins.Perm more) (p : Progress) (l : Landing) (streak : Int) (time : DateTime) :
    let c := Catalog.ofCoins coins
    let d := Catalog.ofCoins more
    let (q, told) := p.track c l streak time
    let (r, retold) := p.track d l streak time
    q.Same r ∧ (told.unlocked.Sublist c.coins ∧ retold.unlocked.Sublist d.coins) ∧
      (∀ path, path ∈ told.unlocked.map (·.path) ↔ path ∈ retold.unlocked.map (·.path)) ∧
      ∀ a ∈ told.unlocked, ∀ b ∈ retold.unlocked, a.path = b.path → a.Reordered b := by
  intro c d
  have h : c.Reordered d := Catalog.reordered_ofCoins hpaths horder
  have htold := Progress.told_sublist c p l streak time
  have hretold := Progress.told_sublist d p l streak time
  refine ⟨.of_sight (Progress.sight_track_reordered h p l streak time), ⟨htold, hretold⟩,
    fun path => ?_, fun a ha b hb hpath => ?_⟩
  · simp only [List.mem_map]
    constructor
    · rintro ⟨a, ha, rfl⟩
      obtain ⟨b, hb, hab⟩ := h.there a (htold.subset ha)
      exact ⟨b, (Progress.mem_told_reordered h hab (htold.subset ha) hb).1 ha, hab.path.symm⟩
    · rintro ⟨b, hb, rfl⟩
      obtain ⟨a, ha, hab⟩ := h.back b (hretold.subset hb)
      exact ⟨a, (Progress.mem_told_reordered h hab ha (hretold.subset hb)).2 hb, hab.path⟩
  · obtain ⟨b', hb', hab⟩ := h.there a (htold.subset ha)
    have hsame : d.get? b.path = some b' := by
      rw [← hpath, hab.path]
      exact Catalog.get?_of_mem hb'
    rw [Catalog.get?_of_mem (hretold.subset hb)] at hsame
    exact Option.some.inj hsame ▸ hab

/-- A coin for having landed on all others, one for a flip, and one for a landing on any coin that
has a condition. -/
def collectorCoins : List Coin :=
  [untold "all" (.landOnCoins ⟨[], 1, true⟩) [], untold "flip" (.totalFlips 1) [],
    untold "run" (.run ⟨.anyCondition, [], none, none, 0, .either, 1⟩) []]

/-- Progress with a landing on the second of them. -/
def flipLanded : Progress := { Progress.empty with landings := Tally.empty.insert "flip" 1 }

/-- A landing on the third one unlocks all of them, in either order. -/
theorem track_of_perm_collector :
    let landing : Landing := ⟨"run", .heads, none, none⟩
    let (q, told) := flipLanded.track (.ofCoins collectorCoins) landing 1 firstOfMay
    let (r, retold) := flipLanded.track (.ofCoins collectorCoins.reverse) landing 1 firstOfMay
    q.Same r ∧ q.stamps.keys = ["all", "flip", "run"] ∧ r.stamps.keys = ["run", "flip", "all"] ∧
      told.unlocked.map (·.path) = ["all", "flip", "run"] ∧
      retold.unlocked.map (·.path) = ["run", "flip", "all"] := by
  intro landing
  have hpaths : (collectorCoins.map (·.path)).Nodup := by decide
  have horder : collectorCoins.Perm collectorCoins.reverse := (List.reverse_perm _).symm
  obtain ⟨hsame, -⟩ := track_of_perm hpaths horder flipLanded landing 1 firstOfMay
  exact ⟨hsame, by decide +kernel⟩

end CoinToss
