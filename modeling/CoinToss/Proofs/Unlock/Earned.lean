import CoinToss.Proofs.Unlock.History
import CoinToss.Proofs.Unlock.Latch

/-!
# CoinToss.Proofs.Unlock.Earned

A coin is unlocked exactly if the history of flips has earned it.

Goals but runs hold of a history for good, so the coin is unlocked once its prerequisites and its
goal hold.  A run may break, and its counter with it; what lasts is that it was going once:

```
h = before ++ during ++ after     during matches, and the coin is ready after its first flip
             counter = during.length, then unlocked, then left alone
```

* `going_snoc` — a run goes on with a flip that matches;
* `Follows` — what the counter of a coin says about the history;
* `Follows.track` — recording a flip keeps it;
* `isUnlocked_iff_earnedBy` — unlocked is what the history has earned.
-/

namespace CoinToss

/-! ## runs -/

/-- Whether a history ends in a run of a length that a coin has counted. -/
def Going (c : Catalog) (r : RunRule) (coin : Coin) (n : Int) (h : List Turn) : Prop :=
  ∃ before during, h = before ++ during ∧ (during.length : Int) = n ∧
    (∀ t ∈ during, r.matchesLanding c t.landing = true) ∧
      coin.readyAfter c (before ++ during.take 1)

section Runs

variable {c : Catalog} {r : RunRule} {coin : Coin} {n : Int} {h : List Turn} {t : Turn}

theorem Going.readyAfter (hg : Going c r coin n h) : coin.readyAfter c h := by
  obtain ⟨before, during, rfl, -, -, hready⟩ := hg
  have hlater := Coin.readyAfter_append (during.drop 1) hready
  rwa [List.append_assoc, List.take_append_drop] at hlater

/-- A run goes on with a flip that matches: from the run before it, or as the first of its own. -/
theorem going_snoc (hn : 0 < n) :
    Going c r coin n (h ++ [t]) ↔
      r.matchesLanding c t.landing = true ∧
        ((n = 1 ∧ coin.readyAfter c (h ++ [t])) ∨ (1 < n ∧ Going c r coin (n - 1) h)) := by
  constructor
  · rintro ⟨before, during, hsplit, hlen, hmatch, hready⟩
    cases during using List.reverseRecOn with
    | nil =>
        simp only [List.length_nil] at hlen
        omega
    | append_singleton during u =>
        rw [← List.append_assoc] at hsplit
        obtain ⟨rfl, hu⟩ := List.append_inj' hsplit rfl
        obtain rfl := List.singleton_inj.1 hu
        refine ⟨hmatch t (by simp), ?_⟩
        rw [List.length_append, List.length_singleton] at hlen
        cases during with
        | nil => exact .inl ⟨by simpa using hlen.symm, by simpa using hready⟩
        | cons u during =>
            refine .inr ⟨?_, before, u :: during, rfl, by omega, fun v hv => ?_, hready⟩
            · rw [List.length_cons] at hlen
              omega
            · exact hmatch v (List.mem_append_left _ hv)
  · rintro ⟨ht, ⟨rfl, hready⟩ | ⟨hlt, before, during, rfl, hlen, hmatch, hready⟩⟩
    · exact ⟨h, [t], rfl, rfl, by simpa using ht, hready⟩
    · refine ⟨before, during ++ [t], by rw [List.append_assoc], ?_, ?_, ?_⟩
      · rw [List.length_append, List.length_singleton]
        omega
      · intro u hu
        rcases List.mem_append.1 hu with hu | hu
        · exact hmatch u hu
        · rw [List.mem_singleton.1 hu]
          exact ht
      · cases during with
        | nil =>
            rw [List.length_nil] at hlen
            omega
        | cons u during => exact hready

/-- A coin that waits for a run has earned it once the run was going at some time. -/
theorem earnedBy_run_iff (hgoal : coin.goal = .run r) :
    coin.earnedBy c h ↔ 0 < r.length ∧ ∃ k, k <+: h ∧ Going c r coin r.length k := by
  unfold Coin.earnedBy
  rw [hgoal]
  refine and_congr_right fun _ => ?_
  constructor
  · rintro ⟨before, during, after, rfl, hrest⟩
    exact ⟨before ++ during, List.prefix_append _ _, before, during, rfl, hrest⟩
  · rintro ⟨k, ⟨after, rfl⟩, before, during, rfl, hrest⟩
    exact ⟨before, during, after, rfl, hrest⟩

theorem earnedBy_run_snoc (hgoal : coin.goal = .run r) :
    coin.earnedBy c (h ++ [t]) ↔
      coin.earnedBy c h ∨ (0 < r.length ∧ Going c r coin r.length (h ++ [t])) := by
  rw [earnedBy_run_iff hgoal, earnedBy_run_iff hgoal, ← and_or_left]
  refine and_congr_right fun _ => ?_
  constructor
  · rintro ⟨k, hk, hgoing⟩
    rcases List.prefix_concat_iff.1 hk with rfl | hk
    · exact .inr hgoing
    · exact .inl ⟨k, hk, hgoing⟩
  · rintro (⟨k, hk, hgoing⟩ | hgoing)
    · exact ⟨k, hk.trans (List.prefix_append h [t]), hgoing⟩
    · exact ⟨h ++ [t], List.prefix_rfl, hgoing⟩

end Runs

/-! ## counting runs -/

section Counting

variable {c : Catalog} {coin : Coin} {h : List Turn} {p : Progress}

/-- A coin that waits for a run counts a landing, or starts anew. -/
theorem runLength_advanceRun {r : RunRule} (l : Landing) (hgoal : coin.goal = .run r)
    (hl : coin.isUnlocked c.known p = false) :
    (p.advanceRun c l coin).1.runLength coin.path =
      if coin.meetsPrerequisites c.known p && r.matchesLanding c l then
        p.runLength coin.path + 1
      else 0 := by
  unfold Progress.advanceRun
  rw [hgoal]
  cases hm : coin.meetsPrerequisites c.known p with
  | false => simp [hl]
  | true => cases hr : r.matchesLanding c l <;> simp [hl, hr]

/-- Progress follows a history, as far as a coin with a condition goes. -/
structure Follows (c : Catalog) (coin : Coin) (h : List Turn) (p : Progress) : Prop where
  records : p.Records h
  /-- Who asks for a run before the own goal never counts one. -/
  idle : ∀ r, .run r ∈ coin.required → p.runLength coin.path = 0
  nonneg : 0 ≤ p.runLength coin.path
  unlocked : coin.isUnlocked c.known p = true ↔ coin.earnedBy c h
  /-- The counter knows which runs are going. -/
  going : ∀ r, coin.goal = .run r → ¬coin.earnedBy c h →
    ∀ n, 0 < n → (n ≤ p.runLength coin.path ↔ Going c r coin n h)

/-- What is not a run is earned by what holds. -/
theorem earnedBy_iff_holdsOf (hgoal : ∀ r, coin.goal ≠ .run r) :
    coin.earnedBy c h ↔ coin.readyAfter c h ∧ coin.goal.holdsOf c h := by
  unfold Coin.earnedBy
  cases hg : coin.goal with
  | run r => exact absurd hg (hgoal r)
  | chance r => simp [Goal.holdsOf]
  | _ => rfl

/-- A coin without a stamp has its goal and its prerequisites decided by the history. -/
theorem isUnlocked_iff_holdsOf (hu : coin.unlock.isSome = true) (hr : p.Records h)
    (hs : coin.isStamped p = false)
    (hidle : ∀ r, .run r ∈ coin.required → p.runLength coin.path = 0)
    (hgoal : ∀ r, coin.goal ≠ .run r) :
    coin.isUnlocked c.known p = true ↔ coin.earnedBy c h := by
  rw [Coin.isUnlocked_eq hu hs, Bool.and_eq_true, meetsPrerequisites_iff_readyAfter hr hidle,
    Coin.meetsGoal, isReached_iff_holdsOf hr coin.path fun r he => absurd he (hgoal r),
    earnedBy_iff_holdsOf hgoal]

/-- A coin that waits for a run is unlocked, without a stamp, by a run that is going. -/
theorem isUnlocked_iff_going {r : RunRule} (hu : coin.unlock.isSome = true) (hr : p.Records h)
    (hs : coin.isStamped p = false)
    (hidle : ∀ r, .run r ∈ coin.required → p.runLength coin.path = 0) (hgoal : coin.goal = .run r)
    (hgoing : ∀ n, 0 < n → (n ≤ p.runLength coin.path ↔ Going c r coin n h)) :
    coin.isUnlocked c.known p = true ↔ 0 < r.length ∧ Going c r coin r.length h := by
  rw [Coin.isUnlocked_eq hu hs, Bool.and_eq_true, meetsPrerequisites_iff_readyAfter hr hidle,
    Coin.meetsGoal, hgoal, Goal.isReached, Bool.and_eq_true, decide_eq_true_iff,
    decide_eq_true_iff]
  constructor
  · rintro ⟨-, hpos, hlen⟩
    exact ⟨hpos, (hgoing _ hpos).1 hlen⟩
  · rintro ⟨hpos, hg⟩
    exact ⟨hg.readyAfter, hpos, (hgoing _ hpos).2 hg⟩

/-- What a history earns, every longer one does. -/
theorem earnedBy_append (k : List Turn) (he : coin.earnedBy c h) :
    coin.earnedBy c (h ++ k) := by
  by_cases hrun : ∃ r, coin.goal = .run r
  · obtain ⟨r, hgoal⟩ := hrun
    rw [earnedBy_run_iff hgoal] at he ⊢
    obtain ⟨hpos, k', hk', hg⟩ := he
    exact ⟨hpos, k', hk'.trans (List.prefix_append h k), hg⟩
  · have hgoal : ∀ r, coin.goal ≠ .run r := fun r hr => hrun ⟨r, hr⟩
    rw [earnedBy_iff_holdsOf hgoal] at he ⊢
    exact ⟨Coin.readyAfter_append k he.1, Goal.holdsOf_append k he.2⟩

namespace Follows

/-- Before the first flip only goals that ask for nothing are reached. -/
theorem empty (hu : coin.unlock.isSome = true) : Follows c coin [] .empty := by
  have hnone : ∀ r n, 0 < n → ¬Going c r coin n [] := by
    rintro r n hn ⟨before, during, hsplit, hlen, -⟩
    rw [(List.append_eq_nil_iff.1 hsplit.symm).2, List.length_nil] at hlen
    omega
  have hgoing : ∀ r n, 0 < n →
      (n ≤ Progress.empty.runLength coin.path ↔ Going c r coin n []) := by
    intro r n hn
    have hzero : Progress.empty.runLength coin.path = 0 := rfl
    rw [hzero]
    exact iff_of_false (by omega) (hnone r n hn)
  refine ⟨.empty, fun _ _ => rfl, Int.le_refl 0, ?_, fun r _ _ => hgoing r⟩
  by_cases hrun : ∃ r, coin.goal = .run r
  · obtain ⟨r, hgoal⟩ := hrun
    rw [isUnlocked_iff_going hu .empty rfl (fun _ _ => rfl) hgoal (hgoing r),
      earnedBy_run_iff hgoal]
    simp only [List.prefix_nil, exists_eq_left]
  · exact isUnlocked_iff_holdsOf hu .empty rfl (fun _ _ => rfl) fun r hr => hrun ⟨r, hr⟩

variable {t : Turn}

theorem unstamped (hf : Follows c coin h p) (he : ¬coin.earnedBy c h) :
    coin.isStamped p = false := by
  rw [Bool.eq_false_iff]
  intro hs
  exact he (hf.unlocked.1 (Coin.isUnlocked_of_stamped hs))

theorem nonneg_land (hf : Follows c coin h p) (hc : coin ∈ c.coins) :
    0 ≤ (p.land c t.landing t.streak).1.runLength coin.path := by
  have hcount := p.runLength_count t.landing t.streak coin.path
  have hnonneg := hf.nonneg
  have hcases := Progress.runLength_advanceRun_cases c t.landing
    (p.count t.landing t.streak) coin
  rw [Progress.runLength_congr (Progress.sight_land hc)]
  omega

/-- A coin that asks for a run first is never ready to count. -/
theorem idle_land (hf : Follows c coin h p) (hc : coin ∈ c.coins) (r : RunRule)
    (hr : .run r ∈ coin.required) :
    (p.land c t.landing t.streak).1.runLength coin.path = 0 := by
  have hzero : (p.count t.landing t.streak).runLength coin.path = 0 := by
    rw [Progress.runLength_count, hf.idle r hr]
  rw [Progress.runLength_congr (Progress.sight_land hc)]
  obtain he | he | ⟨hm, -⟩ := Progress.runLength_advanceRun_cases c t.landing
    (p.count t.landing t.streak) coin
  · exact he.trans hzero
  · exact he
  · have hready := (meetsPrerequisites_iff_readyAfter (hf.records.count t) fun _ _ => hzero).1 hm
    exact (hready _ hr).elim

/-- A run that has not earned the coin yet still leaves it locked when the counters move. -/
theorem locked_count (hf : Follows c coin h p) (hu : coin.unlock.isSome = true) {r : RunRule}
    (hgoal : coin.goal = .run r) (he : ¬coin.earnedBy c h) :
    coin.isUnlocked c.known (p.count t.landing t.streak) = false := by
  have hs : coin.isStamped (p.count t.landing t.streak) = false := by
    rw [Coin.isStamped, Progress.stamps_count]
    exact hf.unstamped he
  rw [Bool.eq_false_iff]
  intro hl
  rw [Coin.isUnlocked_eq hu hs, Bool.and_eq_true, Coin.meetsGoal, hgoal, Goal.isReached,
    Bool.and_eq_true, decide_eq_true_iff, decide_eq_true_iff, Progress.runLength_count] at hl
  obtain ⟨-, hpos, hlen⟩ := hl
  have hg := (hf.going r hgoal he _ hpos).1 hlen
  exact he ((earnedBy_run_iff hgoal).2 ⟨hpos, h, List.prefix_rfl, hg⟩)

/-- A run goes on exactly if its counter does. -/
theorem going_land (hf : Follows c coin h p) (hc : coin ∈ c.coins)
    (hu : coin.unlock.isSome = true) {r : RunRule} (hgoal : coin.goal = .run r)
    (he : ¬coin.earnedBy c h) (n : Int) (hn : 0 < n) :
    n ≤ (p.land c t.landing t.streak).1.runLength coin.path ↔ Going c r coin n (h ++ [t]) := by
  have hidle : ∀ r, .run r ∈ coin.required →
      (p.count t.landing t.streak).runLength coin.path = 0 := fun r hr => by
    rw [Progress.runLength_count, hf.idle r hr]
  have hready := meetsPrerequisites_iff_readyAfter (c := c) (hf.records.count t) hidle
  have hgoing := hf.going r hgoal he (n - 1)
  have hnonneg := hf.nonneg
  rw [Progress.runLength_congr (Progress.sight_land hc),
    runLength_advanceRun t.landing hgoal (hf.locked_count hu hgoal he), going_snoc hn,
    Progress.runLength_count]
  cases hm : coin.meetsPrerequisites c.known (p.count t.landing t.streak) with
  | false =>
      have hnot : ¬coin.readyAfter c (h ++ [t]) := by
        rw [← hready, hm]
        decide
      refine iff_of_false (by simpa using hn) ?_
      rintro ⟨-, ⟨-, hr⟩ | ⟨-, hg⟩⟩
      · exact hnot hr
      · exact hnot (Coin.readyAfter_append [t] hg.readyAfter)
  | true =>
      cases hl : r.matchesLanding c t.landing with
      | false => simpa using hn
      | true =>
          have hr : coin.readyAfter c (h ++ [t]) := hready.1 hm
          simp only [Bool.and_self, if_true, true_and, hr, and_true]
          constructor
          · intro hle
            by_cases h1 : n = 1
            · exact .inl h1
            · exact .inr ⟨by omega, (hgoing (by omega)).1 (by omega)⟩
          · rintro (rfl | ⟨hlt, hg⟩)
            · omega
            · have hle := (hgoing (by omega)).2 hg
              omega

/-- What counts and runs leave is followed. -/
theorem land (hf : Follows c coin h p) (hc : coin ∈ c.coins) (hu : coin.unlock.isSome = true)
    (t : Turn) : Follows c coin (h ++ [t]) (p.land c t.landing t.streak).1 := by
  have hrecords := hf.records.land c t
  have hidle := hf.idle_land (t := t) hc
  by_cases he : coin.earnedBy c h
  · have hearned := earnedBy_append [t] he
    have hunlocked := isUnlocked_land hc t.landing t.streak (hf.unlocked.2 he)
    exact ⟨hrecords, hidle, hf.nonneg_land hc, iff_of_true hunlocked hearned,
      fun _ _ hne => absurd hearned hne⟩
  · have hs : coin.isStamped (p.land c t.landing t.streak).1 = false := by
      rw [Coin.isStamped, Progress.land_eq, Progress.stamps_count]
      exact hf.unstamped he
    refine ⟨hrecords, hidle, hf.nonneg_land hc, ?_, fun r hgoal _ n hn =>
      hf.going_land hc hu hgoal he n hn⟩
    by_cases hrun : ∃ r, coin.goal = .run r
    · obtain ⟨r, hgoal⟩ := hrun
      rw [isUnlocked_iff_going hu hrecords hs hidle hgoal (hf.going_land hc hu hgoal he),
        earnedBy_run_snoc hgoal]
      exact (or_iff_right he).symm
    · exact isUnlocked_iff_holdsOf hu hrecords hs hidle fun r hr => hrun ⟨r, hr⟩

/-- Settling stamps, and changes nothing that is followed. -/
theorem track (hf : Follows c coin h p) (hc : coin ∈ c.coins) (hu : coin.unlock.isSome = true)
    (t : Turn) : Follows c coin (h ++ [t]) (p.track c t.landing t.streak t.time).1 := by
  have hland := hf.land hc hu t
  have hruns : (p.track c t.landing t.streak t.time).1.runLength coin.path =
      (p.land c t.landing t.streak).1.runLength coin.path := by
    rw [Progress.track_eq]
    rfl
  exact
    { records := hf.records.track c t
      idle := fun r hr => hruns.trans (hland.idle r hr)
      nonneg := hruns ▸ hland.nonneg
      unlocked := by rw [Progress.isUnlocked_track hc, hland.unlocked]
      going := fun r hgoal he n hn => by rw [hruns, hland.going r hgoal he n hn] }

theorem afterHistory (hc : coin ∈ c.coins) (hu : coin.unlock.isSome = true) (h : List Turn) :
    Follows c coin h (Progress.afterHistory c h) := by
  induction h using List.reverseRecOn with
  | nil => exact .empty hu
  | append_singleton h t ih =>
      rw [afterHistory_snoc]
      exact ih.track hc hu t

end Follows

/-- A coin with a condition is unlocked after a history exactly if the history has earned it. -/
theorem isUnlocked_iff_earnedBy (hc : coin ∈ c.coins) (hu : coin.unlock.isSome = true)
    (h : List Turn) :
    coin.isUnlocked c.known (Progress.afterHistory c h) = true ↔ coin.earnedBy c h :=
  (Follows.afterHistory hc hu h).unlocked

end Counting

/-- A coin that waits for two landings in a row on "run", counted from the second flip on. -/
def secondRunCoin : Coin where
  path := "run"
  name := ""
  category := ""
  rarity := none
  unlock := some
    { goal := .run ⟨.specificCoins, ["run"], none, none, 0, .either, 2⟩
      prerequisites := [⟨.totalFlips 2, [], "", "", .common⟩]
      description := ""
      flavorText := ""
      rarity := .common }
  effect := none

/-- The only coin of its catalog. -/
def secondRunCatalog : Catalog := ⟨[secondRunCoin], by decide⟩

/-- A run of flips on "run". -/
def flipsOnRun (n : Nat) : List Turn :=
  List.replicate n ⟨⟨"run", .heads, none, none⟩, 1, firstOfMay⟩

/-- The first flip is too early to be counted: it takes three to earn the coin. -/
theorem isUnlocked_iff_earnedBy_flipsOnRun :
    secondRunCoin ∈ secondRunCatalog.coins ∧ secondRunCoin.unlock.isSome = true ∧
      ¬secondRunCoin.earnedBy secondRunCatalog (flipsOnRun 2) ∧
        secondRunCoin.earnedBy secondRunCatalog (flipsOnRun 3) := by
  have hc : secondRunCoin ∈ secondRunCatalog.coins := List.mem_singleton_self _
  refine ⟨hc, rfl, fun he => ?_, ?_⟩
  · have hunlocked := (isUnlocked_iff_earnedBy hc rfl (flipsOnRun 2)).2 he
    exact absurd hunlocked (by decide)
  · exact (isUnlocked_iff_earnedBy hc rfl (flipsOnRun 3)).1 (by decide)

end CoinToss
