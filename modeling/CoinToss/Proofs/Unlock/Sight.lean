import CoinToss.Unlock.Roll
import CoinToss.Unlock.Track

/-!
# CoinToss.Proofs.Unlock.Sight

What deciding about one coin reads of progress, and sweeps over coins that keep out of each
other's sight.

A coin is decided about by the counters, the land counts and the entries at its own path:

```
sight p path  =  counters, land counts, and what the sets and tallies of p hold at path
```

* `isUnlocked_congr` — equal sights decide alike;
* `exists_turn` — in a sweep each coin, when its turn comes, sees what it saw before;
* `Local.view_sweep_of_mem` — so after local steps it stands as if its step had been the only one;
* `Local.mem_sweep_iff` — and the sweep yields what the steps would yield one by one.
-/

namespace CoinToss

/-! ## sweeps -/

section Sweep

variable {σ α β κ ν : Type} {step : σ → α → σ × Option β}

@[simp] theorem sweep_nil (s : σ) : sweep step s [] = (s, []) := rfl

theorem sweep_cons (s : σ) (a : α) (as : List α) :
    sweep step s (a :: as) =
      ((sweep step (step s a).1 as).1,
        (step s a).2.toList ++ (sweep step (step s a).1 as).2) := rfl

/-- What every step keeps, the sweep keeps. -/
theorem sweep_keeps {P : σ → Prop} {as : List α} (h : ∀ s, ∀ a ∈ as, P s → P (step s a).1) {s : σ}
    (hs : P s) : P (sweep step s as).1 := by
  induction as generalizing s with
  | nil => exact hs
  | cons a as ih =>
      rw [sweep_cons]
      have hrest : ∀ s, ∀ b ∈ as, P s → P (step s b).1 := fun s b hb =>
        h s b (List.mem_cons_of_mem a hb)
      exact ih hrest (h s a List.mem_cons_self hs)

section Turns

variable {key : α → κ} {view : κ → σ → ν}
  (elsewhere : ∀ s a k, k ≠ key a → view k (step s a).1 = view k s)

include elsewhere

/-- A key that is not swept over keeps its view. -/
theorem view_sweep_of_notMem (s : σ) {as : List α} {k : κ} (hk : k ∉ as.map key) :
    view k (sweep step s as).1 = view k s := by
  induction as generalizing s with
  | nil => rfl
  | cons a as ih =>
      rw [List.map_cons, List.mem_cons, not_or] at hk
      rw [sweep_cons, ih _ hk.2, elsewhere s a k hk.1]

/-- When its turn comes, an element finds in view what was there before the sweep, and what it
leaves there stays. -/
theorem exists_turn (s : σ) {as : List α} (hnd : (as.map key).Nodup) {a : α} (ha : a ∈ as) :
    ∃ t, view (key a) t = view (key a) s ∧
      view (key a) (sweep step s as).1 = view (key a) (step t a).1 ∧
        ∀ b, (step t a).2 = some b → b ∈ (sweep step s as).2 := by
  induction as generalizing s with
  | nil => simp at ha
  | cons c cs ih =>
      rw [List.map_cons, List.nodup_cons] at hnd
      rw [sweep_cons]
      rcases List.mem_cons.1 ha with rfl | ha
      · refine ⟨s, rfl, view_sweep_of_notMem elsewhere _ hnd.1, fun b hb => ?_⟩
        exact List.mem_append_left _ (Option.mem_toList.2 hb)
      · have hne : key a ≠ key c := by
          intro e
          exact hnd.1 (e ▸ List.mem_map_of_mem ha)
        obtain ⟨t, ht, hview, hout⟩ := ih (step s c).1 hnd.2 ha
        refine ⟨t, ht.trans (elsewhere s c (key a) hne), hview, fun b hb => ?_⟩
        exact List.mem_append_right _ (hout b hb)

/-- What a sweep yields, some element has yielded when its turn came. -/
theorem exists_turn_of_mem (s : σ) {as : List α} (hnd : (as.map key).Nodup) {b : β}
    (hb : b ∈ (sweep step s as).2) :
    ∃ a ∈ as, ∃ t, view (key a) t = view (key a) s ∧
      view (key a) (sweep step s as).1 = view (key a) (step t a).1 ∧ (step t a).2 = some b := by
  induction as generalizing s with
  | nil => simp at hb
  | cons c cs ih =>
      rw [List.map_cons, List.nodup_cons] at hnd
      rw [sweep_cons] at hb ⊢
      rcases List.mem_append.1 hb with hb | hb
      · refine ⟨c, List.mem_cons_self, s, rfl, view_sweep_of_notMem elsewhere _ hnd.1, ?_⟩
        exact Option.mem_toList.1 hb
      · obtain ⟨a, ha, t, ht, hview, hout⟩ := ih (step s c).1 hnd.2 hb
        have hne : key a ≠ key c := by
          intro e
          exact hnd.1 (e ▸ List.mem_map_of_mem ha)
        exact ⟨a, List.mem_cons_of_mem c ha, t, ht.trans (elsewhere s c (key a) hne), hview, hout⟩

end Turns

/-- Steps that read and change only what is in view of their own key. -/
structure Local (key : α → κ) (view : κ → σ → ν) (step : σ → α → σ × Option β) : Prop where
  /-- What other keys view stays. -/
  elsewhere : ∀ s a k, k ≠ key a → view k (step s a).1 = view k s
  /-- What the own key views afterwards depends on what it viewed before. -/
  here : ∀ s t a, view (key a) s = view (key a) t →
    view (key a) (step s a).1 = view (key a) (step t a).1
  /-- So does what the step yields. -/
  yields : ∀ s t a, view (key a) s = view (key a) t → (step s a).2 = (step t a).2

namespace Local

variable {key : α → κ} {view : κ → σ → ν}

/-- Each key views what its own step makes of the state before the sweep. -/
theorem view_sweep_of_mem (h : Local key view step) (s : σ) {as : List α}
    (hnd : (as.map key).Nodup) {a : α} (ha : a ∈ as) :
    view (key a) (sweep step s as).1 = view (key a) (step s a).1 := by
  obtain ⟨t, ht, hview, -⟩ := exists_turn h.elsewhere s hnd ha
  rw [hview, h.here t s a ht]

/-- The sweep yields what the steps yield of the state before it. -/
theorem mem_sweep_iff (h : Local key view step) (s : σ) {as : List α} (hnd : (as.map key).Nodup)
    (b : β) : b ∈ (sweep step s as).2 ↔ ∃ a ∈ as, (step s a).2 = some b := by
  constructor
  · intro hb
    obtain ⟨a, ha, t, ht, -, hout⟩ := exists_turn_of_mem h.elsewhere s hnd hb
    exact ⟨a, ha, by rw [← h.yields t s a ht, hout]⟩
  · rintro ⟨a, ha, hb⟩
    obtain ⟨t, ht, -, hout⟩ := exists_turn h.elsewhere s hnd ha
    exact hout b (by rw [h.yields t s a ht, hb])

end Local

/-- Steps that yield the element they are at yield a part of the list, in order. -/
theorem sublist_sweep {step : σ → α → σ × Option α} (h : ∀ s a b, (step s a).2 = some b → b = a)
    (s : σ) (as : List α) : ((sweep step s as).2).Sublist as := by
  induction as generalizing s with
  | nil => exact List.Sublist.refl []
  | cons a as ih =>
      rw [sweep_cons]
      cases hb : (step s a).2 with
      | none => exact (ih _).cons a
      | some b =>
          have hab : b = a := h s a b hb
          subst hab
          exact (ih _).cons_cons b

end Sweep

/-! ## sights -/

/-- All that deciding about the coin at a path reads of progress. -/
structure Sight where
  totalFlips : Int
  headsFlips : Int
  tailsFlips : Int
  longestStreak : Int
  longestHeads : Int
  longestTails : Int
  landings : Tally Int
  randomUnlock : Bool
  stamp : Option DateTime
  notified : Bool
  run : Option Int

/-- What the coin at a path sees of progress. -/
def Progress.sight (path : String) (p : Progress) : Sight where
  totalFlips := p.totalFlips
  headsFlips := p.headsFlips
  tailsFlips := p.tailsFlips
  longestStreak := p.longestStreak
  longestHeads := p.longestHeads
  longestTails := p.longestTails
  landings := p.landings
  randomUnlock := p.randomUnlocks.contains path
  stamp := p.stamps.get? path
  notified := p.notified.contains path
  run := p.runs.get? path

section Congruence

variable {p q : Progress} {path : String}

theorem Progress.landCount_congr (h : p.sight path = q.sight path) (other : String) :
    p.landCount other = q.landCount other := by
  have hl : p.landings = q.landings := congrArg Sight.landings h
  rw [Progress.landCount, hl, Progress.landCount]

theorem Progress.longestOn_congr (h : p.sight path = q.sight path) (side : Option Side) :
    p.longestOn side = q.longestOn side := by
  cases side with
  | none => exact congrArg Sight.longestStreak h
  | some s =>
      cases s with
      | heads => exact congrArg Sight.longestHeads h
      | tails => exact congrArg Sight.longestTails h

theorem Progress.runLength_congr (h : p.sight path = q.sight path) :
    p.runLength path = q.runLength path := by
  have hr : p.runs.get? path = q.runs.get? path := congrArg Sight.run h
  rw [Progress.runLength, hr, Progress.runLength]

theorem Progress.contains_stamps_congr (h : p.sight path = q.sight path) :
    p.stamps.contains path = q.stamps.contains path := by
  have hs : p.stamps.get? path = q.stamps.get? path := congrArg Sight.stamp h
  rw [Tally.contains, hs, Tally.contains]

/-- A goal is measured on what its owner sees. -/
theorem Goal.isReached_congr (known : Known) (h : p.sight path = q.sight path) (g : Goal) :
    g.isReached known path p = g.isReached known path q := by
  have htotal : p.totalFlips = q.totalFlips := congrArg Sight.totalFlips h
  have hheads : p.headsFlips = q.headsFlips := congrArg Sight.headsFlips h
  have htails : p.tailsFlips = q.tailsFlips := congrArg Sight.tailsFlips h
  have hrandom : p.randomUnlocks.contains path = q.randomUnlocks.contains path :=
    congrArg Sight.randomUnlock h
  cases g with
  | none => rfl
  | totalFlips n => rw [isReached, htotal, isReached]
  | headsFlips n => rw [isReached, hheads, isReached]
  | tailsFlips n => rw [isReached, htails, isReached]
  | streak side n => rw [isReached, Progress.longestOn_congr h, isReached]
  | landOnCoin coin n =>
      cases coin with
      | none => rfl
      | some other => simp only [isReached, Progress.landCount_congr h]
  | landOnCoins l => simp only [isReached, Progress.landCount_congr h]
  | chance r => rw [isReached, hrandom, isReached]
  | run r => rw [isReached, Progress.runLength_congr h, isReached]

end Congruence

namespace Coin

variable {p q : Progress} {coin : Coin}

theorem meetsPrerequisites_congr (known : Known) (h : p.sight coin.path = q.sight coin.path) :
    coin.meetsPrerequisites known p = coin.meetsPrerequisites known q := by
  have hg : Goal.isReached known coin.path p = Goal.isReached known coin.path q :=
    funext (Goal.isReached_congr known h)
  rw [meetsPrerequisites, hg, meetsPrerequisites]

theorem meetsGoal_congr (known : Known) (h : p.sight coin.path = q.sight coin.path) :
    coin.meetsGoal known p = coin.meetsGoal known q :=
  Goal.isReached_congr known h coin.goal

/-- Equal sights decide alike. -/
theorem isUnlocked_congr (known : Known) (h : p.sight coin.path = q.sight coin.path) :
    coin.isUnlocked known p = coin.isUnlocked known q := by
  have hs : coin.isStamped p = coin.isStamped q := Progress.contains_stamps_congr h
  rw [isUnlocked, hs, meetsPrerequisites_congr known h, meetsGoal_congr known h, isUnlocked]

end Coin

end CoinToss
