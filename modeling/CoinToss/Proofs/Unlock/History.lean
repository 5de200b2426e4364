import CoinToss.Proofs.Unlock.Landing
import Mathlib.Data.List.Induction

/-!
# CoinToss.Proofs.Unlock.History

What a history of flips says about the goals of a coin.

Progress is moved on flip by flip: counters, runs, stamps.  The same is said here of a whole
history at once, without any state:

```
goal                holds of a history with
totalFlips n        at least n flips
streak side n       a streak of n on the side, or n ≤ 0
landOnCoin path n   at least n flips that show the coin, if the catalog has it
run r               r.length matching flips in a row, the prerequisites holding since the first
```

A prerequisite that asks for chance or for a run never holds: both are measured on the coin's own
path, which play moves only once the prerequisites hold.

* `Goal.holdsOf_append` — what holds of a history holds of every longer one;
* `Progress.Records.afterHistory` — the counters of progress are what the history says;
* `isReached_iff_holdsOf` — so goals are reached exactly if they hold of the history.
-/

namespace CoinToss

/-- A flip of a history: its landing, the streak it ends and when it was recorded. -/
structure Turn where
  landing : Landing
  streak : Int
  time : DateTime

/-- The progress that recording a history from the start leaves. -/
def Progress.afterHistory (c : Catalog) (h : List Turn) : Progress :=
  h.foldl (fun p t => (p.track c t.landing t.streak t.time).1) .empty

theorem afterHistory_snoc (c : Catalog) (h : List Turn) (t : Turn) :
    Progress.afterHistory c (h ++ [t]) =
      ((Progress.afterHistory c h).track c t.landing t.streak t.time).1 := by
  rw [Progress.afterHistory, List.foldl_append]
  rfl

/-! ## reading a history -/

namespace History

/-- How many flips landed on a side. -/
def flipsOn (side : Side) (h : List Turn) : Nat := h.countP fun t => t.landing.side == side

/-- How many flips showed a coin. -/
def landingsOn (path : String) (h : List Turn) : Nat := h.countP fun t => t.landing.coin == path

/-- The longest streak of the flips on a side, or of all; zero if none is longer. -/
def longestOn (side : Option Side) (h : List Turn) : Int :=
  (h.filter fun t => side.all (· == t.landing.side)).foldl (fun best t => max best t.streak) 0

theorem longestOn_snoc (side : Option Side) (h : List Turn) (t : Turn) :
    longestOn side (h ++ [t]) =
      if side.all (· == t.landing.side) then max (longestOn side h) t.streak
      else longestOn side h := by
  rw [longestOn, List.filter_append, List.foldl_append, longestOn]
  cases hs : side.all (· == t.landing.side) <;> simp [hs]

theorem le_foldl_streak (h : List Turn) (best : Int) :
    best ≤ h.foldl (fun best t => max best t.streak) best := by
  induction h generalizing best with
  | nil => exact Int.le_refl best
  | cons t h ih => exact Int.le_trans (Int.le_max_left best t.streak) (ih _)

theorem longestOn_le_append (side : Option Side) (h k : List Turn) :
    longestOn side h ≤ longestOn side (h ++ k) := by
  rw [longestOn, longestOn, List.filter_append, List.foldl_append]
  exact le_foldl_streak _ _

end History

open History

/-- Whether a goal holds of a history.  Chance and runs are no matter of history for a coin that
does not wait for them by its own goal. -/
def Goal.holdsOf (c : Catalog) (h : List Turn) : Goal → Prop
  | .none => True
  | .totalFlips n => n ≤ h.length
  | .headsFlips n => n ≤ flipsOn .heads h
  | .tailsFlips n => n ≤ flipsOn .tails h
  | .streak side n => n ≤ longestOn side h
  | .landOnCoin coin n =>
    ∃ path, coin = some path ∧ path ≠ "" ∧ path ∈ c.paths ∧ n ≤ landingsOn path h
  | .landOnCoins l =>
    l.coins ≠ [] ∧
      ∀ path ∈ l.coins, path ≠ "" ∧ path ∈ c.paths ∧ l.count ≤ landingsOn path h
  | .chance _ => False
  | .run _ => False

namespace Coin

/-- Whether all prerequisites hold of a history. -/
def readyAfter (c : Catalog) (h : List Turn) (coin : Coin) : Prop :=
  ∀ g ∈ coin.required, g.holdsOf c h

/-- Whether a history earns a coin. -/
def earnedBy (c : Catalog) (h : List Turn) (coin : Coin) : Prop :=
  match coin.goal with
  | .chance _ => False
  | .run r =>
    0 < r.length ∧ ∃ before during after, h = before ++ during ++ after ∧
      (during.length : Int) = r.length ∧
        (∀ t ∈ during, r.matchesLanding c t.landing = true) ∧
          coin.readyAfter c (before ++ during.take 1)
  | goal => coin.readyAfter c h ∧ goal.holdsOf c h

end Coin

/-- What holds of a history holds of every longer one. -/
theorem Goal.holdsOf_append {c : Catalog} {h : List Turn} (k : List Turn) {g : Goal}
    (hg : g.holdsOf c h) : g.holdsOf c (h ++ k) := by
  have hcount (f : Turn → Bool) : (h.countP f : Int) ≤ (h ++ k).countP f := by
    rw [List.countP_append]
    omega
  cases g with
  | none => trivial
  | totalFlips n =>
      simp only [holdsOf, List.length_append] at hg ⊢
      omega
  | headsFlips n => exact Int.le_trans hg (hcount _)
  | tailsFlips n => exact Int.le_trans hg (hcount _)
  | streak side n => exact Int.le_trans hg (longestOn_le_append side h k)
  | landOnCoin coin n =>
      obtain ⟨path, hcoin, hne, hmem, hn⟩ := hg
      exact ⟨path, hcoin, hne, hmem, Int.le_trans hn (hcount _)⟩
  | landOnCoins l =>
      refine ⟨hg.1, fun path hp => ?_⟩
      obtain ⟨hne, hmem, hn⟩ := hg.2 path hp
      exact ⟨hne, hmem, Int.le_trans hn (hcount _)⟩
  | chance r => exact hg
  | run r => exact hg

theorem Coin.readyAfter_append {c : Catalog} {h : List Turn} {coin : Coin} (k : List Turn)
    (hr : coin.readyAfter c h) : coin.readyAfter c (h ++ k) :=
  fun g hg => Goal.holdsOf_append k (hr g hg)

/-! ## the counters -/

/-- The counters of progress are what a history says. -/
structure Progress.Records (h : List Turn) (p : Progress) : Prop where
  totalFlips : p.totalFlips = h.length
  headsFlips : p.headsFlips = flipsOn .heads h
  tailsFlips : p.tailsFlips = flipsOn .tails h
  longestOn : ∀ side, p.longestOn side = History.longestOn side h
  landCount : ∀ path, path ≠ "" → p.landCount path = landingsOn path h
  randomUnlocks : p.randomUnlocks = .empty

namespace Progress.Records

variable {c : Catalog} {h : List Turn} {p : Progress}

theorem empty : Records [] .empty where
  totalFlips := rfl
  headsFlips := rfl
  tailsFlips := rfl
  longestOn side := by rcases side with _ | _ | _ <;> rfl
  landCount _ _ := rfl
  randomUnlocks := rfl

/-- Counting a landing records one more flip. -/
theorem count (hr : p.Records h) (t : Turn) :
    (p.count t.landing t.streak).Records (h ++ [t]) where
  totalFlips := by
    rw [totalFlips_count, hr.totalFlips, List.length_append]
    rfl
  headsFlips := by
    rw [headsFlips_count, hr.headsFlips, flipsOn, flipsOn, List.countP_append, List.countP_singleton]
    cases t.landing.side <;> simp
  tailsFlips := by
    rw [tailsFlips_count, hr.tailsFlips, flipsOn, flipsOn, List.countP_append, List.countP_singleton]
    cases t.landing.side <;> simp
  longestOn side := by
    rw [longestOn_count, hr.longestOn, longestOn_snoc]
  landCount path hne := by
    rw [landCount_count, hr.landCount path hne, landingsOn, landingsOn, List.countP_append,
      List.countP_singleton]
    by_cases hp : path = t.landing.coin
    · subst hp
      simp [hne]
    · have hother : ¬(t.landing.coin == path) = true := by
        rw [beq_iff_eq]
        exact fun e => hp e.symm
      rw [if_neg fun h => hp h.1, if_neg hother, Nat.add_zero]
  randomUnlocks := by
    rw [randomUnlocks_count, hr.randomUnlocks]

theorem land (hr : p.Records h) (c : Catalog) (t : Turn) :
    (p.land c t.landing t.streak).1.Records (h ++ [t]) := by
  rw [land_eq]
  exact { hr.count t with }

theorem track (hr : p.Records h) (c : Catalog) (t : Turn) :
    (p.track c t.landing t.streak t.time).1.Records (h ++ [t]) := by
  rw [track_eq]
  exact { hr.land c t with }

theorem afterHistory (c : Catalog) (h : List Turn) : (Progress.afterHistory c h).Records h := by
  induction h using List.reverseRecOn with
  | nil => exact .empty
  | append_singleton h t ih =>
      rw [afterHistory_snoc]
      exact ih.track c t

end Progress.Records

/-! ## goals -/

section Measure

variable {c : Catalog} {h : List Turn} {p : Progress} {coin : Coin}

theorem names_iff (path : String) : c.known.names path = true ↔ path ≠ "" ∧ path ∈ c.paths := by
  simp [Known.names, Catalog.known, Catalog.contains_iff]

/-- A goal is reached exactly if it holds of the history; one that waits for a run must not have
started counting. -/
theorem isReached_iff_holdsOf (hr : p.Records h) (owner : String) {g : Goal}
    (hrun : ∀ r, g = .run r → p.runLength owner = 0) :
    g.isReached c.known owner p = true ↔ g.holdsOf c h := by
  cases g with
  | none => simp [Goal.isReached, Goal.holdsOf]
  | totalFlips n => simp [Goal.isReached, Goal.holdsOf, hr.totalFlips]
  | headsFlips n => simp [Goal.isReached, Goal.holdsOf, hr.headsFlips]
  | tailsFlips n => simp [Goal.isReached, Goal.holdsOf, hr.tailsFlips]
  | streak side n => simp [Goal.isReached, Goal.holdsOf, hr.longestOn]
  | landOnCoin target n =>
      cases target with
      | none => simp [Goal.isReached, Goal.holdsOf]
      | some path =>
          rw [Goal.isReached, Bool.and_eq_true, decide_eq_true_iff, names_iff]
          constructor
          · rintro ⟨⟨hne, hmem⟩, hn⟩
            rw [hr.landCount path hne] at hn
            exact ⟨path, rfl, hne, hmem, hn⟩
          · rintro ⟨other, he, hne, hmem, hn⟩
            obtain rfl := Option.some.inj he
            rw [hr.landCount path hne]
            exact ⟨⟨hne, hmem⟩, hn⟩
  | landOnCoins l =>
      simp only [Goal.isReached, Goal.holdsOf, Bool.and_eq_true, List.all_eq_true, names_iff,
        decide_eq_true_iff, Bool.not_eq_true', List.isEmpty_eq_false_iff, and_assoc]
      refine and_congr_right fun _ => ?_
      constructor
      · rintro ⟨hnames, hcount⟩ path hp
        have hne := (hnames path hp).1
        have hn := hcount path hp
        rw [hr.landCount path hne] at hn
        exact ⟨hne, (hnames path hp).2, hn⟩
      · intro hall
        refine ⟨fun path hp => ⟨(hall path hp).1, (hall path hp).2.1⟩, fun path hp => ?_⟩
        rw [hr.landCount path (hall path hp).1]
        exact (hall path hp).2.2
  | chance r =>
      rw [Goal.isReached, hr.randomUnlocks]
      simp [Goal.holdsOf]
  | run r =>
      rw [Goal.isReached, hrun r rfl]
      simp only [Goal.holdsOf, Bool.and_eq_true, decide_eq_true_iff, iff_false]
      omega

/-- Prerequisites are met exactly if they hold of the history. -/
theorem meetsPrerequisites_iff_readyAfter (hr : p.Records h)
    (hrun : ∀ r, .run r ∈ coin.required → p.runLength coin.path = 0) :
    coin.meetsPrerequisites c.known p = true ↔ coin.readyAfter c h := by
  rw [Coin.meetsPrerequisites, List.all_eq_true]
  refine forall₂_congr fun g hg => isReached_iff_holdsOf hr coin.path fun r he => ?_
  exact hrun r (he ▸ hg)

end Measure

end CoinToss
