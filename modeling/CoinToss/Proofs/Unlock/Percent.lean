import CoinToss.Proofs.Decimal.Exact
import CoinToss.Proofs.Progress.Range
import CoinToss.Proofs.Unlock.Latch
import CoinToss.Unlock.Report
import Mathlib.Algebra.Order.Field.Rat
import Mathlib.Tactic.GCongr
import Mathlib.Tactic.Positivity

/-!
# CoinToss.Proofs.Unlock.Percent

How the percentage of a coin moves.

Every goal compares a count with a number, and its percentage is the one in hundredths of the other,
read over the rationals so that nothing is rounded.  The counts are never negative, and but for the
runs they only grow, so the percentage of a goal stays between zero and a hundred and never moves
back.  That of a coin jumps to a hundred when the coin is unlocked, and unlocks never revert.

* `share` — a count in percent of a number, exactly;
* `Goal.current`, `Goal.target`, `Goal.percent_eq` — what a goal compares;
* `Goal.current_nonneg`, `Goal.current_mono` — how it moves;
* `Coin.share_mono_play` — one move;
* `percent_in_range_and_grows` — any run of moves.
-/

namespace CoinToss

open Decimal

/-! ## ratios -/

/-- A count in percent of a number, exactly: at most a hundred, and zero if nothing is required. -/
def share (current required : Int) : Rat :=
  if required ≤ 0 then 0 else min 100 ((current : Rat) / required * 100)

section Share

variable {a b n : Int}

theorem hundred_eq : (hundred : Rat) = 100 := by
  show (100 : Rat) / ((1 : Int) : Rat) = 100
  norm_num

theorem nothing_eq : (nothing : Rat) = 0 := by
  show (0 : Rat) / ((1 : Int) : Rat) = 0
  norm_num

theorem ratio_eq (current required : Int) :
    (ratio current required : Except NumberFault Rat) = .ok (share current required) := by
  unfold ratio share
  split
  · rw [nothing_eq]
    rfl
  · rw [hundred_eq]
    show Except.ok (least 100 ((current : Rat) / required * 100)) = _
    rw [least_eq_min]

theorem share_nonneg (h : 0 ≤ a) : 0 ≤ share a n := by
  unfold share
  split
  · exact le_refl 0
  · have ha : (0 : Rat) ≤ a := by exact_mod_cast h
    have hn : (0 : Rat) ≤ n := by exact_mod_cast (by omega : 0 ≤ n)
    exact le_min (by norm_num) (by positivity)

theorem share_le_hundred : share a n ≤ 100 := by
  unfold share
  split
  · norm_num
  · exact min_le_left _ _

theorem share_mono (h : a ≤ b) : share a n ≤ share b n := by
  unfold share
  split
  · exact le_refl 0
  · have hab : (a : Rat) ≤ b := by exact_mod_cast h
    have hn : (0 : Rat) ≤ n := by exact_mod_cast (by omega : 0 ≤ n)
    gcongr

end Share

/-! ## goals -/

theorem Progress.Counted.longestOn_nonneg {p : Progress} (hp : p.Counted) (side : Option Side) :
    0 ≤ p.longestOn side := by
  rcases side with _ | _ | _
  · show 0 ≤ p.longestStreak
    rw [hp.longest]
    exact Int.le_trans hp.longestHeads (Int.le_max_left _ _)
  · exact hp.longestHeads
  · exact hp.longestTails

namespace Goal

/-- The count that a goal of the coin at a path compares. -/
def current (owner : String) (p : Progress) : Goal → Int
  | .none => 1
  | .totalFlips _ => p.totalFlips
  | .headsFlips _ => p.headsFlips
  | .tailsFlips _ => p.tailsFlips
  | .streak side _ => p.longestOn side
  | .landOnCoin coin _ => p.landCount (coin.getD "")
  | .landOnCoins l => l.completed p
  | .chance _ => if p.randomUnlocks.contains owner then 1 else 0
  | .run _ => p.runLength owner

/-- The number with which a goal compares it; a goal that names no coin asks for nothing. -/
def target : Goal → Int
  | .none => 1
  | .totalFlips n => n
  | .headsFlips n => n
  | .tailsFlips n => n
  | .streak _ n => n
  | .landOnCoin coin n => if coin.getD "" = "" then 0 else n
  | .landOnCoins l => l.coins.length
  | .chance _ => 1
  | .run r => r.length

variable {owner : String} {p q : Progress}

/-- The percentage of a goal is its count in percent of its number. -/
theorem percent_eq (owner : String) (p : Progress) (g : Goal) :
    (g.percent owner p : Except NumberFault Rat) = .ok (share (g.current owner p) g.target) := by
  have hone : share 1 1 = 100 := by norm_num [share]
  have hzero : share 0 1 = 0 := by norm_num [share]
  cases g with
  | none =>
      rw [percent, current, target, hone, hundred_eq]
      rfl
  | landOnCoin coin n =>
      rw [percent, current, target]
      split
      · rw [nothing_eq]
        rfl
      · rw [ratio_eq]
  | chance r =>
      rw [percent, current, target, hundred_eq, nothing_eq]
      split
      · rw [hone]
        rfl
      · rw [hzero]
        rfl
  | _ => exact ratio_eq _ _

/-- No count is negative. -/
theorem current_nonneg (hp : p.Counted) (owner : String) (g : Goal) : 0 ≤ g.current owner p := by
  cases g with
  | none => exact Int.zero_le_ofNat 1
  | totalFlips n =>
      rw [current, ← hp.total]
      exact Int.add_nonneg hp.heads hp.tails
  | headsFlips n => exact hp.heads
  | tailsFlips n => exact hp.tails
  | streak side n => exact hp.longestOn_nonneg side
  | landOnCoin coin n => exact (hp.landings _).1
  | landOnCoins l => exact Int.natCast_nonneg _
  | chance r =>
      rw [current]
      split <;> decide
  | run r => exact (hp.runs owner).1

/-- As progress grows no count gets less, but for a run that is broken. -/
theorem current_mono (h : p.Grows q) {g : Goal} (hg : ∀ r, g ≠ .run r) (owner : String) :
    g.current owner p ≤ g.current owner q := by
  cases g with
  | none => exact Int.le_refl 1
  | totalFlips n => exact h.totalFlips
  | headsFlips n => exact h.headsFlips
  | tailsFlips n => exact h.tailsFlips
  | streak side n => exact h.longestOn side
  | landOnCoin coin n => exact h.landCount _
  | landOnCoins l =>
      refine Int.ofNat_le.2 (List.countP_mono_left fun path _ hpath => ?_)
      rw [decide_eq_true_eq] at hpath ⊢
      exact Int.le_trans hpath (h.landCount path)
  | chance r =>
      have hrandom := h.randomUnlocks owner
      rw [← PathSet.contains_iff, ← PathSet.contains_iff] at hrandom
      rw [current, current]
      split
      · next hp => rw [if_pos (hrandom hp)]
      · split <;> decide
  | run r => exact absurd rfl (hg r)

end Goal

/-! ## coins -/

namespace Coin

/-- How near a coin is to being unlocked, exactly. -/
def share (known : Known) (p : Progress) (coin : Coin) : Rat :=
  if coin.isUnlocked known p then 100
  else
    match coin.measured? with
    | some g => CoinToss.share (g.current coin.path p) g.target
    | none => 0

theorem percent_eq (known : Known) (p : Progress) (coin : Coin) :
    (coin.percent known p : Except NumberFault Rat) = .ok (coin.share known p) := by
  unfold percent share
  split
  · rw [hundred_eq]
    rfl
  · cases coin.measured? with
    | none =>
        dsimp only
        rw [nothing_eq]
        rfl
    | some g => exact g.percent_eq coin.path p

theorem share_mem_range {p : Progress} (hp : p.Counted) (known : Known) (coin : Coin) :
    0 ≤ coin.share known p ∧ coin.share known p ≤ 100 := by
  unfold share
  split
  · norm_num
  · cases coin.measured? with
    | none => norm_num
    | some g => exact ⟨share_nonneg (g.current_nonneg hp coin.path), share_le_hundred⟩

/-- No move takes a coin further from being unlocked, unless a run of it is measured: what is
unlocked stays so, and of what is locked the goal grows. -/
theorem share_mono_play {c : Catalog} {p : Progress} (hp : p.Counted) {coin : Coin}
    (hcoin : coin ∈ c.coins) (hmeasured : ∀ r, coin.measured? ≠ some (.run r)) (m : Move) :
    coin.share c.known p ≤ coin.share c.known (p.play c m).1 := by
  by_cases hafter : coin.isUnlocked c.known (p.play c m).1 = true
  · have hfull : coin.share c.known (p.play c m).1 = 100 := if_pos hafter
    rw [hfull]
    exact (coin.share_mem_range hp c.known).2
  · have hbefore : ¬coin.isUnlocked c.known p = true := mt (isUnlocked_play hcoin m) hafter
    unfold share
    rw [if_neg hbefore, if_neg hafter]
    cases hg : coin.measured? with
    | none => exact le_refl 0
    | some g =>
        have hrun : ∀ r, g ≠ .run r := fun r hr => hmeasured r (hg.trans (congrArg some hr))
        exact share_mono (g.current_mono (p.grows_play c m) hrun coin.path)

end Coin

/-- The percentage of any coin is between zero and a hundred in all progress that moves make of
none, and that of a coin of the catalog never moves back, whatever moves follow, unless what is
measured is a run. -/
theorem percent_in_range_and_grows (c : Catalog) (ms more : List Move) (coin : Coin) :
    let p := (Progress.empty.playAll c ms).1
    let q := (p.playAll c more).1
    (∀ known, ∃ x : Rat, coin.percent known p = .ok x ∧ 0 ≤ x ∧ x ≤ 100) ∧
      (coin ∈ c.coins → (∀ r, coin.measured? ≠ some (.run r)) →
        ∃ x y : Rat, coin.percent c.known p = .ok x ∧ coin.percent c.known q = .ok y ∧ x ≤ y) := by
  intro p q
  have hp : p.Counted := Progress.Counted.empty.playAll c ms
  refine ⟨fun known => ⟨_, coin.percent_eq known p, coin.share_mem_range hp known⟩,
    fun hcoin hmeasured => ⟨_, _, coin.percent_eq c.known p, coin.percent_eq c.known q, ?_⟩⟩
  have hgrown : q.Counted ∧ coin.share c.known p ≤ coin.share c.known q :=
    Progress.playAll_keeps (P := fun r => r.Counted ∧ coin.share c.known p ≤ coin.share c.known r)
      (fun r m _ hr => ⟨hr.1.play c m, hr.2.trans (coin.share_mono_play hr.1 hcoin hmeasured m)⟩)
      ⟨hp, le_refl _⟩
  exact hgrown.2

/-- A coin that chance unlocks, after two flips. -/
def patientCoin : Coin where
  path := "patient"
  name := ""
  category := ""
  rarity := none
  unlock := some
    { goal := .chance ⟨0, false, none⟩
      prerequisites := [⟨.totalFlips 2, [], "", "", .common⟩]
      description := ""
      flavorText := ""
      rarity := .common }
  effect := none

/-- The only coin of its catalog. -/
def patientCatalog : Catalog := ⟨[patientCoin], by decide⟩

/-- A flip on heads. -/
def patientMoves : List Move :=
  [.land ⟨"patient", .heads, some "patient", some "patient"⟩ 1 firstOfMay]

/-- After one of the two flips the coin is half way, and no flip takes it back. -/
theorem percent_in_range_and_grows_patientCoin :
    patientCoin ∈ patientCatalog.coins ∧ (∀ r, patientCoin.measured? ≠ some (.run r)) ∧
      ∃ y : Rat, patientCoin.percent patientCatalog.known ((Progress.empty.playAll patientCatalog
        patientMoves).1.playAll patientCatalog patientMoves).1 = .ok y ∧ 50 ≤ y := by
  have hcoin : patientCoin ∈ patientCatalog.coins := List.mem_singleton_self _
  have hmeasured : ∀ r, patientCoin.measured? ≠ some (.run r) := by
    intro r h
    cases h
  refine ⟨hcoin, hmeasured, ?_⟩
  obtain ⟨x, y, hx, hy, hle⟩ :=
    (percent_in_range_and_grows patientCatalog patientMoves patientMoves patientCoin).2 hcoin
      hmeasured
  have hhalf : patientCoin.percent patientCatalog.known
      (Progress.empty.playAll patientCatalog patientMoves).1 = .ok (50 : Rat) := by
    rw [Coin.percent_eq]
    exact congrArg Except.ok (by decide +kernel)
  obtain rfl := Except.ok.inj (hx.symm.trans hhalf)
  exact ⟨y, hy, hle⟩

end CoinToss
