import CoinToss.Proofs.Catalog.Bare
import CoinToss.Proofs.Unlock.Sight
import CoinToss.Session.Standing

/-!
# CoinToss.Proofs.Unlock.Bare

Landings, rolls and reports of bare coins.

A sweep over bare coins does what the sweep over the coins does, and yields what that yields, the
coins in it bare.  So progress and draws do not depend on what is only told of coins, nor does what
a player is told about being unlocked.

* `sweep_map` — a sweep over other elements whose steps come to the same;
* `track_bare`, `rollAll_bare` — a landing and the rolls;
* `describe_bare`, `percent_bare` — how far a coin is.
-/

namespace CoinToss

open Decimal

/-- Steps that come to the same for other elements come to the same in a sweep. -/
theorem sweep_map {σ α β γ δ : Type} {step : σ → α → σ × Option β} {other : σ → γ → σ × Option δ}
    {f : α → γ} {g : β → δ}
    (h : ∀ s a, other s (f a) = ((step s a).1, (step s a).2.map g)) (s : σ) (as : List α) :
    sweep other s (as.map f) = ((sweep step s as).1, (sweep step s as).2.map g) := by
  induction as generalizing s with
  | nil => rfl
  | cons a as ih =>
      rw [List.map_cons, sweep_cons, sweep_cons, h, ih, List.map_append]
      cases (step s a).2 <;> rfl

/-! ## landings -/

namespace Progress

@[simp] theorem advanceRun_bare (c : Catalog) (l : Landing) (p : Progress) (coin : Coin) :
    p.advanceRun c.bare l coin.bare = p.advanceRun c l coin := by
  simp only [advanceRun, Coin.goal_bare, Coin.isUnlocked_bare, Coin.meetsPrerequisites_bare,
    Coin.path_bare, Catalog.known_bare, Catalog.matchesLanding_bare]
  rfl

@[simp] theorem land_bare (c : Catalog) (p : Progress) (l : Landing) (streak : Int) :
    p.land c.bare l streak = p.land c l streak := by
  have hstep (q : Progress) (coin : Coin) : advanceRun c.bare l q coin.bare =
      ((advanceRun c l q coin).1, (advanceRun c l q coin).2.map id) := by
    rw [advanceRun_bare, Option.map_id]
    rfl
  have hsteps := sweep_map hstep (p.count l streak) c.coins
  rw [List.map_id] at hsteps
  exact hsteps

theorem settle_bare (known : Known) {before earlier : Coin → Bool}
    (h : ∀ coin, before coin.bare = earlier coin) (time : DateTime) (p : Progress) (coin : Coin) :
    p.settle known before time coin.bare =
      ((p.settle known earlier time coin).1,
        (p.settle known earlier time coin).2.map Coin.bare) := by
  have htells : p.tells before coin.bare = p.tells earlier coin := by
    rw [tells, h, Coin.path_bare, Coin.goalKind_bare, tells]
  simp only [settle, htells, Coin.isUnlocked_bare, Coin.path_bare, Coin.unlock_bare,
    Option.isNone_map]
  by_cases hlocked : (coin.unlock.isNone || !coin.isUnlocked known p) = true
  · rw [if_pos hlocked, if_pos hlocked, Option.map_none]
  · rw [if_neg hlocked, if_neg hlocked]
    by_cases htold : p.tells earlier coin = true
    · rw [if_pos htold, if_pos htold, Option.map_some]
    · rw [if_neg htold, if_neg htold, Option.map_none]

/-- A landing is recorded alike, and tells of the same coins. -/
theorem track_bare (c : Catalog) (p : Progress) (l : Landing) (streak : Int) (time : DateTime) :
    p.track c.bare l streak time =
      ((p.track c l streak time).1,
        ⟨(p.track c l streak time).2.unlocked.map Coin.bare,
          (p.track c l streak time).2.broken⟩) := by
  have hbefore (coin : Coin) :
      coin.bare.isUnlocked c.known p = coin.isUnlocked c.known p := coin.isUnlocked_bare c.known p
  have hsettle := sweep_map (settle_bare c.known hbefore time) (p.land c l streak).1 c.coins
  simp only [track, land_bare, Catalog.known_bare, Catalog.coins_bare, hsettle]

end Progress

/-! ## rolls -/

/-- A chance unlock of a bare coin. -/
def LuckyUnlock.bare (u : LuckyUnlock) : LuckyUnlock := { u with coin := u.coin.bare }

@[simp] theorem Coin.roll?_bare (c : Catalog) (l : Landing) (multiplier : Float) (p : Progress)
    (coin : Coin) : coin.bare.roll? c.bare l multiplier p = coin.roll? c l multiplier p := by
  simp only [roll?, goal_bare, isUnlocked_bare, meetsPrerequisites_bare, Catalog.known_bare]

theorem rollCoin_bare (c : Catalog) (l : Landing) (multiplier : Float) (time : DateTime)
    (s : Progress × Source) (coin : Coin) :
    rollCoin c.bare l multiplier time s coin.bare =
      ((rollCoin c l multiplier time s coin).1,
        (rollCoin c l multiplier time s coin).2.map LuckyUnlock.bare) := by
  obtain ⟨p, source⟩ := s
  simp only [rollCoin, Coin.roll?_bare, Coin.path_bare]
  split
  · rfl
  · split <;> rfl

/-- The same coins are unlocked by chance, by the same draws. -/
theorem rollAll_bare (c : Catalog) (l : Landing) (multiplier : Float) (time : DateTime)
    (p : Progress) (source : Source) :
    rollAll c.bare l multiplier time p source =
      ((rollAll c l multiplier time p source).1,
        (rollAll c l multiplier time p source).2.map LuckyUnlock.bare) :=
  sweep_map (rollCoin_bare c l multiplier time) (p, source) c.coins

/-! ## reports -/

@[simp] theorem Coin.describe_bare (known : Known) (p : Progress) (coin : Coin) :
    coin.bare.describe known p = coin.describe known p := by
  have hblocker : coin.bare.blocker? known p = coin.blocker? known p := by
    rw [blocker?, required_bare, path_bare, blocker?]
  rw [describe, isUnlocked_bare, hblocker, goal_bare, path_bare, describe]

@[simp] theorem Coin.percent_bare {α : Type} [Quantity α] (known : Known) (p : Progress)
    (coin : Coin) : (coin.bare.percent known p : Except NumberFault α) = coin.percent known p := by
  have hmeasured : coin.bare.measured? = coin.measured? := by
    rw [measured?, goal_bare, required_bare, measured?]
  rw [percent, isUnlocked_bare, hmeasured, path_bare, percent]

/-- A player is told the same about every path. -/
theorem Game.describe_bare (c : Catalog) (g : Game) (path : String) :
    g.describe c.bare path = g.describe c path := by
  rw [describe, Catalog.get?_bare, Catalog.known_bare, describe]
  cases c.get? path with
  | none => rfl
  | some coin => exact coin.describe_bare c.known g.progress

/-- And the same percentage. -/
theorem Game.percent_bare (c : Catalog) (g : Game) (path : String) :
    g.percent c.bare path = g.percent c path := by
  rw [percent, Catalog.get?_bare, Catalog.known_bare, percent]
  cases c.get? path with
  | none => rfl
  | some coin => exact coin.percent_bare c.known g.progress

end CoinToss
