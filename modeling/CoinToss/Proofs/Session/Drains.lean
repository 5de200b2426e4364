import CoinToss.Proofs.Catalog.Kept
import CoinToss.Proofs.Session.Saving
import CoinToss.Proofs.Session.Tosses
import Mathlib.Data.Fintype.EquivFin

/-!
# CoinToss.Proofs.Session.Drains

Which catalogs take the streak below zero.

A combo may add less than nothing.  What a combo multiplies is kept at zero at least, but what it
adds is not: a flip makes the streak one at least, so it stays at zero or above as long as no combo
takes more than one from it.  Where one does, it takes the first streak of a game below zero:

```
0  --flip-->  1  --combo-->  1 + bonus
```

* `Combo.Drains`, `Coin.Drains` — combos that take more than one;
* `Faces.comboStreak_cases` — what a bonus makes of a streak;
* `run_toss_nonneg`, `tossAll_nonneg` — without such combos no toss leaves a streak below zero;
* `exists_toss_neg` — with one of them some toss does;
* `streak_nonneg_iff` — both together.
-/

namespace CoinToss

open Decimal

/-- A combo drains a streak if it adds to it, and what it adds takes more than one. -/
def Combo.Drains (c : Combo Float) : Prop :=
  c.mode = .additive ∧
    ∃ bonus < -1, Quantity.round (c.multiplier * Quantity.ofRatio 100 1) = .ok bonus

/-- Whether the effect of a coin is a combo that drains streaks. -/
def Coin.Drains (coin : Coin) : Prop := ∃ c, coin.faceEffect = .combo c ∧ c.Drains

/-! ## bonuses -/

/-- A flip makes a streak that was not below zero one at least. -/
theorem one_le_nextStreak {streak : Int} (h : 0 ≤ streak) (last : Option Side) (side : Side) :
    1 ≤ nextStreak last streak side := by
  unfold nextStreak
  split <;> omega

section Bonus

variable {f : Faces Float} {c : Combo Float} {e : Effect Float} {streak n : Int}

/-- A bonus leaves the streak as it is, adds to it, or makes it something not below zero. -/
theorem Faces.comboStreak_cases (h : f.comboStreak streak = .ok n) :
    n = streak ∨
      (∃ c e bonus, f.loneCombo? = some (c, e) ∧ c.mode = .additive ∧
        Quantity.round (c.multiplier * Quantity.ofRatio 100 1) = .ok bonus ∧ n = streak + bonus) ∨
      0 ≤ n := by
  unfold comboStreak at h
  split at h
  case h_1 => exact .inl (Except.ok.inj h).symm
  case h_2 c e hlone =>
      split at h
      · -- the combo enhances the other face and leaves the streak alone
        exact .inl (Except.ok.inj h).symm
      · split at h
        · next hmode =>
          dsimp only at h
          split at h
          · -- a bonus that is no number is left out
            exact .inl (Except.ok.inj h).symm
          · obtain ⟨bonus, hround, hn⟩ := bind_eq_ok.1 h
            exact .inr (.inl ⟨c, e, bonus, hlone, hmode, hround, (Except.ok.inj hn).symm⟩)
        · obtain ⟨x, -, h⟩ := bind_eq_ok.1 h
          dsimp only at h
          split at h
          · -- and so is a product that is no number or infinite
            exact .inl (Except.ok.inj h).symm
          · obtain ⟨k, -, hn⟩ := bind_eq_ok.1 h
            rw [← Except.ok.inj hn]
            exact .inr (.inr (Int.le_max_left 0 k))

/-- Faces without a combo that drains leave a streak of one or more at zero or above. -/
theorem Faces.comboStreak_nonneg (hf : ∀ c e, f.loneCombo? = some (c, e) → ¬c.Drains)
    (hstreak : 1 ≤ streak) (h : f.comboStreak streak = .ok n) : 0 ≤ n := by
  obtain rfl | ⟨c, e, bonus, hlone, hmode, hround, rfl⟩ | hn := f.comboStreak_cases h
  · omega
  · have hbonus : ¬bonus < -1 := fun hlt => hf c e hlone ⟨hmode, bonus, hlt, hround⟩
    omega
  · exact hn

theorem isFinite_of_round {x : Float} (h : Quantity.round x = .ok n) : x.isFinite = true := by
  rw [← isOk_round, h]
  rfl

/-- Opposite to an effect it does not enhance, a combo adds what can be rounded. -/
theorem Faces.comboStreak_of_round (h : f.loneCombo? = some (c, e)) (he : e.isEnhanceable = false)
    (hmode : c.mode = .additive)
    (hround : Quantity.round (c.multiplier * Quantity.ofRatio 100 1) = .ok n) :
    f.comboStreak streak = .ok (streak + n) := by
  have hfinite := isFinite_of_round hround
  rw [isFinite_eq, Bool.and_eq_true, Bool.not_eq_true'] at hfinite
  have hnumber : ¬Quantity.isNaN (c.multiplier * Quantity.ofRatio 100 1) = true :=
    Bool.eq_false_iff.1 hfinite.1
  rw [comboStreak, h]
  dsimp only
  rw [he, if_neg Bool.false_ne_true, hmode]
  dsimp only
  rw [if_neg hnumber, hround]
  rfl

/-- Such a combo bursts no streak. -/
theorem Combo.Drains.not_bursts (hc : c.Drains) (streak : Int) : ¬c.Bursts streak := by
  obtain ⟨hmode, bonus, -, hround⟩ := hc
  have hfinite := isFinite_of_round hround
  rw [isFinite_eq, Bool.and_eq_true, Bool.not_eq_true', Bool.not_eq_true'] at hfinite
  rw [Bursts, hmode]
  exact Bool.eq_false_iff.1 hfinite.2

end Bonus

/-! ## catalogs -/

namespace Catalog

variable {c : Catalog} {path : String}

theorem effectAt_of_mem {coin : Coin} (h : coin ∈ c.coins) :
    c.effectAt coin.path = coin.faceEffect := by
  rw [effectAt, get?_of_mem h]
  rfl

theorem effectAt_of_notMem (h : path ∉ c.paths) : c.effectAt path = .none := by
  have hnone : c.get? path = none := by
    rw [← Option.not_isSome_iff_eq_none]
    exact fun hsome => h ((c.contains_iff path).1 hsome)
  rw [effectAt, hnone]
  rfl

/-- A combo at a path is that of a coin. -/
theorem exists_coin_of_effectAt {combo : Combo Float} (h : c.effectAt path = .combo combo) :
    ∃ coin ∈ c.coins, coin.faceEffect = .combo combo := by
  unfold effectAt at h
  cases hcoin : c.get? path with
  | none =>
      rw [hcoin] at h
      contradiction
  | some coin =>
      rw [hcoin] at h
      exact ⟨coin, List.mem_of_find?_eq_some hcoin, h⟩

/-- No combo on the faces drains if none of the catalog does. -/
theorem not_drains_of_loneCombo? (h : ∀ coin ∈ c.coins, ¬coin.Drains) {heads tails : String}
    {combo : Combo Float} {e : Effect Float}
    (hlone : (c.faces heads tails).loneCombo? = some (combo, e)) : ¬combo.Drains := by
  intro hdrains
  obtain hfaces | hfaces := Faces.eq_of_loneCombo? hlone
  · obtain ⟨coin, hcoin, heffect⟩ := exists_coin_of_effectAt (congrArg Faces.heads hfaces)
    exact h coin hcoin ⟨combo, heffect, hdrains⟩
  · obtain ⟨coin, hcoin, heffect⟩ := exists_coin_of_effectAt (congrArg Faces.tails hfaces)
    exact h coin hcoin ⟨combo, heffect, hdrains⟩

/-- There is a path at which no coin is. -/
theorem exists_notMem_paths (c : Catalog) : ∃ path, path ∉ c.paths := by
  obtain ⟨path, hpath⟩ := Infinite.exists_notMem_finset c.paths.toFinset
  exact ⟨path, fun h => hpath (List.mem_toFinset.2 h)⟩

end Catalog

/-! ## sessions -/

namespace World

variable {s : Setup} {w : World}

/-- A toss leaves no streak below zero if no coin drains. -/
theorem run_toss_nonneg (hs : ∀ coin ∈ s.catalog.coins, ¬coin.Drains)
    (hidle : w.game.busy = false) (hstreak : 0 ≤ w.game.streak) (t : Toss) :
    0 ≤ (t.run s w).1.game.streak ∧
      ∀ o, (t.run s w).2 = .ok (.flipped o) → 0 ≤ o.streak := by
  cases houtcome : t.outcome s w with
  | error fault =>
      obtain ⟨hresult, hgame⟩ := run_toss_of_error hidle houtcome
      refine ⟨by rwa [hgame], fun o ho => ?_⟩
      rw [hresult] at ho
      contradiction
  | ok outcome =>
      obtain ⟨htold, hbonus, _, _, _, -, hgame⟩ := run_toss_of_ok hidle houtcome
      have hnonneg : 0 ≤ outcome.streak :=
        Faces.comboStreak_nonneg (fun _ _ hlone => Catalog.not_drains_of_loneCombo? hs hlone)
          (one_le_nextStreak hstreak _ _) hbonus
      refine ⟨by rwa [hgame], fun o ho => ?_⟩
      obtain ⟨saved, hsaved⟩ | hfailed := htold
      · rw [hsaved] at ho
        cases ho
        exact hnonneg
      · rw [hfailed] at ho
        contradiction

/-- And so does no session of tosses. -/
theorem tossAll_nonneg (hs : ∀ coin ∈ s.catalog.coins, ¬coin.Drains) (hidle : w.game.busy = false)
    (hstreak : 0 ≤ w.game.streak) (ts : List Toss) :
    0 ≤ (w.tossAll s ts).1.game.streak ∧
      ∀ o, .ok (.flipped o) ∈ (w.tossAll s ts).2 → 0 ≤ o.streak := by
  induction ts generalizing w with
  | nil => exact ⟨hstreak, by simp [tossAll, through]⟩
  | cons t ts ih =>
      obtain ⟨hgame, htold⟩ := run_toss_nonneg hs hidle hstreak t
      obtain ⟨hafter, hlater⟩ := ih (idle_run_toss hidle t) hgame
      refine ⟨hafter, fun o ho => ?_⟩
      obtain hfirst | hrest := List.mem_cons.1 ho
      · exact htold o hfirst.symm
      · exact hlater o hrest

/-- A coin that drains takes the first streak of a new game below zero, opposite to a path at which
no coin is. -/
theorem exists_toss_neg {coin : Coin} (hcoin : coin ∈ s.catalog.coins) (hdrains : coin.Drains)
    (hgame : w.game = .fresh) : ∃ t : Toss, (t.run s w).1.game.streak < 0 := by
  obtain ⟨combo, heffect, hcombo⟩ := hdrains
  obtain ⟨path, hpath⟩ := s.catalog.exists_notMem_paths
  have hidle : w.game.busy = false := by rw [hgame]; rfl
  let t : Toss := ⟨{ heads := coin.path, tails := path }, {}, w.clock⟩
  have hfaces : t.faces s w = ⟨.combo combo, .none⟩ := by
    show s.catalog.faces coin.path path = _
    rw [Catalog.faces, Catalog.effectAt_of_mem hcoin, Catalog.effectAt_of_notMem hpath, heffect]
  have hlone : (t.faces s w).loneCombo? = some (combo, .none) := by rw [hfaces]; rfl
  have hok := Toss.isOk_outcome (s := s) (w := w) (t := t)
    (fun ⟨c, interval, hstalled, _⟩ => by
      rw [hlone] at hstalled
      cases hstalled)
    (fun n hbursts => hcombo.not_bursts n ((Faces.bursts_iff hlone).1 hbursts).2)
  refine ⟨t, ?_⟩
  cases houtcome : t.outcome s w with
  | error fault =>
      rw [houtcome] at hok
      contradiction
  | ok o =>
      obtain ⟨-, hbonus, _, _, _, -, hafter⟩ := run_toss_of_ok hidle houtcome
      -- the first flip counts to one, and the combo takes more than that
      have hfirst : nextStreak w.game.last w.game.streak o.side = 1 := by rw [hgame]; rfl
      obtain ⟨hmode, bonus, hbonuslt, hround⟩ := hcombo
      rw [hfirst, Faces.comboStreak_of_round hlone rfl hmode hround] at hbonus
      have := Except.ok.inj hbonus
      rw [hafter]
      show o.streak < 0
      omega

end World

/-- The streak never falls below zero, neither in a game nor as it is told, exactly if no coin of
the catalog is a combo that takes more than one from it. -/
theorem streak_nonneg_iff (s : Setup) :
    (∀ (w : World) (ts : List Toss), w.game = .fresh →
        0 ≤ (w.tossAll s ts).1.game.streak ∧
          ∀ o, .ok (.flipped o) ∈ (w.tossAll s ts).2 → 0 ≤ o.streak) ↔
      ∀ coin ∈ s.catalog.coins, ¬coin.Drains := by
  constructor
  · intro hall coin hcoin hdrains
    obtain ⟨t, hneg⟩ := World.exists_toss_neg (w := doublingStart) hcoin hdrains rfl
    exact absurd hneg (Int.not_lt.2 (hall doublingStart [t] rfl).1)
  · intro hs w ts hfresh
    refine World.tossAll_nonneg hs ?_ ?_ ts
    · rw [hfresh]; rfl
    · rw [hfresh]; exact Int.le_refl 0

/-- Minus five hundredths take five. -/
example : Combo.Drains ⟨.additive, -0.05⟩ := ⟨rfl, -5, by decide, by decide +kernel⟩

end CoinToss
