import CoinToss.Flip.Odds
import CoinToss.Proofs.Decimal.Datum

/-!
# CoinToss.Proofs.Flip.Faults

Which effects keep a flip from being decided.

Odds, results and pauses can fail in one place: where a combo shortens the pause of an effect that
flips by itself.  The streak can fail in another: where a combo opposite to an effect it does not
boost adds to it, or multiplies it.  Both fail exactly where a number that is to become an integer
is not finite, or an integer that is to become a double is beyond them.

* `Combo.Stalls`, `Faces.Stalls` — a pause that cannot be told in milliseconds;
* `Combo.Bursts`, `Faces.Bursts` — a streak that cannot be counted;
* `isOk_enhanced_iff`, `isOk_headsOdds_iff`, `isOk_resolve_iff`, `isOk_autoClickInterval_iff`,
  `isOk_comboStreak_iff` — nothing else fails.
-/

namespace CoinToss

open Decimal

section Doubles

variable (x y : Float)

theorem lt_iff : Quantity.lt x y = true ↔ x < y := decide_eq_true_iff

theorem isOk_round : (Quantity.round x).isOk = x.isFinite := isOk_roundInt x

theorem isOk_truncate : (Quantity.truncate x).isOk = x.isFinite := isOk_truncInt x

theorem ofInt_eq (n : Int) : (Quantity.ofInt n : Except NumberFault Float) = ofInt n := rfl

end Doubles

theorem isOk_bind_pure {ε α β : Type} (x : Except ε α) (f : α → β) :
    (x >>= fun a => pure (f a)).isOk = x.isOk := by
  cases x <;> rfl

theorem exists_of_isOk {ε α : Type} {x : Except ε α} (h : x.isOk = true) : ∃ a, x = .ok a := by
  cases x with
  | error e => contradiction
  | ok a => exact ⟨a, rfl⟩

/-- What comes to something after a first step comes to it from what that step has come to. -/
theorem bind_eq_ok {ε α β : Type} {x : Except ε α} {f : α → Except ε β} {b : β} :
    x >>= f = .ok b ↔ ∃ a, x = .ok a ∧ f a = .ok b := by
  cases x with
  | error e =>
      refine iff_of_false (fun h => ?_) (fun ⟨a, ha, _⟩ => ?_)
      · cases h
      · cases ha
  | ok a =>
      refine ⟨fun h => ⟨a, rfl, h⟩, fun ⟨a', ha, h⟩ => ?_⟩
      rwa [← Except.ok.inj ha] at h

/-! ## pauses -/

/-- A combo stalls a pause if what it takes off is not finite, or if it is to divide a pause that is
beyond the doubles, or if what is left then is not finite. -/
def Combo.Stalls (c : Combo Float) (interval : Int) : Prop :=
  match c.mode with
  | .additive => (c.multiplier * intervalStep).isFinite = false
  | .multiplicative =>
    Quantity.ofRatio 0 1 < c.multiplier ∧
      (2 ^ 1024 - 2 ^ 970 ≤ interval.natAbs ∨
        (nearestInt interval / c.multiplier).isFinite = false)

/-- The faces stall if one is a combo that stalls the pause of the other. -/
def Faces.Stalls (f : Faces Float) : Prop :=
  ∃ c interval, f.loneCombo? = some (c, .autoClick interval) ∧ c.Stalls interval

theorem Combo.isOk_quicken_iff (c : Combo Float) (interval : Int) :
    (c.quicken interval).isOk = true ↔ ¬c.Stalls interval := by
  unfold quicken Stalls
  cases c.mode with
  | additive =>
      dsimp only
      rw [isOk_bind_pure, isOk_round, Bool.not_eq_false]
  | multiplicative =>
      dsimp only
      by_cases hpos : Quantity.ofRatio 0 1 < c.multiplier
      · rw [if_pos ((lt_iff _ _).2 hpos)]
        obtain ⟨hfits, hint⟩ | ⟨hlarge, hint⟩ := ofInt_cases interval
        · rw [ofInt_eq, hint]
          show (Quantity.truncate (nearestInt interval / c.multiplier)).isOk = true ↔ _
          rw [isOk_truncate, ← Bool.not_eq_false]
          have hlarge := Nat.not_le.2 hfits
          exact not_congr ⟨fun h => ⟨hpos, .inr h⟩, fun h => h.2.resolve_left hlarge⟩
        · rw [ofInt_eq, hint]
          exact iff_of_false Bool.false_ne_true fun h => h ⟨hpos, .inl hlarge⟩
      · rw [if_neg (mt (lt_iff _ _).1 hpos)]
        exact iff_of_true rfl fun h => hpos h.1

theorem Effect.isOk_enhance_iff (c : Combo Float) (e : Effect Float) :
    (e.enhance c).isOk = true ↔ ∀ interval, e = .autoClick interval → ¬c.Stalls interval := by
  cases e with
  | autoClick interval =>
      simp only [enhance, isOk_bind_pure, c.isOk_quicken_iff, Effect.autoClick.injEq, forall_eq']
  | _ => simp [enhance, Except.isOk, Except.toBool, pure, Except.pure]

/-! ## odds and results -/

theorem Effect.eq_of_combo? {e : Effect Float} {c : Combo Float} (h : e.combo? = some c) :
    e = .combo c := by
  cases e with
  | combo d => exact congrArg Effect.combo (Option.some.inj h)
  | _ => contradiction

namespace Faces

variable {f : Faces Float}

/-- A lone combo is on one face, and the effect opposite to it on the other. -/
theorem eq_of_loneCombo? {c : Combo Float} {e : Effect Float} (h : f.loneCombo? = some (c, e)) :
    f = ⟨.combo c, e⟩ ∨ f = ⟨e, .combo c⟩ := by
  obtain ⟨heads, tails⟩ := f
  unfold loneCombo? at h
  split at h
  case h_1 d hheads _ =>
      obtain ⟨rfl, rfl⟩ := Prod.mk.inj (Option.some.inj h)
      exact .inl (congrArg (mk · tails) (Effect.eq_of_combo? hheads))
  case h_2 d _ htails =>
      obtain ⟨rfl, rfl⟩ := Prod.mk.inj (Option.some.inj h)
      exact .inr (congrArg (mk heads) (Effect.eq_of_combo? htails))
  case h_3 => contradiction

/-- Enhancing comes down to the effect opposite to a lone combo. -/
theorem enhanced_cases (f : Faces Float) :
    f.loneCombo? = none ∧ f.enhanced.isOk = true ∨
      ∃ c e, f.loneCombo? = some (c, e) ∧ f.enhanced.isOk = (e.enhance c).isOk := by
  unfold enhanced loneCombo?
  split
  case h_1 c _ _ => exact .inr ⟨c, _, rfl, isOk_bind_pure _ _⟩
  case h_2 c _ _ => exact .inr ⟨c, _, rfl, isOk_bind_pure _ _⟩
  case h_3 => exact .inl ⟨rfl, rfl⟩

/-- The faces are enhanced unless one of them stalls the other. -/
theorem isOk_enhanced_iff (f : Faces Float) : f.enhanced.isOk = true ↔ ¬f.Stalls := by
  obtain ⟨hlone, hok⟩ | ⟨c, e, hlone, hok⟩ := f.enhanced_cases
  · refine iff_of_true hok ?_
    rintro ⟨c, interval, hstalled, -⟩
    rw [hlone] at hstalled
    contradiction
  · rw [hok, e.isOk_enhance_iff c, Stalls, hlone]
    constructor
    · rintro hall ⟨d, interval, heq, hstalled⟩
      obtain ⟨rfl, rfl⟩ := Prod.mk.inj (Option.some.inj heq)
      exact hall interval rfl hstalled
    · rintro hnone interval rfl hstalled
      exact hnone ⟨c, interval, rfl, hstalled⟩

theorem isOk_headsOdds_iff (f : Faces Float) (last : Option Side) :
    (f.headsOdds last).isOk = true ↔ ¬f.Stalls := by
  rw [headsOdds, isOk_bind_pure, f.isOk_enhanced_iff]

theorem isOk_autoClickInterval_iff (f : Faces Float) :
    f.autoClickInterval.isOk = true ↔ ¬f.Stalls := by
  rw [autoClickInterval, isOk_bind_pure, f.isOk_enhanced_iff]

/-- Faces that stall force no side: one flips by itself and the other is a combo. -/
theorem forced?_of_stalls (h : f.Stalls) : f.forced? = none := by
  obtain ⟨c, interval, hlone, -⟩ := h
  obtain rfl | rfl := eq_of_loneCombo? hlone <;> rfl

/-- What is forced needs no odds, but then nothing stalls. -/
theorem isOk_resolve_iff (f : Faces Float) (last : Option Side) (draw : Float) :
    (f.resolve last draw).isOk = true ↔ ¬f.Stalls := by
  unfold resolve
  cases hforced : f.forced? with
  | none =>
      dsimp only
      rw [isOk_bind_pure, f.isOk_headsOdds_iff]
  | some side =>
      have hstalls : ¬f.Stalls := fun h => by
        rw [forced?_of_stalls h] at hforced
        contradiction
      cases side <;> exact iff_of_true rfl hstalls

end Faces

/-! ## streaks -/

/-- A combo bursts a streak if its bonus is infinite, or if it is to multiply a streak that is
beyond the doubles. -/
def Combo.Bursts (c : Combo Float) (streak : Int) : Prop :=
  match c.mode with
  | .additive => (c.multiplier * Quantity.ofRatio 100 1).isInf = true
  | .multiplicative => 2 ^ 1024 - 2 ^ 970 ≤ streak.natAbs

/-- The faces burst a streak if one is a combo that does, and it does not boost the other. -/
def Faces.Bursts (f : Faces Float) (streak : Int) : Prop :=
  ∃ c e, f.loneCombo? = some (c, e) ∧ e.isEnhanceable = false ∧ c.Bursts streak

theorem Faces.bursts_iff {f : Faces Float} {c : Combo Float} {e : Effect Float} {streak : Int}
    (h : f.loneCombo? = some (c, e)) :
    f.Bursts streak ↔ e.isEnhanceable = false ∧ c.Bursts streak := by
  constructor
  · rintro ⟨d, opposite, hlone, hopposite, hbursts⟩
    obtain ⟨rfl, rfl⟩ := Prod.mk.inj (Option.some.inj (h.symm.trans hlone))
    exact ⟨hopposite, hbursts⟩
  · rintro ⟨hopposite, hbursts⟩
    exact ⟨c, e, h, hopposite, hbursts⟩

/-- A bonus that is no number is left out; an infinite one cannot be added. -/
theorem isOk_addBonus_iff (bonus : Float) (streak : Int) :
    Except.isOk (if Quantity.isNaN bonus then pure streak
      else do pure (streak + (← Quantity.round bonus)) : Except NumberFault Int) = true ↔
      ¬bonus.isInf = true := by
  have hkind := isFinite_eq bonus
  split
  case isTrue hnan => exact iff_of_true rfl (Bool.not_eq_true _ ▸ isInf_of_isNaN hnan)
  case isFalse hnan =>
      have hnan : bonus.isNaN = false := Bool.eq_false_iff.2 hnan
      rw [isOk_bind_pure, isOk_round, hkind, hnan]
      simp

/-- A product that is no number or infinite is left out. -/
theorem isOk_product (product : Float) (streak : Int) :
    Except.isOk (if Quantity.isNaN product || Quantity.isInfinite product then pure streak
      else do pure (max 0 (← Quantity.round product)) : Except NumberFault Int) = true := by
  have hkind := isFinite_eq product
  split
  case isTrue => rfl
  case isFalse h =>
      have h : (product.isNaN || product.isInf) = false := Bool.eq_false_iff.2 h
      obtain ⟨hnan, hinf⟩ := Bool.or_eq_false_iff.1 h
      rw [isOk_bind_pure, isOk_round, hkind, hnan, hinf]
      rfl

/-- A streak has its bonus unless the faces burst it. -/
theorem Faces.isOk_comboStreak_iff (f : Faces Float) (streak : Int) :
    (f.comboStreak streak).isOk = true ↔ ¬f.Bursts streak := by
  unfold comboStreak
  cases hlone : f.loneCombo? with
  | none =>
      refine iff_of_true rfl ?_
      rintro ⟨c, e, h, -⟩
      rw [hlone] at h
      contradiction
  | some x =>
      obtain ⟨c, e⟩ := x
      rw [bursts_iff hlone]
      dsimp only
      cases he : e.isEnhanceable with
      | true => exact iff_of_true rfl fun h => by simp at h
      | false =>
          rw [if_neg Bool.false_ne_true, Combo.Bursts]
          cases c.mode with
          | additive =>
              dsimp only
              rw [isOk_addBonus_iff]
              simp
          | multiplicative =>
              obtain ⟨hfits, hint⟩ | ⟨hlarge, hint⟩ := ofInt_cases streak
              · rw [ofInt_eq, hint]
                refine iff_of_true (isOk_product _ streak) fun h => ?_
                exact Nat.not_le.2 hfits h.2
              · rw [ofInt_eq, hint]
                exact iff_of_false Bool.false_ne_true fun h => h ⟨rfl, hlarge⟩

/-! ## all that can fail -/

/-- Faces are enhanced, odds told, flips decided and pauses told unless the faces stall, and a
streak is counted on unless they burst it. -/
theorem Faces.isOk_unless_stalls_or_bursts (f : Faces Float) (last : Option Side) (draw : Float)
    (streak : Int) :
    (f.enhanced.isOk = true ↔ ¬f.Stalls) ∧ ((f.headsOdds last).isOk = true ↔ ¬f.Stalls) ∧
      ((f.resolve last draw).isOk = true ↔ ¬f.Stalls) ∧
      (f.autoClickInterval.isOk = true ↔ ¬f.Stalls) ∧
      ((f.comboStreak streak).isOk = true ↔ ¬f.Bursts streak) :=
  ⟨f.isOk_enhanced_iff, f.isOk_headsOdds_iff last, f.isOk_resolve_iff last draw,
    f.isOk_autoClickInterval_iff, f.isOk_comboStreak_iff streak⟩

/-- Two thousand times `10 ^ 308` milliseconds are not finite. -/
example : (Faces.headsOdds ⟨.autoClick 1000, .combo ⟨.additive, 1e308⟩⟩ none).isOk = false := by
  decide +kernel

end CoinToss
