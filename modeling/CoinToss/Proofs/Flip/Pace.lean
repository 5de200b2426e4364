import CoinToss.Proofs.Flip.Precedence

/-!
# CoinToss.Proofs.Flip.Pace

The pause that two faces set between automatic flips.

A pause can be told wherever a flip can be decided: what keeps it from being told also keeps odds
from being worked out, and faces that force a side, for which no odds are needed, have no pause that
a combo could stall.

* `Effect.isSome_interval?` — which effects have a pause;
* `autoClickInterval_eq_ok` — when there is a pause, and how short it can be;
* `pace_of_resolve` — a decided flip has a pause.
-/

namespace CoinToss

theorem Effect.isSome_interval? (e : Effect Float) : e.interval?.isSome = (e.kind == .autoClick) := by
  cases e <;> rfl

namespace Faces

variable {f : Faces Float}

/-- There is a pause exactly if a face flips by itself, and it is never shorter than a tenth of a
second. -/
theorem autoClickInterval_eq_ok {pause : Option Int} (h : f.autoClickInterval = .ok pause) :
    (pause = none ↔ f.has .autoClick = false) ∧ ∀ n, pause = some n → 100 ≤ n := by
  obtain ⟨g, hg, hpause⟩ := bind_eq_ok.1 h
  obtain ⟨hheads, htails⟩ := kind_of_enhanced hg
  have hhas : f.has .autoClick = (g.heads.interval?.isSome || g.tails.interval?.isSome) := by
    rw [has, ← hheads, ← htails, Effect.isSome_interval?, Effect.isSome_interval?]
  rw [← Except.ok.inj hpause, hhas]
  rcases g.heads.interval? with _ | a <;> rcases g.tails.interval? with _ | b <;>
    simp [shortestInterval]

/-- Faces by which a flip can be decided have a pause that can be told. -/
theorem pace_of_resolve {last : Option Side} {draw : Float}
    (h : (f.resolve last draw).isOk = true) :
    ∃ pause, f.autoClickInterval = .ok pause ∧ (pause = none ↔ f.has .autoClick = false) ∧
      ∀ n, pause = some n → 100 ≤ n := by
  obtain ⟨pause, hpause⟩ := exists_of_isOk
    (f.isOk_autoClickInterval_iff.2 ((f.isOk_resolve_iff last draw).1 h))
  exact ⟨pause, hpause, autoClickInterval_eq_ok hpause⟩

/-- A flip that is decided has finite odds. -/
theorem isFinite_odds {last : Option Side} {draw : Float} {r : Resolution Float}
    (h : f.resolve last draw = .ok r) : r.odds.isFinite = true := by
  unfold resolve at h
  split at h
  · rw [← Except.ok.inj h]
    decide +kernel
  · rw [← Except.ok.inj h]
    decide +kernel
  · obtain ⟨odds, hodds, hr⟩ := bind_eq_ok.1 h
    obtain ⟨hleast, hgreatest⟩ := headsOdds_range hodds
    rw [← Except.ok.inj hr]
    exact Decimal.Double.isFinite_of_between (by decide +kernel) (by decide +kernel) hleast
      hgreatest

end Faces

end CoinToss
