import CoinToss.Proofs.Decimal.Order
import CoinToss.Proofs.Flip.Faults

/-!
# CoinToss.Proofs.Flip.Precedence

What decides a flip.

A face that forces its side comes first, unless the faces pull in both directions.  What is left is
decided by a draw against odds that are kept away from certainty, whatever numbers the effects hold:

```
always heads    always tails    the flip
yes             no              heads, forced
no              yes             tails, forced
both, or neither                drawn, at odds from one tenth to nine tenths
```

* `headsOdds_range` — infinities and NaN leave odds between the two bounds;
* `Faces.Repeats`, `headsOdds_of_unbiased` — odds without a bias are even, but for the momentum of a
  lone combo;
* `resolve_by_precedence` — all of it, of any flip that comes to a result.
-/

namespace CoinToss

open Decimal

theorem leastOdds_eq : (leastOdds : Float) = 0.1 := by decide +kernel

theorem greatestOdds_eq : (greatestOdds : Float) = 0.9 := by decide +kernel

theorem fairOdds_eq : (fairOdds : Float) = 0.5 := by decide +kernel

namespace Faces

/-! ## odds -/

/-- Odds come from the enhanced faces. -/
theorem headsOdds_eq_ok {α : Type} [Quantity α] {f : Faces α} {last : Option Side} {odds : α} :
    f.headsOdds last = .ok odds ↔ ∃ g, f.enhanced = .ok g ∧
      odds = clamp leastOdds greatestOdds fairOdds
        (fairOdds + g.heads.bias .heads + g.tails.bias .tails + f.momentum last) := by
  rw [headsOdds, bind_eq_ok]
  exact exists_congr fun g => and_congr_right fun _ => ⟨fun h => (Except.ok.inj h).symm,
    fun h => congrArg Except.ok h.symm⟩

variable {f : Faces Float} {last : Option Side} {odds : Float}

/-- Odds are from one tenth to nine tenths. -/
theorem headsOdds_range (h : f.headsOdds last = .ok odds) : 0.1 ≤ odds ∧ odds ≤ 0.9 := by
  obtain ⟨g, -, rfl⟩ := headsOdds_eq_ok.1 h
  rw [leastOdds_eq, greatestOdds_eq, fairOdds_eq]
  exact clamp_range (by decide +kernel) (by decide +kernel) (by decide +kernel)
    (by decide +kernel) _

/-! ## even odds -/

/-- Whether the last result is pushed for: one face is a combo, the other has no effect, and there is
a last result. -/
def Repeats (f : Faces Float) (last : Option Side) : Prop :=
  (∃ c, f = ⟨.combo c, .none⟩ ∨ f = ⟨.none, .combo c⟩) ∧ last.isSome = true

theorem momentum_of_not_repeats (h : ¬f.Repeats last) : f.momentum last = 0 := by
  unfold momentum
  split
  · next c hlone => exact absurd ⟨⟨c, eq_of_loneCombo? hlone⟩, rfl⟩ h
  · next c hlone => exact absurd ⟨⟨c, eq_of_loneCombo? hlone⟩, rfl⟩ h
  · exact ofRatio_zero

end Faces

theorem Effect.bias_of_unbiased {e : Effect Float} (hweighted : e.kind ≠ .weighted)
    (hshaved : e.kind ≠ .shaved) (side : Side) : e.bias side = 0 := by
  cases e with
  | weighted b => exact absurd rfl hweighted
  | shaved b => exact absurd rfl hshaved
  | _ => exact ofRatio_zero

/-- A boost leaves the kind of an effect. -/
theorem Effect.kind_of_enhance {c : Combo Float} {e d : Effect Float} (h : e.enhance c = .ok d) :
    d.kind = e.kind := by
  cases e with
  | autoClick interval =>
      obtain ⟨pause, -, hpause⟩ := bind_eq_ok.1 h
      rw [← Except.ok.inj hpause]
      rfl
  | weighted b =>
      rw [← Except.ok.inj h]
      rfl
  | shaved b =>
      rw [← Except.ok.inj h]
      rfl
  | _ => rw [← Except.ok.inj h]

namespace Faces

variable {f g : Faces Float} {last : Option Side} {odds : Float}

theorem kind_of_enhanced (h : f.enhanced = .ok g) :
    g.heads.kind = f.heads.kind ∧ g.tails.kind = f.tails.kind := by
  unfold enhanced at h
  split at h
  · obtain ⟨e, he, hg⟩ := bind_eq_ok.1 h
    rw [← Except.ok.inj hg]
    exact ⟨rfl, Effect.kind_of_enhance he⟩
  · obtain ⟨e, he, hg⟩ := bind_eq_ok.1 h
    rw [← Except.ok.inj hg]
    exact ⟨Effect.kind_of_enhance he, rfl⟩
  · rw [← Except.ok.inj h]
    exact ⟨rfl, rfl⟩

theorem has_eq_false {kind : EffectKind} :
    f.has kind = false ↔ f.heads.kind ≠ kind ∧ f.tails.kind ≠ kind := by
  simp [has]

/-- Without a bias the odds are even, unless the last result is pushed for. -/
theorem headsOdds_of_unbiased (h : f.headsOdds last = .ok odds) (hweighted : f.has .weighted = false)
    (hshaved : f.has .shaved = false) (hrepeats : ¬f.Repeats last) : odds = 0.5 := by
  obtain ⟨g, henhanced, rfl⟩ := headsOdds_eq_ok.1 h
  obtain ⟨hheads, htails⟩ := kind_of_enhanced henhanced
  rw [has_eq_false, ← hheads, ← htails] at hweighted hshaved
  rw [Effect.bias_of_unbiased hweighted.1 hshaved.1, Effect.bias_of_unbiased hweighted.2 hshaved.2,
    momentum_of_not_repeats hrepeats]
  decide +kernel

/-! ## flips -/

theorem drawnSide_eq_heads_iff {draw odds : Float} : drawnSide draw odds = .heads ↔ draw < odds := by
  unfold drawnSide
  rw [← lt_iff]
  split <;> simp [*]

section Resolve

variable {draw : Float} {r : Resolution Float}

theorem resolve_of_forced {side : Side} (hforced : f.forced? = some side)
    (h : f.resolve last draw = .ok r) : r.forced = true ∧ r.side = side := by
  unfold resolve at h
  rw [hforced] at h
  cases side with
  | heads =>
      rw [← Except.ok.inj h]
      exact ⟨rfl, rfl⟩
  | tails =>
      rw [← Except.ok.inj h]
      exact ⟨rfl, rfl⟩

theorem resolve_of_drawn (hforced : f.forced? = none) (h : f.resolve last draw = .ok r) :
    r.forced = false ∧ f.headsOdds last = .ok r.odds ∧ r.side = drawnSide draw r.odds := by
  unfold resolve at h
  rw [hforced] at h
  obtain ⟨odds, hodds, hr⟩ := bind_eq_ok.1 h
  rw [← Except.ok.inj hr]
  exact ⟨rfl, hodds, rfl⟩

end Resolve

/-- A flip that comes to a result is forced by a face that always falls on one side, unless the other
face always falls on the other side; else it is drawn, at odds that are never certain, and even
unless there is a bias or the last result is pushed for. -/
theorem resolve_by_precedence {last : Option String} {draw : Float} {r : Resolution Float}
    (h : f.resolve (last.bind Side.ofWord?) draw = .ok r) :
    (f.has .alwaysHeads = true → f.has .alwaysTails = false → r.forced = true ∧ r.side = .heads) ∧
      (f.has .alwaysTails = true → f.has .alwaysHeads = false →
        r.forced = true ∧ r.side = .tails) ∧
      (f.has .alwaysHeads = f.has .alwaysTails →
        r.forced = false ∧ f.headsOdds (last.bind Side.ofWord?) = .ok r.odds ∧
          (r.side = .heads ↔ draw < r.odds) ∧
          r.odds.isNaN = false ∧ 0.1 ≤ r.odds ∧ r.odds ≤ 0.9 ∧
          (f.has .weighted = false → f.has .shaved = false →
            ¬f.Repeats (last.bind Side.ofWord?) → r.odds = 0.5)) := by
  refine ⟨fun hheads htails => ?_, fun htails hheads => ?_, fun hboth => ?_⟩
  · have hforced : f.forced? = some .heads := by rw [forced?, hheads, htails]
    exact resolve_of_forced hforced h
  · have hforced : f.forced? = some .tails := by rw [forced?, hheads, htails]
    exact resolve_of_forced hforced h
  · have hforced : f.forced? = none := by
      rw [forced?, hboth]
      cases f.has .alwaysTails <;> rfl
    obtain ⟨hr, hodds, hside⟩ := resolve_of_drawn hforced h
    obtain ⟨hleast, hgreatest⟩ := headsOdds_range hodds
    refine ⟨hr, hodds, ?_, Double.isNaN_of_le hleast, hleast, hgreatest,
      headsOdds_of_unbiased hodds⟩
    rw [hside]
    exact drawnSide_eq_heads_iff

/-- A side of endless weight, which a combo turns over. -/
def endless : Faces Float := ⟨.weighted (infinity false), .combo ⟨.multiplicative, -1⟩⟩

/-- Even so, heads is not certain. -/
theorem resolve_by_precedence_endless :
    ∃ r, endless.resolve ((some " Heads").bind Side.ofWord?) 0.95 = .ok r ∧
      r.forced = false ∧ 0.1 ≤ r.odds ∧ r.odds ≤ 0.9 := by
  cases h : endless.resolve ((some " Heads").bind Side.ofWord?) 0.95 with
  | error fault =>
      have hok : (endless.resolve ((some " Heads").bind Side.ofWord?) 0.95).isOk = true := by
        decide +kernel
      rw [h] at hok
      contradiction
  | ok r =>
      obtain ⟨hr, -, -, -, hleast, hgreatest, -⟩ := (resolve_by_precedence h).2.2 rfl
      exact ⟨r, rfl, hr, hleast, hgreatest⟩

end Faces

end CoinToss
