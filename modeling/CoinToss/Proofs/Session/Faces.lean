import CoinToss.Proofs.Session.Keeping

/-!
# CoinToss.Proofs.Session.Faces

Which paths a flip shows, and which paths are landed on.

A face shows the path that was chosen for it, or a coin that was picked at random; a random face
for which nothing can be picked falls back on its chosen path, whether a coin has it or not.  A
flip lands on one of its faces, so what is recorded over a session is of the catalog, or was chosen.

* `Setup.Shows`, `shows_showFace` — what a face shows;
* `flip_shows`, `flip_of_nothing_selectable` — the faces of a flip, and what it lands on;
* `Progress.LandsOn`, `World.Lands.run` — the paths that are landed on, call by call.
-/

namespace CoinToss

/-! ## faces -/

/-- What is picked is one of the coins. -/
theorem mem_of_pickWeighted {table : WeightTable} {coins : List Coin} {source : Source}
    {coin : Coin} (h : (pickWeighted table coins source).1 = some coin) : coin ∈ coins := by
  unfold pickWeighted at h
  dsimp only at h
  split at h
  · obtain hlast | ⟨weight, hmem⟩ := pickShare_mem h
    · contradiction
    · obtain ⟨other, hother, he⟩ := List.mem_map.1 hmem
      rw [← (Prod.mk.inj he).1]
      exact hother
  · contradiction

/-- Paths that a face may show: what was chosen for it, or, of a random face, a coin of the catalog
if any can be picked. -/
inductive Setup.Shows (s : Setup) (p : Progress) (chosen : String) : Bool → String → Prop
  | chosen : Shows s p chosen false chosen
  | picked {path : String} (hcoin : s.catalog.contains path = true) : Shows s p chosen true path
  | unpicked (source : Source)
      (hnone : (pickWeighted s.weights (s.catalog.selectable p) source).1 = none) :
      Shows s p chosen true chosen

theorem shows_showFace (s : Setup) (p : Progress) (chosen : String) (isRandom : Bool)
    (source : Source) :
    s.Shows p chosen isRandom (showFace s.catalog p s.weights chosen isRandom source).1 := by
  cases isRandom with
  | false => exact .chosen
  | true =>
      show s.Shows p chosen true
        (((pickWeighted s.weights (s.catalog.selectable p) source).1.map (·.path)).getD chosen)
      cases hpick : (pickWeighted s.weights (s.catalog.selectable p) source).1 with
      | none => exact .unpicked source hpick
      | some coin =>
          have hcoin : coin ∈ s.catalog.coins := (List.mem_filter.1 (mem_of_pickWeighted hpick)).1
          exact .picked ((s.catalog.contains_iff coin.path).2 (List.mem_map.2 ⟨coin, hcoin, rfl⟩))

/-- Without coins there is nothing to pick. -/
theorem pickWeighted_nil (table : WeightTable) (source : Source) :
    (pickWeighted table [] source).1 = none := by
  unfold pickWeighted
  dsimp only
  split <;> rfl

/-! ## landings -/

/-- All that has been landed on is among some paths. -/
def Progress.LandsOn (known : String → Prop) (p : Progress) : Prop :=
  ∀ path ∈ p.landings.keys, known path

theorem Progress.landsOn_empty (known : String → Prop) : empty.LandsOn known := by
  intro path hpath
  contradiction

section LandsOn

variable {known : String → Prop} {p : Progress}

theorem Progress.LandsOn.track (hp : p.LandsOn known) (c : Catalog) {l : Landing}
    (hl : known l.coin) (streak : Int) (time : DateTime) :
    (p.track c l streak time).1.LandsOn known := by
  intro path hpath
  rw [Progress.landings_track, Progress.landings_count] at hpath
  split at hpath
  · exact hp path hpath
  · rw [Tally.keys_insert] at hpath
    split at hpath
    · exact hp path hpath
    · rcases List.mem_append.1 hpath with hold | hnew
      · exact hp path hold
      · rw [List.mem_singleton.1 hnew]
        exact hl

theorem Progress.LandsOn.rollAll (hp : p.LandsOn known) (c : Catalog) (l : Landing)
    (multiplier : Float) (time : DateTime) (source : Source) :
    (CoinToss.rollAll c l multiplier time p source).1.1.LandsOn known := by
  rw [rollAll_eq]
  exact hp

theorem Progress.LandsOn.unlockByHand (hp : p.LandsOn known) (path : String) (time : DateTime) :
    (p.unlockByHand path time).1.LandsOn known := by
  rw [Progress.unlockByHand_eq]
  exact hp

end LandsOn

namespace World

/-- A flip shows its faces and lands on one of them. -/
theorem flip_shows {s : Setup} {w : World} {o : FlipOrder} {outcome : Outcome}
    (h : (w.flip s o).2 = .ok outcome) :
    s.Shows w.game.progress o.heads o.headsRandom outcome.heads ∧
      s.Shows w.game.progress o.tails o.tailsRandom outcome.tails ∧
      (outcome.landed = outcome.heads ∨ outcome.landed = outcome.tails) ∧
      ∃ (l : Landing) (multiplier : Float) (source : Source), l.coin = outcome.landed ∧
        (w.flip s o).1.game.progress = (rollAll s.catalog l multiplier w.clock
          (w.game.progress.track s.catalog l outcome.streak w.clock).1 source).1.1 := by
  unfold flip at h ⊢
  dsimp only at h ⊢
  cases hd : decideFlip _ _ _ _ with
  | error fault =>
      rw [hd] at h
      contradiction
  | ok d =>
      rw [hd] at h
      have houtcome := Except.ok.inj h
      rw [← houtcome]
      refine ⟨shows_showFace s _ _ _ _, shows_showFace s _ _ _ _, ?_, _, _, _, rfl, rfl⟩
      obtain ⟨side, odds, streak⟩ := d
      cases side with
      | heads => exact .inl rfl
      | tails => exact .inr rfl

end World

namespace World

/-- Where nothing can be picked, random faces show what was chosen for them. -/
theorem flip_of_nothing_selectable {s : Setup} {w : World}
    (h : s.catalog.selectable w.game.progress = []) (o : FlipOrder) :
    ∃ source, w.flip s o = ({ w with source := source } : World).flip s
      { o with headsRandom := false, tailsRandom := false } := by
  have hface (chosen : String) (isRandom : Bool) (source : Source) :
      (showFace s.catalog w.game.progress s.weights chosen isRandom source).1 = chosen := by
    cases isRandom with
    | false => rfl
    | true =>
        show ((pickWeighted s.weights (s.catalog.selectable w.game.progress) source).1.map
          (·.path)).getD chosen = chosen
        rw [h, pickWeighted_nil]
        rfl
  refine ⟨(w.showFaces s o).2.source, ?_⟩
  have hfaces : w.showFaces s o =
      ((o.heads, o.tails), { w with source := (w.showFaces s o).2.source }) :=
    Prod.ext (Prod.ext (hface o.heads o.headsRandom w.source) (hface o.tails o.tailsRandom _)) rfl
  unfold flip
  rw [hfaces]
  rfl

end World

/-! ## calls -/

/-- All that a call can land on is among some paths. -/
def Call.LandsOn (s : Setup) (known : String → Prop) : Call → Prop
  | .flip o => ∀ p path,
    s.Shows p o.heads o.headsRandom path ∨ s.Shows p o.tails o.tailsRandom path → known path
  | .track l _ => known l.coin
  | _ => True

namespace World

variable {known : String → Prop}

/-- A flip acts as it is, whatever it comes to. -/
theorem act_flip (s : Setup) (w : World) (o : FlipOrder) :
    (w.act s (.flip o)).1 = (w.flip s o).1 := by
  rw [act]
  rcases w.flip s o with ⟨u, _ | _⟩ <;> rfl

/-- A flip that stops leaves the game as it was. -/
theorem flip_stopped {s : Setup} {w : World} {o : FlipOrder} {fault : Decimal.NumberFault}
    (h : (w.flip s o).2 = .error fault) : (w.flip s o).1.game = w.game := by
  obtain ⟨_, -, hgame, -⟩ | ⟨_, _, _, _, hok, -, -⟩ := flip_cases s w o
  · exact hgame
  · rw [hok] at h
    contradiction

theorem landsOn_act {s : Setup} {w : World} {call : Call} (hp : w.game.progress.LandsOn known)
    (hcall : call.LandsOn s known) : (w.act s call).1.game.progress.LandsOn known := by
  cases call with
  | flip o =>
      rw [act_flip]
      cases hresult : (w.flip s o).2 with
      | error fault =>
          rw [flip_stopped hresult]
          exact hp
      | ok outcome =>
          obtain ⟨hheads, htails, hlanded, l, multiplier, source, hcoin, hprogress⟩ :=
            flip_shows hresult
          rw [hprogress]
          refine (hp.track s.catalog ?_ outcome.streak w.clock).rollAll s.catalog l multiplier _ _
          rw [hcoin]
          rcases hlanded with hlanded | hlanded
          · rw [hlanded]
            exact hcall _ _ (.inl hheads)
          · rw [hlanded]
            exact hcall _ _ (.inr htails)
  | track l streak => exact hp.track s.catalog hcall streak w.clock
  | roll l multiplier => exact hp.rollAll s.catalog l multiplier w.clock w.source
  | unlock path => exact hp.unlockByHand path w.clock
  | reset => exact Progress.landsOn_empty known
  | load => exact hp
  | ensureLoaded => exact hp

/-- A session at rest over a store, with all landings of the game and of the store among some
paths. -/
structure Lands (s : Setup) (known : String → Prop) (w : World) : Prop where
  idle : w.game.busy = false
  store : ∃ st, w.store = some st
  game : w.game.progress.LandsOn known
  stored : ∀ p, w.stored s = some p → p.LandsOn known

namespace Lands

variable {s : Setup} {w : World}

theorem holds (hw : w.Lands s known) : w.Holds s (Progress.LandsOn known) :=
  ⟨hw.idle, hw.store, hw.game, hw.stored⟩

theorem of_holds (hw : w.Holds s (Progress.LandsOn known)) : w.Lands s known :=
  ⟨hw.idle, hw.store, hw.game, hw.stored⟩

theorem run (hw : w.Lands s known) {call : Call} (hcall : call.LandsOn s known) :
    (w.run s call).1.Lands s known :=
  of_holds (hw.holds.run (Progress.landsOn_empty known) fun _ hp => landsOn_act hp hcall)

end Lands

/-- A flip that is answered tells of faces that it may show. -/
theorem run_flip_shows {s : Setup} {w : World} {o : FlipOrder} (hidle : w.game.busy = false)
    {r : Reply} (h : (w.run s (.flip o)).2 = .ok r) :
    ∃ outcome, r = .flipped outcome ∧
      s.Shows (w.found s (.flip o)) o.heads o.headsRandom outcome.heads ∧
      s.Shows (w.found s (.flip o)) o.tails o.tailsRandom outcome.tails := by
  rcases hflip : (w.opened s (.flip o)).flip s o with ⟨u, fault | outcome⟩
  · rw [run_of_done hidle (act_flip_of_error hflip)] at h
    cases h
  · obtain ⟨hheads, htails, -⟩ := flip_shows (congrArg (·.2) hflip)
    rw [opened_game] at hheads htails
    rw [run_of_save hidle (act_flip_of_ok hflip), commit] at h
    cases hsaving : saveProgress? u.store s.key u.game.progress with
    | none =>
        rw [hsaving] at h
        cases h
    | some saving =>
        rw [hsaving] at h
        refine ⟨{ outcome with saved := saving.saved }, ?_, hheads, htails⟩
        exact (Except.ok.inj h).symm

end World

end CoinToss
