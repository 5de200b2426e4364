import CoinToss.Proofs.Unlock.Moves
import CoinToss.Session.Lifecycle

/-!
# CoinToss.Proofs.Session.Flips

A flip that nothing interrupts, from its call to its reply.

Saved progress is read if that has not been done, the flip is decided, and then all is recorded at
once: a landing and a roll of the chance coins, as moves on the progress that stood before.

```
standing  --land, roll-->  progress  --saveProgress?-->  reply
```

* `World.run_of_idle` — a call on an idle game reads, acts and ends;
* `World.flip_cases` — a flip stops with the game as it was, or plays a landing and a roll;
* `World.run_flip_cases` — the same of the whole call, with what becomes of the store.
-/

namespace CoinToss

namespace World

/-- The progress a call finds: the game's, or the saved one if that has not been read. -/
def standing (s : Setup) (w : World) : Progress :=
  if w.game.loaded then w.game.progress else (loadProgress w.store s.key).1

/-- The world in which a call acts. -/
def opened (s : Setup) (w : World) (call : Call) : World :=
  if call.needsRead (w.enter call).game then (w.enter call).readIn s else w.enter call

/-- A call on an idle game reads what it has to, acts and ends. -/
theorem run_of_idle (s : Setup) {w : World} (call : Call) (hidle : w.game.busy = false) :
    w.run s call = finish s call ((w.opened s call).proceed s call) := by
  have hfree : ¬(call.isExclusive && w.game.busy) = true := by
    rw [hidle, Bool.and_false]
    decide
  unfold run start opened
  rw [if_neg hfree]
  by_cases hread : call.needsRead (w.enter call).game = true
  · rw [if_pos hread, if_pos hread]
  · rw [if_neg hread, if_neg hread]
    unfold proceed
    rcases (w.enter call).act s call with ⟨_, _ | _⟩ <;> rfl

section Flip

variable {s : Setup} {w : World} {o : FlipOrder}

theorem opened_flip_game (s : Setup) (w : World) (o : FlipOrder) :
    (w.opened s (.flip o)).game =
      { w.game with progress := w.standing s, loaded := true, busy := true } := by
  cases hloaded : w.game.loaded with
  | false =>
      have hread : (Call.flip o).needsRead (w.enter (.flip o)).game = true := by
        show (!w.game.loaded) = true
        rw [hloaded]
        rfl
      rw [opened, if_pos hread, standing, hloaded]
      rfl
  | true =>
      have hread : ¬(Call.flip o).needsRead (w.enter (.flip o)).game = true := by
        show ¬(!w.game.loaded) = true
        rw [hloaded]
        decide
      rw [opened, if_neg hread, standing, hloaded]
      show { w.game with busy := true } = _
      rw [if_pos rfl, ← hloaded]

theorem opened_store (s : Setup) (w : World) (call : Call) :
    (w.opened s call).store = w.store := by
  unfold opened enter
  split <;> split <;> rfl

theorem opened_clock (s : Setup) (w : World) (call : Call) :
    (w.opened s call).clock = w.clock := by
  unfold opened enter
  split <;> split <;> rfl

/-- The moves of a flip: its landing and a roll of the chance coins. -/
def flipMoves (l : Landing) (streak : Int) (multiplier : Float) (time : DateTime)
    (source : Source) : List Move :=
  [.land l streak time, .roll l multiplier time source]

/-- A flip stops with game and store as they were, or plays its moves. -/
theorem flip_cases (s : Setup) (w : World) (o : FlipOrder) :
    (∃ fault, (w.flip s o).2 = .error fault ∧ (w.flip s o).1.game = w.game ∧
        (w.flip s o).1.store = w.store) ∨
      ∃ outcome l multiplier source, (w.flip s o).2 = .ok outcome ∧
        (w.flip s o).1.game =
          { w.game with
            progress := (w.game.progress.playAll s.catalog
              (flipMoves l outcome.streak multiplier w.clock source)).1
            streak := outcome.streak
            last := some l.side } ∧
        (w.flip s o).1.store = w.store := by
  unfold flip
  dsimp only
  cases hd : decideFlip _ _ _ _ with
  | error fault => exact .inl ⟨fault, rfl, rfl, rfl⟩
  | ok d => exact .inr ⟨_, _, _, _, rfl, rfl, rfl⟩

/-- A flip that stops is all there is to its call. -/
theorem act_flip_of_error {u : World} {fault : Decimal.NumberFault}
    (h : w.flip s o = (u, .error fault)) :
    w.act s (.flip o) = (u, .done (.error (.number fault))) := by
  rw [act, h]

/-- A flip that comes to something is to be saved. -/
theorem act_flip_of_ok {u : World} {outcome : Outcome} (h : w.flip s o = (u, .ok outcome)) :
    w.act s (.flip o) = (u, .save (.flipped outcome)) := by
  rw [act, h]

/-- What a recorded flip comes to, and the store then, once saving has come to something. -/
def savedFlip (store : Option Store) (outcome : Outcome) : Option Saving → Result × Option Store
  | none => (.error .unstorable, store)
  | some saving => (.ok (.flipped { outcome with saved := saving.saved }), saving.store)

/-- Saving ends a flip and leaves its game. -/
theorem commit_flip (s : Setup) (w : World) (o : FlipOrder) (p : Progress) (outcome : Outcome) :
    (w.commit s (.flip o) p (.flipped outcome)).1.game = { w.game with busy := false } ∧
      ((w.commit s (.flip o) p (.flipped outcome)).2,
        (w.commit s (.flip o) p (.flipped outcome)).1.store) =
          savedFlip w.store outcome (saveProgress? w.store s.key p) := by
  unfold commit
  cases saveProgress? w.store s.key p with
  | none => exact ⟨rfl, rfl⟩
  | some saving => exact ⟨rfl, rfl⟩

/-- A flip stops before anything is recorded, or its moves are played and the progress they leave
is saved. -/
theorem run_flip_cases (s : Setup) (o : FlipOrder) (hidle : w.game.busy = false) :
    (∃ fault, (w.run s (.flip o)).2 = .error (.number fault) ∧
        (w.run s (.flip o)).1.game = { w.game with progress := w.standing s, loaded := true } ∧
        (w.run s (.flip o)).1.store = w.store) ∨
      ∃ (outcome : Outcome) (l : Landing) (multiplier : Float) (source : Source),
        (w.run s (.flip o)).1.game =
          ⟨((w.standing s).playAll s.catalog
            (flipMoves l outcome.streak multiplier w.clock source)).1,
            outcome.streak, some l.side, true, false⟩ ∧
        ((w.run s (.flip o)).2, (w.run s (.flip o)).1.store) =
          savedFlip w.store outcome
            (saveProgress? w.store s.key (w.run s (.flip o)).1.game.progress) := by
  have hgame := opened_flip_game s w o
  have hstore := opened_store s w (.flip o)
  have hclock := opened_clock s w (.flip o)
  rw [run_of_idle s (.flip o) hidle]
  generalize w.opened s (.flip o) = v at hgame hstore hclock
  rcases hflip : v.flip s o with ⟨u, fault | outcome⟩
  · obtain ⟨_, -, hg, hs⟩ | ⟨_, _, _, _, hok, -, -⟩ := flip_cases s v o
    · rw [hflip] at hg hs
      have hend : finish s (.flip o) (v.proceed s (.flip o)) =
          (u.setBusy false, .error (.number fault)) := by
        rw [proceed, act_flip_of_error hflip]
        rfl
      rw [hend]
      refine .inl ⟨fault, rfl, ?_, hs.trans hstore⟩
      show { u.game with busy := false } = _
      rw [hg, hgame, ← hidle]
    · rw [hflip] at hok
      contradiction
  · obtain ⟨_, hf, -, -⟩ | ⟨_, l, multiplier, source, hok, hg, hs⟩ := flip_cases s v o
    · rw [hflip] at hf
      contradiction
    · rw [hflip] at hok hg hs
      obtain rfl := Except.ok.inj hok
      have hend : finish s (.flip o) (v.proceed s (.flip o)) =
          u.commit s (.flip o) u.game.progress (.flipped outcome) := by
        rw [proceed, act_flip_of_ok hflip]
        rfl
      obtain ⟨hcommit, hsaved⟩ := commit_flip s u o u.game.progress outcome
      rw [hend, hsaved, hcommit]
      refine .inr ⟨outcome, l, multiplier, source, ?_, ?_⟩
      · rw [hg, hgame, hclock]
      · rw [hs, hstore]

end Flip

end World

end CoinToss
