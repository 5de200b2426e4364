import CoinToss.Proofs.Flip.Faults
import CoinToss.Proofs.Session.Faces
import CoinToss.Proofs.Session.Turns

/-!
# CoinToss.Proofs.Session.Tosses

Flips one after the other, each at its own time and over the store in whatever order.

A toss shows its faces and is decided.  Once it is, side and streak are recorded, whatever becomes
of the save that follows; until then the game is as it was.

```
faces, draw  --decideFlip-->  side, streak  --recordFlip-->  game  --saveProgress?-->  answer
```

* `Toss`, `World.tossAll` — tosses, and what a session of them comes to;
* `Toss.faces`, `Toss.outcome`, `World.landed` — what a toss shows, what it comes to, and the sides
  on which a session has landed;
* `run_toss_of_error`, `run_toss_of_ok` — a toss that cannot be decided, and one that is;
* `Toss.isOk_outcome` — which tosses are decided;
* `World.Ready` — a session that finds its own progress.
-/

namespace CoinToss

open Decimal

/-! ## deciding -/

/-- Without a lone combo there is no bonus. -/
theorem Faces.comboStreak_of_loneCombo? {f : Faces Float} (h : f.loneCombo? = none)
    (streak : Int) : f.comboStreak streak = .ok streak := by
  rw [comboStreak, h]
  rfl

section Decide

variable {f : Faces Float} {last : Option Side} {streak : Int} {draw : Float}

/-- The streak of a decided flip is the one counted, with its bonus. -/
theorem comboStreak_of_decideFlip {d : Decision} (h : decideFlip f last streak draw = .ok d) :
    f.comboStreak (nextStreak last streak d.side) = .ok d.streak := by
  obtain ⟨r, -, hstreak⟩ := bind_eq_ok.1 h
  obtain ⟨n, hn, hd⟩ := bind_eq_ok.1 hstreak
  rw [← Except.ok.inj hd]
  exact hn

/-- A flip is decided if its faces neither stall nor burst any streak. -/
theorem isOk_decideFlip (hstalls : ¬f.Stalls) (hbursts : ∀ n, ¬f.Bursts n) (last : Option Side)
    (streak : Int) (draw : Float) : (decideFlip f last streak draw).isOk = true := by
  have hresolve := (f.isOk_resolve_iff last draw).2 hstalls
  unfold decideFlip
  cases hr : f.resolve last draw with
  | error fault =>
      rw [hr] at hresolve
      contradiction
  | ok r =>
      show (f.comboStreak (nextStreak last streak r.side) >>= fun n =>
        pure (Decision.mk r.side r.odds n)).isOk = true
      rw [isOk_bind_pure, f.isOk_comboStreak_iff]
      exact hbursts _

end Decide

namespace World

variable {s : Setup} {w : World} {o : FlipOrder}

/-- The effects of the coins that a flip shows. -/
def facesOf (s : Setup) (w : World) (o : FlipOrder) : Faces Float :=
  s.catalog.faces (w.showFaces s o).1.1 (w.showFaces s o).1.2

/-- A flip comes to something if its faces neither stall nor burst any streak. -/
theorem isOk_flip (hstalls : ¬(w.facesOf s o).Stalls) (hbursts : ∀ n, ¬(w.facesOf s o).Bursts n) :
    (w.flip s o).2.isOk = true := by
  have hdecided := isOk_decideFlip hstalls hbursts w.game.last w.game.streak
    (w.showFaces s o).2.draw.1
  unfold flip
  dsimp only
  cases hd : decideFlip _ _ _ _ with
  | error fault =>
      change (decideFlip (w.facesOf s o) w.game.last w.game.streak _) = _ at hd
      rw [hd] at hdecided
      contradiction
  | ok d => rfl

/-- A flip that comes to something has the streak counted, with the bonus of its faces, and plays
its moves. -/
theorem flip_ok {outcome : Outcome} (h : (w.flip s o).2 = .ok outcome) :
    (w.facesOf s o).comboStreak (nextStreak w.game.last w.game.streak outcome.side) =
        .ok outcome.streak ∧
      ∃ (l : Landing) (multiplier : Float) (source : Source), l.side = outcome.side ∧
        (w.flip s o).1.game =
          { w.game with
            progress := (w.game.progress.playAll s.catalog
              (flipMoves l outcome.streak multiplier w.clock source)).1
            streak := outcome.streak
            last := some outcome.side } := by
  unfold flip at h ⊢
  dsimp only at h ⊢
  cases hd : decideFlip _ _ _ _ with
  | error fault =>
      rw [hd] at h
      contradiction
  | ok d =>
      rw [hd] at h
      rw [← Except.ok.inj h]
      exact ⟨comboStreak_of_decideFlip hd, _, _, _, rfl, rfl⟩

end World

/-! ## tosses -/

/-- A flip as it is made: at a time, with the store in such order. -/
structure Toss where
  order : FlipOrder
  faults : Faults
  time : DateTime

namespace Toss

/-- The world in which a toss acts, saved progress having been read. -/
def opened (s : Setup) (w : World) (t : Toss) : World :=
  (w.meeting t.faults t.time).opened s (.flip t.order)

/-- The effects of the coins that a toss shows. -/
def faces (s : Setup) (w : World) (t : Toss) : Faces Float := (t.opened s w).facesOf s t.order

/-- What a toss comes to before it is saved. -/
def outcome (s : Setup) (w : World) (t : Toss) : Except NumberFault Outcome :=
  ((t.opened s w).flip s t.order).2

/-- A toss, from its call to its answer. -/
def run (s : Setup) (w : World) (t : Toss) : World × Result :=
  (w.meeting t.faults t.time).run s (.flip t.order)

/-- The progress that a toss finds. -/
def standing (s : Setup) (w : World) (t : Toss) : Progress :=
  (w.meeting t.faults t.time).standing s

theorem opened_game (s : Setup) (w : World) (t : Toss) :
    (t.opened s w).game =
      { w.game with progress := t.standing s w, loaded := true, busy := true } :=
  World.opened_flip_game s (w.meeting t.faults t.time) t.order

/-- A toss is decided if its faces neither stall nor burst any streak. -/
theorem isOk_outcome {s : Setup} {w : World} {t : Toss} (hstalls : ¬(t.faces s w).Stalls)
    (hbursts : ∀ n, ¬(t.faces s w).Bursts n) : (t.outcome s w).isOk = true :=
  World.isOk_flip hstalls hbursts

/-- Without a lone combo a toss is decided. -/
theorem isOk_outcome_of_loneCombo? {s : Setup} {w : World} {t : Toss}
    (h : (t.faces s w).loneCombo? = none) : (t.outcome s w).isOk = true := by
  refine isOk_outcome ?_ ?_
  · rintro ⟨c, interval, hlone, -⟩
    rw [h] at hlone
    contradiction
  · rintro n ⟨c, e, hlone, -⟩
    rw [h] at hlone
    contradiction

end Toss

/-- Whether a result answers a recorded toss: with its outcome and word of the save, unless
progress cannot be written. -/
def Outcome.IsTold (o : Outcome) (r : Result) : Prop :=
  (∃ saved, r = .ok (.flipped { o with saved := saved })) ∨ r = .error .unstorable

namespace World

variable {s : Setup} {w : World}

/-- A session of tosses, with their answers. -/
def tossAll (s : Setup) (w : World) (ts : List Toss) : World × List Result :=
  w.through (Toss.run s) ts

/-- The sides on which a session of tosses has landed. -/
def landed (s : Setup) : World → List Toss → List Side
  | _, [] => []
  | w, t :: ts => ((t.outcome s w).toOption.map (·.side)).toList ++ landed s (t.run s w).1 ts

theorem tossAll_snoc (s : Setup) (w : World) (ts : List Toss) (t : Toss) :
    w.tossAll s (ts ++ [t]) = ((t.run s (w.tossAll s ts).1).1,
      (w.tossAll s ts).2 ++ [(t.run s (w.tossAll s ts).1).2]) := by
  simp [tossAll, through_append, through]

theorem landed_snoc (s : Setup) (w : World) (ts : List Toss) (t : Toss) :
    w.landed s (ts ++ [t]) = w.landed s ts ++
      ((t.outcome s (w.tossAll s ts).1).toOption.map (·.side)).toList := by
  induction ts generalizing w with
  | nil => simp [landed, tossAll, through]
  | cons u us ih => simp [landed, ih, tossAll, through]

/-! ## one toss -/

section Toss

variable {t : Toss}

/-- A toss that is not decided leaves the game as it was, but that progress has been read. -/
theorem run_toss_of_error (hidle : w.game.busy = false) {fault : NumberFault}
    (h : t.outcome s w = .error fault) :
    (t.run s w).2 = .error (.number fault) ∧
      (t.run s w).1.game = { w.game with progress := t.standing s w, loaded := true } := by
  have hidle' : (w.meeting t.faults t.time).game.busy = false := hidle
  refine ⟨?_, ?_⟩
  · rcases hflip : (t.opened s w).flip s t.order with ⟨u, stopped | outcome⟩
    · rw [Toss.outcome, hflip] at h
      obtain rfl := Except.error.inj h
      rw [Toss.run, run_of_done hidle' (act_flip_of_error hflip)]
    · rw [Toss.outcome, hflip] at h
      contradiction
  · rw [Toss.run, run_game s _ hidle']
    show { ((t.opened s w).act s (.flip t.order)).1.game with busy := false } = _
    rw [act_flip, flip_stopped h, t.opened_game, ← hidle]

/-- A toss that is decided is recorded, and told unless it cannot be written. -/
theorem run_toss_of_ok (hidle : w.game.busy = false) {o : Outcome} (h : t.outcome s w = .ok o) :
    o.IsTold (t.run s w).2 ∧
      (t.faces s w).comboStreak (nextStreak w.game.last w.game.streak o.side) = .ok o.streak ∧
      ∃ (l : Landing) (multiplier : Float) (source : Source), l.side = o.side ∧
        (t.run s w).1.game =
          ⟨((t.standing s w).playAll s.catalog
            (flipMoves l o.streak multiplier (t.opened s w).clock source)).1,
            o.streak, some o.side, true, false⟩ := by
  have hidle' : (w.meeting t.faults t.time).game.busy = false := hidle
  obtain ⟨hstreak, l, multiplier, source, hside, hgame⟩ := flip_ok h
  rw [t.opened_game] at hstreak hgame
  refine ⟨?_, hstreak, l, multiplier, source, hside, ?_⟩
  · rcases hflip : (t.opened s w).flip s t.order with ⟨u, fault | outcome⟩
    · rw [Toss.outcome, hflip] at h
      contradiction
    · rw [Toss.outcome, hflip] at h
      obtain rfl := Except.ok.inj h
      rw [Toss.run, run_of_save hidle' (act_flip_of_ok hflip), commit]
      cases saveProgress? u.store s.key u.game.progress with
      | none => exact .inr rfl
      | some saving => exact .inl ⟨saving.saved, rfl⟩
  · rw [Toss.run, run_game s _ hidle']
    show { ((t.opened s w).act s (.flip t.order)).1.game with busy := false } = _
    rw [act_flip, hgame]

theorem idle_run_toss (hidle : w.game.busy = false) (t : Toss) :
    (t.run s w).1.game.busy = false := idle_run s _ hidle

end Toss

/-! ## sessions that find their own progress -/

/-- A session at rest in which a toss finds the game's own progress: it has been read, or there is
nothing to read and the game has none. -/
structure Ready (s : Setup) (w : World) : Prop where
  idle : w.game.busy = false
  unread : w.game.loaded = false → w.stored s = none ∧ w.game.progress = .empty

namespace Ready

/-- A new game with nothing stored is ready. -/
theorem of_fresh (hgame : w.game = .fresh) (hstored : w.stored s = none) : w.Ready s where
  idle := by rw [hgame]; rfl
  unread _ := ⟨hstored, by rw [hgame]; rfl⟩

/-- After any call a game is ready. -/
theorem of_run (s : Setup) {v : World} (call : Call) (hidle : v.game.busy = false) :
    (v.run s call).1.Ready s where
  idle := idle_run s call hidle
  unread hunread := by simp [loaded_run s call hidle] at hunread

theorem run (hw : w.Ready s) (t : Toss) : (t.run s w).1.Ready s := of_run s _ hw.idle

theorem standing (hw : w.Ready s) (t : Toss) : t.standing s w = w.game.progress := by
  unfold Toss.standing World.standing
  cases hloaded : w.game.loaded with
  | true => exact if_pos hloaded
  | false =>
      obtain ⟨hnone, hempty⟩ := hw.unread hloaded
      rw [hempty]
      refine (if_neg (Bool.eq_false_iff.1 hloaded)).trans ?_
      obtain hnothing | hsome := loadProgress_cases s (w.meeting t.faults t.time)
      · exact hnothing
      · rw [stored_meeting, hnone] at hsome
        contradiction

end Ready

end World

end CoinToss
