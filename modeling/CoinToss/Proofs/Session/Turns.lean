import CoinToss.Proofs.Session.Alike

/-!
# CoinToss.Proofs.Session.Turns

Calls one after the other, and what is left of calls that are under way.

Calls under way can be finished at any time one after the other, in the order in which they came.
Each finishes from where it stands; one that has ended has nothing left to do, and one that makes
sure of saved progress does nothing where that has been read.

* `Making`, `World.inTurn` — calls as they were made, and a run of them in turn;
* `Entrant`, `World.finishAll` — calls under way, and what is left of them, in turn;
* `Alike.finishAll` — finishing calls in worlds that are alike;
* `matches_finishAll_of_idle` — finishing calls that keep no others out changes nothing;
* `matches_finishAll_replace` — a call may stand elsewhere, if that makes no difference to it.
-/

namespace CoinToss

open World (Matches)

/-! ## calls in turn -/

/-- A call as it was made: when, with the store in which order for it, and whether it was let in. -/
structure Making where
  call : Call
  faults : Faults
  time : DateTime
  accepted : Bool

namespace World

/-- The world as a call meets it. -/
def metBy (w : World) (m : Making) : World := w.meeting m.faults m.time

theorem metBy_enter (w : World) (m : Making) (call : Call) :
    (w.enter call).metBy m = (w.metBy m).enter call := by
  unfold enter
  split <;> rfl

/-- Goes through a list, with a result for each element. -/
def through {α : Type} (f : World → α → World × Result) : World → List α → World × List Result
  | w, [] => (w, [])
  | w, x :: xs =>
    ((through f (f w x).1 xs).1, (f w x).2 :: (through f (f w x).1 xs).2)

section Through

variable {α : Type} {f : World → α → World × Result}

theorem through_append (w : World) (xs ys : List α) :
    through f w (xs ++ ys) = ((through f (through f w xs).1 ys).1,
      (through f w xs).2 ++ (through f (through f w xs).1 ys).2) := by
  induction xs generalizing w with
  | nil => rfl
  | cons x xs ih =>
      rw [List.cons_append, through, ih]
      rfl

/-- Worlds that are alike stay alike if each element finds them so. -/
theorem matches_through (hf : ∀ v w x, v.Alike w → Matches (f v x) (f w x)) {v w : World}
    (h : v.Alike w) (xs : List α) : Matches (through f v xs) (through f w xs) := by
  induction xs generalizing v w with
  | nil => exact ⟨h, rfl⟩
  | cons x xs ih =>
      have hx := hf v w x h
      have hxs := ih hx.1
      exact ⟨hxs.1, congrArg₂ List.cons hx.2 hxs.2⟩

end Through

end World

/-- A call in its turn: run if it was let in, and refused if not. -/
def Making.run (s : Setup) (w : World) (m : Making) : World × Result :=
  if m.accepted then (w.metBy m).run s m.call else (w, .error .busy)

/-- Calls one after the other, in the order in which they were made. -/
def World.inTurn (s : Setup) (w : World) (ms : List Making) : World × List Result :=
  w.through (Making.run s) ms

theorem World.idle_inTurn (s : Setup) {w : World} (hidle : w.game.busy = false)
    (ms : List Making) : (w.inTurn s ms).1.game.busy = false := by
  induction ms generalizing w with
  | nil => exact hidle
  | cons m ms ih =>
      refine ih (w := (m.run s w).1) ?_
      unfold Making.run
      split
      · exact World.idle_run s m.call hidle
      · exact hidle

/-! ## calls under way -/

/-- A call under way: how it was made, and where it stands. -/
structure Entrant where
  made : Making
  phase : Phase

/-- Reads saved progress if a call has to. -/
def World.readFor (s : Setup) (w : World) (call : Call) : World :=
  if call.needsRead w.game then w.readIn s else w

namespace Entrant

/-- Whether a call keeps others out. -/
def isEngaged (e : Entrant) : Bool := e.made.call.isExclusive && !e.phase.isEnded

/-- Finishes a call, with nothing in between. -/
def finish (s : Setup) (w : World) (e : Entrant) : World × Result :=
  match e.phase with
  | .ended result => (w, result)
  | .saving snapshot reply => (w.metBy e.made).commit s e.made.call snapshot reply
  | .queued | .reading =>
    World.finish s e.made.call (((w.metBy e.made).readFor s e.made.call).proceed s e.made.call)

/-- What a call that keeps no others out comes to. -/
def answer (e : Entrant) : Result :=
  match e.phase with
  | .ended result => result
  | _ => .ok .nothing

/-- Where a call can stand.  One that waits was let in; one that reads has to, so progress has not
been read unless it is to be read again; one that saves has read and keeps others out. -/
structure Fits (w : World) (e : Entrant) : Prop where
  accepted : e.phase.isEnded = false → e.made.accepted = true
  reading : e.phase.isReading = true → e.made.call.needsRead w.game = true
  saving : e.phase.isSaving = true → w.game.loaded = true ∧ e.made.call.isExclusive = true

end Entrant

/-- Finishes calls under way one after the other. -/
def World.finishAll (s : Setup) (w : World) (es : List Entrant) : World × List Result :=
  w.through (Entrant.finish s) es

/-- A call in its turn is let in and finished. -/
theorem Making.run_of_idle (s : Setup) {w : World} {m : Making} (hm : m.accepted = true)
    (hidle : w.game.busy = false) :
    m.run s w = Entrant.finish s (w.enter m.call) ⟨m, .queued⟩ := by
  have hmet : (w.metBy m).game.busy = false := hidle
  rw [Making.run, if_pos hm, World.run_of_idle s m.call hmet, Entrant.finish]
  dsimp only
  rw [World.metBy_enter]
  rfl

/-! ## what finishing calls depends on -/

namespace World

theorem readFor_of_loaded {s : Setup} {w : World} {call : Call} (hloaded : w.game.loaded = true)
    (hcall : call ≠ .load) : w.readFor s call = w := by
  rw [readFor, needsRead_of_loaded hloaded hcall]
  rfl

theorem readFor_withLog (s : Setup) (w : World) (log : Array Log.Record) (call : Call) :
    ∃ later, (w.withLog log).readFor s call = (w.readFor s call).withLog later := by
  have hgame : (w.withLog log).game = w.game := rfl
  unfold readFor
  rw [hgame]
  split
  · exact readIn_withLog s w log
  · exact ⟨log, rfl⟩

theorem finish_withLog (s : Setup) (w : World) (log : Array Log.Record) (call : Call) :
    Matches (finish s call ((w.withLog log).proceed s call))
      (finish s call (w.proceed s call)) := by
  obtain ⟨later, hlater⟩ := proceed_withLog s w log call
  have hcases := proceed_cases s w call
  rw [hlater]
  generalize w.proceed s call = x at hcases ⊢
  obtain ⟨u, phase⟩ := x
  obtain ⟨result, hphase, -⟩ | ⟨reply, hphase, -⟩ := hcases
  · obtain rfl := hphase
    exact ⟨alike_withLog u later, rfl⟩
  · obtain rfl := hphase
    obtain ⟨last, hlast⟩ := commit_withLog s u later call (w.act s call).1.game.progress reply
    show Matches ((u.withLog later).commit s call _ reply) (u.commit s call _ reply)
    rw [hlast]
    exact matches_withLog _ last

/-- Worlds that are alike stay alike when a call is finished. -/
theorem Alike.finish (s : Setup) {v w : World} (e : Entrant) (h : v.Alike w) :
    Matches (e.finish s v) (e.finish s w) := by
  have hmet : v.metBy e.made = (w.metBy e.made).withLog v.log := h.meeting _ _
  have hread : Matches
      (World.finish s e.made.call (((v.metBy e.made).readFor s e.made.call).proceed s e.made.call))
      (World.finish s e.made.call
        (((w.metBy e.made).readFor s e.made.call).proceed s e.made.call)) := by
    obtain ⟨later, hlater⟩ := readFor_withLog s (w.metBy e.made) v.log e.made.call
    rw [hmet, hlater]
    exact finish_withLog s _ later e.made.call
  unfold Entrant.finish
  cases e.phase with
  | queued => exact hread
  | reading => exact hread
  | saving snapshot reply =>
      obtain ⟨later, hlater⟩ :=
        commit_withLog s (w.metBy e.made) v.log e.made.call snapshot reply
      dsimp only
      rw [hmet, hlater]
      exact matches_withLog _ later
  | ended result => exact ⟨h, rfl⟩

theorem Alike.finishAll (s : Setup) {v w : World} (h : v.Alike w) (es : List Entrant) :
    Matches (v.finishAll s es) (w.finishAll s es) :=
  matches_through (fun _ _ e hvw => hvw.finish s e) h es

end World

/-! ## calls that keep no others out -/

theorem Call.eq_ensureLoaded {call : Call} (h : call.isExclusive = false) :
    call = .ensureLoaded := by
  cases call with
  | ensureLoaded => rfl
  | _ => contradiction

namespace Entrant

variable {s : Setup} {w : World} {e : Entrant}

/-- A call that keeps no others out: it has ended, or waits to make sure of saved progress. -/
def Idle (e : Entrant) : Prop :=
  (∃ result, e.phase = .ended result) ∨
    e.made.call = .ensureLoaded ∧ (e.phase = .queued ∨ e.phase = .reading)

theorem call_of_not_engaged (he : e.isEngaged = false) (hphase : e.phase.isEnded = false) :
    e.made.call = .ensureLoaded := by
  rw [isEngaged, hphase, Bool.not_false, Bool.and_true] at he
  exact Call.eq_ensureLoaded he

theorem Fits.idle (hfits : e.Fits w) (he : e.isEngaged = false) : e.Idle := by
  have hcall := call_of_not_engaged he
  cases hphase : e.phase with
  | ended result => exact .inl ⟨result, hphase⟩
  | queued => exact .inr ⟨hcall (by rw [hphase]; rfl), .inl hphase⟩
  | reading => exact .inr ⟨hcall (by rw [hphase]; rfl), .inr hphase⟩
  | saving snapshot reply =>
      have hexclusive := (hfits.saving (by rw [hphase]; rfl)).2
      rw [hcall (by rw [hphase]; rfl)] at hexclusive
      contradiction

/-- It sees to it that saved progress is read, and changes nothing else. -/
theorem Idle.finish (he : e.Idle) :
    e.finish s w =
      (if e.phase.isEnded then w else (w.metBy e.made).readFor s .ensureLoaded, e.answer) := by
  obtain ⟨result, hphase⟩ | ⟨hcall, hphase | hphase⟩ := he
  · rw [Entrant.finish, answer, hphase]
    rfl
  · rw [Entrant.finish, answer, hphase, hcall]
    rfl
  · rw [Entrant.finish, answer, hphase, hcall]
    rfl

/-- Where saved progress has been read it changes nothing at all. -/
theorem Idle.matches_finish (he : e.Idle)
    (hw : w.game.loaded = true ∨ e.phase.isEnded = true) :
    Matches (e.finish s w) (w, e.answer) := by
  rw [he.finish]
  split
  · exact .refl _
  · next hphase =>
    have hloaded : (w.metBy e.made).game.loaded = true := hw.resolve_right hphase
    rw [World.readFor_of_loaded hloaded (by simp)]
    exact ⟨World.alike_meeting w _ _, rfl⟩

theorem Idle.finish_setBusy (he : e.Idle) (b : Bool) :
    e.finish s (w.setBusy b) = ((e.finish s w).1.setBusy b, (e.finish s w).2) := by
  have hread : ((w.setBusy b).metBy e.made).readFor s .ensureLoaded =
      ((w.metBy e.made).readFor s .ensureLoaded).setBusy b := by
    unfold World.readFor
    show (if (!w.game.loaded) = true then _ else _) =
      (if (!w.game.loaded) = true then _ else _ : World).setBusy b
    split <;> rfl
  rw [he.finish, he.finish, hread]
  split <;> rfl

theorem loaded_finish (s : Setup) {w : World} (e : Entrant) (hloaded : w.game.loaded = true) :
    (e.finish s w).1.game.loaded = true := by
  have hread : (World.finish s e.made.call
      (((w.metBy e.made).readFor s e.made.call).proceed s e.made.call)).1.game.loaded = true := by
    have hbefore : ((w.metBy e.made).readFor s e.made.call).game.loaded = true := by
      unfold World.readFor
      split
      · rfl
      · exact hloaded
    rw [World.finish_proceed_game, World.leave_loaded, (World.act_marks s _ e.made.call).1, hbefore]
  unfold finish
  cases e.phase with
  | queued => exact hread
  | reading => exact hread
  | saving snapshot reply =>
      dsimp only
      rw [World.commit_game, World.leave_loaded]
      exact hloaded
  | ended result => exact hloaded

end Entrant

/-! ## lists of them -/

namespace World

variable {s : Setup} {v w : World} {es : List Entrant}

theorem matches_finishAll_of_idle (hidle : ∀ e ∈ es, e.Idle)
    (hw : w.game.loaded = true ∨ ∀ e ∈ es, e.phase.isEnded = true) :
    Matches (w.finishAll s es) (w, es.map Entrant.answer) := by
  induction es with
  | nil => exact .refl _
  | cons e es ih =>
      have he := (hidle e List.mem_cons_self).matches_finish (s := s)
        (hw.imp_right fun hended => hended e List.mem_cons_self)
      have hes := ih (fun d hd => hidle d (List.mem_cons_of_mem e hd))
        (hw.imp_right fun hended d hd => hended d (List.mem_cons_of_mem e hd))
      have hrest := (he.1.finishAll s es).trans hes
      exact ⟨hrest.1, congrArg₂ List.cons he.2 hrest.2⟩

theorem finishAll_setBusy_of_idle (hidle : ∀ e ∈ es, e.Idle) (b : Bool) :
    (w.setBusy b).finishAll s es =
      ((w.finishAll s es).1.setBusy b, (w.finishAll s es).2) := by
  induction es generalizing w with
  | nil => rfl
  | cons e es ih =>
      have he := (hidle e List.mem_cons_self).finish_setBusy (s := s) (w := w) b
      have hes := ih (w := (e.finish s w).1) fun d hd => hidle d (List.mem_cons_of_mem e hd)
      unfold finishAll at hes ⊢
      rw [through, he, hes]
      rfl

theorem loaded_finishAll (s : Setup) (hloaded : w.game.loaded = true) (es : List Entrant) :
    (w.finishAll s es).1.game.loaded = true := by
  induction es generalizing w with
  | nil => exact hloaded
  | cons e es ih => exact ih (Entrant.loaded_finish s e hloaded)

/-- One of the calls may stand elsewhere, if that makes no difference once those before it are
finished. -/
theorem matches_finishAll_replace {d e : Entrant} {before after : List Entrant}
    (hbefore : (v.finishAll s before).2 = (w.finishAll s before).2)
    (he : Matches (d.finish s (v.finishAll s before).1) (e.finish s (w.finishAll s before).1)) :
    Matches (v.finishAll s (before ++ d :: after)) (w.finishAll s (before ++ e :: after)) := by
  have hafter := he.1.finishAll s after
  unfold finishAll at hbefore he hafter ⊢
  rw [through_append, through_append, hbefore]
  exact ⟨hafter.1, congrArg (_ ++ ·) (congrArg₂ List.cons he.2 hafter.2)⟩

/-- So it may where those before it change nothing, and its own finish is the same. -/
theorem matches_finishAll_of_finish {d e : Entrant} {before after : List Entrant}
    (hidle : ∀ a ∈ before, a.Idle)
    (hv : v.game.loaded = true ∨ ∀ a ∈ before, a.phase.isEnded = true)
    (hw : w.game.loaded = true ∨ ∀ a ∈ before, a.phase.isEnded = true)
    (he : d.finish s v = e.finish s w) :
    Matches (v.finishAll s (before ++ d :: after)) (w.finishAll s (before ++ e :: after)) := by
  have hbefore := matches_finishAll_of_idle (s := s) hidle hw
  have hlater := matches_finishAll_of_idle (s := s) hidle hv
  refine matches_finishAll_replace (hlater.2.trans hbefore.2.symm) ?_
  have hd := hlater.1.finish s d
  rw [he] at hd
  exact hd.trans (hbefore.1.symm.finish s e)

end World

end CoinToss
