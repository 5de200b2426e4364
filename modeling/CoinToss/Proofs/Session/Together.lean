import CoinToss.Proofs.Session.Turns

/-!
# CoinToss.Proofs.Session.Together

What holds of calls under way together, whatever steps they take.

Exclusive calls keep each other out by the busy flag; the reads of saved progress keep each other
out by the lock.  The two are independent of each other, and a call that makes sure of saved
progress goes by the lock alone.  So what one step has to keep is:

```
busy flag   the one exclusive call that waits, if any
lock        the one call that reads, if any, and none before it waits for its turn
progress    w.finishAll es   matches   start.inTurn (the calls of es)
```

* `Entrant.Step` — a step of a call under way;
* `Together` — what holds of calls under way together;
* `Together.step` — a call takes a step;
* `Together.join`, `Together.refuse` — a call is let in, or is not.
-/

namespace CoinToss

open World (Matches)

/-! ## steps -/

/-- A step of a call under way among others, of which these came before it, while some call reads or
none does: the world and the phase it comes to, and whether some call reads then. -/
inductive Entrant.Step (s : Setup) (w : World) (before : List Entrant) (held : Bool) (e : Entrant) :
    World × Phase → Bool → Prop where
  /-- It has its turn, and asks the store. -/
  | turn (hphase : e.phase = .queued) (hfree : held = false)
      (hfirst : ∀ d ∈ before, d.phase.isQueued = false)
      (hread : e.made.call.needsRead w.game = true) : Step s w before held e (w, .reading) true
  /-- It has its turn, and there is nothing to read any more. -/
  | skip (hphase : e.phase = .queued) (hread : e.made.call.needsRead w.game = false) :
      Step s w before held e (w.proceed s e.made.call) held
  /-- The store has read. -/
  | read (hphase : e.phase = .reading) :
      Step s w before held e ((w.readIn s).proceed s e.made.call) false
  /-- The store has written. -/
  | write {snapshot : Progress} {reply : Reply} (hphase : e.phase = .saving snapshot reply) :
      Step s w before held e
        ((w.commit s e.made.call snapshot reply).1,
          .ended (w.commit s e.made.call snapshot reply).2) held

/-- How many steps a call is from its end at most. -/
def Phase.rank : Phase → Nat
  | .queued => 3
  | .reading => 2
  | .saving _ _ => 1
  | .ended _ => 0

/-- Whether a call reads. -/
def Entrant.isReading (e : Entrant) : Bool := e.phase.isReading

/-- A call that stands elsewhere. -/
def Entrant.at (e : Entrant) (phase : Phase) : Entrant := { e with phase := phase }

theorem Call.needsRead_congr {g k : Game} (h : g.loaded = k.loaded) (call : Call) :
    call.needsRead g = call.needsRead k := by
  cases call with
  | load => rfl
  | _ => rw [Call.needsRead, Call.needsRead, h] <;> simp

namespace World

theorem commit_loaded (s : Setup) (w : World) (call : Call) (p : Progress) (reply : Reply) :
    (w.commit s call p reply).1.game.loaded = w.game.loaded := by
  rw [commit_game, leave_loaded]

theorem proceed_busy (s : Setup) (w : World) (call : Call) :
    (w.proceed s call).1.game.busy =
      (w.game.busy && !(call.isExclusive && (w.proceed s call).2.isEnded)) := by
  rw [← (act_marks s w call).2]
  obtain ⟨_, hphase, hw⟩ | ⟨_, hphase, hw, -⟩ := proceed_cases s w call
  · simp [hphase, hw, leave_busy]
  · simp [hphase, hw]

/-- A call that has acted no longer waits to read. -/
theorem proceed_phase (s : Setup) (w : World) (call : Call) :
    (w.proceed s call).2.isQueued = false ∧ (w.proceed s call).2.isReading = false ∧
      ((w.proceed s call).2.isSaving = true → call.isExclusive = true) := by
  obtain ⟨_, hphase, -⟩ | ⟨_, hphase, -, hcall⟩ := proceed_cases s w call
  · rw [hphase]
    exact ⟨rfl, rfl, fun h => nomatch h⟩
  · rw [hphase]
    exact ⟨rfl, rfl, fun _ => hcall⟩

end World

namespace Entrant

/-- What is left of a call that has acted is to save and end. -/
theorem finish_proceeded (s : Setup) {w : World} (e : Entrant) (hmet : w.metBy e.made = w) :
    (e.at (w.proceed s e.made.call).2).finish s (w.proceed s e.made.call).1 =
      World.finish s e.made.call (w.proceed s e.made.call) := by
  have hmeeting : (w.proceed s e.made.call).1.metBy e.made = (w.proceed s e.made.call).1 :=
    World.meeting_proceed s e.made.call hmet
  obtain ⟨result, hphase, -⟩ | ⟨reply, hphase, -⟩ := World.proceed_cases s w e.made.call
  · generalize w.proceed s e.made.call = x at hphase ⊢
    obtain ⟨u, phase⟩ := x
    obtain rfl := hphase
    rfl
  · generalize w.proceed s e.made.call = x at hphase hmeeting ⊢
    obtain ⟨u, phase⟩ := x
    obtain rfl := hphase
    show (u.metBy e.made).commit s e.made.call _ reply = _
    rw [hmeeting]
    rfl

/-- To have one's turn is not to do anything yet. -/
theorem finish_reading (s : Setup) (w : World) {e : Entrant} (hphase : e.phase = .queued) :
    (e.at .reading).finish s w = e.finish s w := by
  unfold finish
  rw [hphase]
  rfl

namespace Step

variable {s : Setup} {w : World} {before : List Entrant} {held later : Bool} {e : Entrant}
  {x : World × Phase}

theorem isEnded (h : e.Step s w before held x later) : e.phase.isEnded = false := by
  cases h with
  | turn hphase _ _ _ => simp [hphase]
  | skip hphase _ => simp [hphase]
  | read hphase => simp [hphase]
  | write hphase => simp [hphase]

theorem isQueued (h : e.Step s w before held x later) : x.2.isQueued = false := by
  cases h with
  | turn _ _ _ _ => rfl
  | skip _ _ => exact (World.proceed_phase s w e.made.call).1
  | read _ => exact (World.proceed_phase s (w.readIn s) e.made.call).1
  | write _ => rfl

/-- The busy flag is lowered where an exclusive call ends. -/
theorem busy (h : e.Step s w before held x later) :
    x.1.game.busy = (w.game.busy && !(e.made.call.isExclusive && x.2.isEnded)) := by
  cases h with
  | turn _ _ _ _ => simp
  | skip _ _ => exact World.proceed_busy s w e.made.call
  | read _ => exact World.proceed_busy s (w.readIn s) e.made.call
  | write _ =>
      show (World.commit _ _ _ _ _).1.game.busy = _
      rw [World.commit_game, World.leave_busy, Phase.isEnded, Bool.and_true]

/-- Saved progress is read where the store has read. -/
theorem loaded (h : e.Step s w before held x later) :
    x.1.game.loaded = (w.game.loaded || e.phase.isReading) := by
  cases h with
  | turn hphase _ _ _ => simp [hphase]
  | skip hphase _ => simp [hphase, World.proceed_loaded]
  | read hphase =>
      rw [World.proceed_loaded, hphase]
      exact (Bool.or_true _).symm
  | write hphase => simp [hphase, World.commit_loaded]

theorem fits (h : e.Step s w before held x later) (he : e.Fits w) : (e.at x.2).Fits x.1 := by
  have haccepted := he.accepted h.isEnded
  cases h with
  | turn _ _ _ hread => exact ⟨fun _ => haccepted, fun _ => hread, (nomatch ·)⟩
  | skip _ hread =>
      obtain ⟨-, hreading, hsaving⟩ := World.proceed_phase s w e.made.call
      refine ⟨fun _ => haccepted, fun h => ?_, fun h => ⟨?_, hsaving h⟩⟩
      · exact absurd (hreading.symm.trans h) (by decide)
      · rw [World.proceed_loaded]
        exact Call.loaded_of_needsRead hread
  | read _ =>
      obtain ⟨-, hreading, hsaving⟩ := World.proceed_phase s (w.readIn s) e.made.call
      refine ⟨fun _ => haccepted, fun h => ?_, fun h => ⟨?_, hsaving h⟩⟩
      · exact absurd (hreading.symm.trans h) (by decide)
      · rw [World.proceed_loaded]
        rfl
  | write _ => exact ⟨fun _ => haccepted, (nomatch ·), (nomatch ·)⟩

/-- Who reads has had its turn first, and then reads no more. -/
theorem reading (h : e.Step s w before held x later) :
    (e.phase.isReading = false ∧ held = false ∧ x.2.isReading = true ∧ later = true ∧
        ∀ d ∈ before, d.phase.isQueued = false) ∨
      (e.phase.isReading = false ∧ x.2.isReading = false ∧ later = held) ∨
      e.phase.isReading = true ∧ x.2.isReading = false ∧ later = false := by
  cases h with
  | turn hphase hfree hfirst _ => exact .inl ⟨by simp [hphase], hfree, rfl, rfl, hfirst⟩
  | skip hphase _ =>
      exact .inr (.inl ⟨by simp [hphase], (World.proceed_phase s w e.made.call).2.1, rfl⟩)
  | read hphase =>
      exact .inr (.inr ⟨by simp [hphase], (World.proceed_phase s _ e.made.call).2.1, rfl⟩)
  | write hphase => exact .inr (.inl ⟨by simp [hphase], rfl, rfl⟩)

/-- As long as nothing has been read, nothing has happened. -/
theorem unread (h : e.Step s w before held x later) (he : e.Fits w)
    (hx : x.1.game.loaded = false) : x.1 = w := by
  have hloaded := h.loaded
  rw [hx] at hloaded
  cases h with
  | turn _ _ _ _ => rfl
  | skip _ hread =>
      rw [Call.loaded_of_needsRead hread] at hloaded
      contradiction
  | read hphase => simp [hphase] at hloaded
  | write hphase =>
      rw [(he.saving (by simp [hphase])).1] at hloaded
      contradiction

/-- A step brings a call nearer to its end. -/
theorem rank_lt (h : e.Step s w before held x later) : x.2.rank < e.phase.rank := by
  have hproceed (v : World) : (v.proceed s e.made.call).2.rank ≤ 1 := by
    obtain ⟨_, hphase, -⟩ | ⟨_, hphase, -⟩ := World.proceed_cases s v e.made.call
    · rw [hphase]
      exact Nat.zero_le 1
    · rw [hphase]
      exact Nat.le_refl 1
  cases h with
  | turn hphase _ _ _ =>
      rw [hphase]
      exact Nat.lt_succ_self 2
  | skip hphase _ =>
      rw [hphase]
      exact Nat.lt_of_le_of_lt (hproceed w) (by decide)
  | read hphase =>
      rw [hphase]
      exact Nat.lt_of_le_of_lt (hproceed _) (by decide)
  | write hphase =>
      rw [hphase]
      exact Nat.zero_lt_one

/-- A step does not change what a call comes to if finished. -/
theorem finish (h : e.Step s w before held x later) (he : e.Fits w) (hmet : w.metBy e.made = w) :
    (e.at x.2).finish s x.1 = e.finish s w := by
  cases h with
  | turn hphase _ _ _ => exact finish_reading s w hphase
  | skip hphase hread =>
      rw [finish_proceeded s e hmet, Entrant.finish, hphase, hmet, World.readFor, hread]
      rfl
  | read hphase =>
      have hmetRead : (w.readIn s).metBy e.made = w.readIn s :=
        World.meeting_of_same hmet rfl rfl
      have hread := he.reading (by rw [hphase]; rfl)
      rw [finish_proceeded s e hmetRead, Entrant.finish, hphase, hmet, World.readFor, hread]
      rfl
  | write hphase =>
      rw [Entrant.finish, Entrant.finish, hphase, hmet]
      rfl

end Step

/-- A call goes on fitting if what has been read is as it was, or it does not read itself. -/
theorem Fits.mono {v w : World} {d : Entrant} (hd : d.Fits w)
    (hread : w.game.loaded = true → v.game.loaded = true)
    (hv : d.phase.isReading = true → v.game.loaded = w.game.loaded) : d.Fits v := by
  refine ⟨hd.accepted, fun h => ?_, fun h => ⟨hread (hd.saving h).1, (hd.saving h).2⟩⟩
  rw [Call.needsRead_congr (hv h)]
  exact hd.reading h

end Entrant

/-! ## calls under way together -/

/-- What holds of calls under way together since the session began with this world, with some call
reading or none. -/
structure Together (s : Setup) (start w : World) (es : List Entrant) (held : Bool) : Prop where
  fits : ∀ e ∈ es, e.Fits w
  engaged : es.countP Entrant.isEngaged = w.game.busy.toNat
  reading : es.countP Entrant.isReading = held.toNat
  /-- Calls have their turn to read in the order in which they came. -/
  order : es.Pairwise fun d e => e.phase.isReading = true → d.phase.isQueued = false
  /-- Finished in turn, all calls come to what they come to in turn. -/
  comes : Matches (w.finishAll s es) (start.inTurn s (es.map Entrant.made))
  /-- Until saved progress has been read, no call has done anything. -/
  unread : w.game.loaded = false → (w.setBusy false).Alike start

/-! ## counts -/

section Counts

variable {α : Type} {p : α → Bool} {before after : List α} {x y : α} {b c : Bool}

theorem countP_split (p : α → Bool) (before : List α) (x : α) (after : List α) :
    (before ++ x :: after).countP p = before.countP p + (p x).toNat + after.countP p := by
  rw [List.countP_append, List.countP_cons]
  cases p x with
  | true =>
      rw [if_pos rfl, Bool.toNat_true]
      omega
  | false =>
      rw [if_neg Bool.false_ne_true, Bool.toNat_false]
      omega

/-- Where there is one at most, there is no other. -/
theorem none_else (h : (before ++ x :: after).countP p = b.toNat) (hx : p x = true)
    (hy : y ∈ before ∨ y ∈ after) : p y = false := by
  have hb := Bool.toNat_le b
  rw [countP_split, hx, Bool.toNat_true] at h
  refine Bool.eq_false_iff.2 fun hpy => ?_
  obtain hy | hy := hy
  · have hpos := List.countP_pos_iff.2 ⟨y, hy, hpy⟩
    omega
  · have hpos := List.countP_pos_iff.2 ⟨y, hy, hpy⟩
    omega

/-- The one can go, and another come where there is none. -/
theorem countP_replace (h : (before ++ x :: after).countP p = b.toNat)
    (hmove : (p x = p y ∧ c = b) ∨ (p x = true ∧ p y = false ∧ c = false) ∨
      p x = false ∧ p y = true ∧ b = false ∧ c = true) :
    (before ++ y :: after).countP p = c.toNat := by
  have hle := Bool.toNat_le b
  rw [countP_split] at h ⊢
  obtain ⟨hp, rfl⟩ | ⟨hx, hy, rfl⟩ | ⟨hx, hy, rfl, rfl⟩ := hmove
  · rw [← hp]
    exact h
  · rw [hx, Bool.toNat_true] at h
    rw [hy, Bool.toNat_false]
    omega
  · rw [hx, Bool.toNat_false] at h
    rw [hy, Bool.toNat_true]
    omega

end Counts

namespace Together

variable {s : Setup} {start w : World} {es before after : List Entrant} {held later : Bool}
  {e : Entrant} {x : World × Phase}

/-- Time goes by, and the store comes into another order. -/
theorem meeting (h : Together s start w es held) (faults : Faults) (time : DateTime) :
    Together s start (w.meeting faults time) es held where
  fits e he := (h.fits e he).mono (fun hw => hw) fun _ => rfl
  engaged := h.engaged
  reading := h.reading
  order := h.order
  comes := ((World.alike_meeting w faults time).finishAll s es).trans h.comes
  unread hw := ((World.alike_meeting w faults time).setBusy false).trans (h.unread hw)

/-- Those before a call that reads have ended. -/
theorem ended_before (h : Together s start w (before ++ e :: after) held)
    (hphase : e.phase.isReading = true) {d : Entrant} (hd : d ∈ before) :
    d.phase.isEnded = true := by
  have hfits := h.fits d (List.mem_append_left _ hd)
  have hread := (h.fits e (by simp)).reading hphase
  have hqueued : d.phase.isQueued = false :=
    (List.pairwise_append.1 h.order).2.2 d hd e List.mem_cons_self hphase
  have hreading : d.phase.isReading = false :=
    none_else (p := Entrant.isReading) h.reading hphase (.inl hd)
  cases hp : d.phase with
  | queued => simp [hp] at hqueued
  | reading => simp [hp] at hreading
  | ended result => rfl
  | saving snapshot reply =>
      obtain ⟨hloaded, hcall⟩ := hfits.saving (by simp [hp])
      -- a call that reads where that has been done is exclusive, and so is one that saves
      have hengaged : d.isEngaged = true := by simp [Entrant.isEngaged, hcall, hp]
      have hother : e.isEngaged = false := by
        obtain ⟨l, r, rfl⟩ := List.append_of_mem hd
        have hcount := h.engaged
        rw [List.append_assoc, List.cons_append] at hcount
        exact none_else hcount hengaged (.inr (by simp))
      have hnot : e.phase.isEnded = false := by
        cases he : e.phase with
        | reading => rfl
        | _ => simp [he] at hphase
      rw [Entrant.call_of_not_engaged hother hnot, Call.needsRead, hloaded] at hread
      · contradiction
      · simp

/-- A step does not change what all calls come to if finished in turn. -/
theorem matches_step (h : Together s start w (before ++ e :: after) held)
    (hmet : w.metBy e.made = w) (hstep : e.Step s w before held x later) :
    Matches (x.1.finishAll s (before ++ e.at x.2 :: after))
      (w.finishAll s (before ++ e :: after)) := by
  have he := h.fits e (by simp)
  have hfinish := hstep.finish he hmet
  have hfits (d : Entrant) (hd : d ∈ before) : d.Fits w := h.fits d (List.mem_append_left _ hd)
  have hidle (hengaged : e.isEngaged = true) (d : Entrant) (hd : d ∈ before) : d.Idle :=
    (hfits d hd).idle (none_else h.engaged hengaged (.inl hd))
  have hloaded := hstep.loaded
  have hended := hstep.isEnded
  cases hstep with
  | turn hphase _ _ _ =>
      refine World.matches_finishAll_replace rfl ?_
      rw [Entrant.finish_reading s _ hphase]
      exact .refl _
  | skip hphase hread =>
      have hw := Call.loaded_of_needsRead hread
      rw [hw, Bool.true_or] at hloaded
      cases hengaged : e.isEngaged with
      | true =>
          exact World.matches_finishAll_of_finish (hidle hengaged) (.inl hloaded) (.inl hw) hfinish
      | false =>
          -- an exclusive call before it may save, but this one has nothing to do
          have hproceed : w.proceed s e.made.call = (w, .ended (.ok .nothing)) := by
            rw [Entrant.call_of_not_engaged hengaged hended]
            rfl
          rw [hproceed]
          refine World.matches_finishAll_replace rfl ?_
          have hbefore := World.loaded_finishAll s hw before
          have hlast := (he.idle hengaged).matches_finish (s := s) (.inl hbefore)
          rw [Entrant.answer, hphase] at hlast
          exact hlast.symm
  | read hphase =>
      have hbefore (d : Entrant) (hd : d ∈ before) : d.phase.isEnded = true :=
        h.ended_before (by simp [hphase]) hd
      refine World.matches_finishAll_of_finish (fun d hd => (hfits d hd).idle ?_) (.inr hbefore)
        (.inr hbefore) hfinish
      rw [Entrant.isEngaged, hbefore d hd, Bool.not_true, Bool.and_false]
  | write hphase =>
      obtain ⟨hw, hcall⟩ := he.saving (by simp [hphase])
      rw [hw, Bool.true_or] at hloaded
      have hengaged : e.isEngaged = true := by rw [Entrant.isEngaged, hcall, hended]; rfl
      exact World.matches_finishAll_of_finish (hidle hengaged) (.inl hloaded) (.inl hw) hfinish

/-- A call takes a step. -/
theorem step (h : Together s start w (before ++ e :: after) held) (hmet : w.metBy e.made = w)
    (hstep : e.Step s w before held x later) :
    Together s start x.1 (before ++ e.at x.2 :: after) later := by
  have he := h.fits e (by simp)
  have hloaded := hstep.loaded
  refine ⟨fun d hd => ?_, ?_, ?_, ?_, ?_, fun hx => ?_⟩
  · have hother (hd : d ∈ before ∨ d ∈ after) : d.Fits x.1 := by
      refine (h.fits d (by simpa using hd.imp_right .inr)).mono (fun hw => ?_) fun hdr => ?_
      · rw [hloaded, hw, Bool.true_or]
      · have hnot : e.phase.isReading = false := by
          refine Bool.eq_false_iff.2 fun her => ?_
          have hnot := none_else (p := Entrant.isReading) h.reading her hd
          exact absurd (hnot.symm.trans hdr) (by decide)
        rw [hloaded, hnot, Bool.or_false]
    obtain hd | rfl | hd := (by simpa using hd : d ∈ before ∨ d = e.at x.2 ∨ d ∈ after)
    · exact hother (.inl hd)
    · exact hstep.fits he
    · exact hother (.inr hd)
  · have hengaged : e.isEngaged = e.made.call.isExclusive := by
      rw [Entrant.isEngaged, hstep.isEnded, Bool.not_false, Bool.and_true]
    have hlater : (e.at x.2).isEngaged = (e.made.call.isExclusive && !x.2.isEnded) := rfl
    refine countP_replace h.engaged ?_
    rw [hengaged, hlater, hstep.busy]
    cases e.made.call.isExclusive <;> cases x.2.isEnded <;> simp
  · refine countP_replace h.reading ?_
    obtain ⟨her, hheld, hxr, hlater, -⟩ | ⟨her, hxr, hlater⟩ | ⟨her, hxr, hlater⟩ := hstep.reading
    · exact .inr (.inr ⟨her, hxr, hheld, hlater⟩)
    · exact .inl ⟨her.trans hxr.symm, hlater⟩
    · exact .inr (.inl ⟨her, hxr, hlater⟩)
  · obtain ⟨hb, hea, hcross⟩ := List.pairwise_append.1 h.order
    obtain ⟨-, ha⟩ := List.pairwise_cons.1 hea
    refine List.pairwise_append.2
      ⟨hb, List.pairwise_cons.2 ⟨fun _ _ _ => hstep.isQueued, ha⟩, fun d hd c hc => ?_⟩
    obtain rfl | hc := List.mem_cons.1 hc
    · intro hxr
      obtain ⟨-, -, -, -, hfirst⟩ | ⟨-, hnot, -⟩ | ⟨-, hnot, -⟩ := hstep.reading
      · exact hfirst d hd
      · exact absurd (hnot.symm.trans hxr) (by decide)
      · exact absurd (hnot.symm.trans hxr) (by decide)
    · exact hcross d hd c (List.mem_cons_of_mem e hc)
  · have hmade : (before ++ e.at x.2 :: after).map Entrant.made =
        (before ++ e :: after).map Entrant.made := by simp [Entrant.at]
    rw [hmade]
    exact (h.matches_step hmet hstep).trans h.comes
  · have hsame := hstep.unread he hx
    rw [hsame] at hx ⊢
    exact h.unread hx

/-! ## calls that come -/

/-- Nothing is under way at first. -/
theorem begin (s : Setup) {start : World} (hidle : start.game.busy = false) :
    Together s start start [] false where
  fits _ h := nomatch h
  engaged := by rw [hidle]; rfl
  reading := rfl
  order := .nil
  comes := .refl _
  unread _ := by
    have hsame : start.setBusy false = start := by rw [World.setBusy, ← hidle]
    rw [hsame]
    exact .refl start

/-- Calls under way are finished as before when another call has been let in. -/
theorem matches_finishAll_enter (h : Together s start w es held) {call : Call}
    (hfree : (call.isExclusive && w.game.busy) = false) :
    Matches ((w.enter call).finishAll s es)
      ((w.finishAll s es).1.enter call, (w.finishAll s es).2) := by
  unfold World.enter
  cases hcall : call.isExclusive with
  | false => exact .refl _
  | true =>
      rw [hcall, Bool.true_and] at hfree
      have hengaged := h.engaged
      rw [hfree] at hengaged
      have hidle (e : Entrant) (he : e ∈ es) : e.Idle :=
        (h.fits e he).idle (Bool.eq_false_iff.2 (List.countP_eq_zero.1 hengaged e he))
      rw [if_pos rfl, if_pos rfl]
      have hall := World.finishAll_setBusy_of_idle (s := s) (w := w) hidle true
      rw [hall]
      exact .refl _

/-- A call is let in, and waits for its turn. -/
theorem join (h : Together s start w es held) (hstart : start.game.busy = false) {m : Making}
    (hm : m.accepted = true) (hfree : (m.call.isExclusive && w.game.busy) = false) :
    Together s start (w.enter m.call) (es ++ [⟨m, .queued⟩]) held := by
  have hgame : (w.enter m.call).game.loaded = w.game.loaded ∧
      (w.enter m.call).game.busy.toNat = w.game.busy.toNat + m.call.isExclusive.toNat := by
    unfold World.enter
    cases hcall : m.call.isExclusive with
    | false => exact ⟨rfl, rfl⟩
    | true =>
        rw [hcall, Bool.true_and] at hfree
        rw [hfree]
        exact ⟨rfl, rfl⟩
  have hfinish := h.matches_finishAll_enter hfree
  refine ⟨fun d hd => ?_, ?_, ?_, ?_, ?_, fun hw => ?_⟩
  · obtain hd | rfl := (by simpa using hd : d ∈ es ∨ d = ⟨m, .queued⟩)
    · exact (h.fits d hd).mono (fun hw => hgame.1.trans hw) fun _ => hgame.1
    · exact ⟨fun _ => hm, (nomatch ·), (nomatch ·)⟩
  · have hengaged : Entrant.isEngaged ⟨m, .queued⟩ = m.call.isExclusive := Bool.and_true _
    rw [countP_split, h.engaged, hgame.2, hengaged]
    rfl
  · rw [countP_split, h.reading]
    rfl
  · refine List.pairwise_append.2 ⟨h.order, List.pairwise_singleton _ _, fun d _ c hc => ?_⟩
    obtain rfl := List.mem_singleton.1 hc
    exact (nomatch ·)
  · have hcomes := h.comes
    have hquiet := World.idle_inTurn s hstart (es.map Entrant.made)
    unfold World.finishAll World.inTurn at *
    rw [List.map_append, World.through_append, World.through_append]
    generalize start.through (Making.run s) (es.map Entrant.made) = v at hcomes hquiet ⊢
    have hlast : Matches
        (Entrant.finish s ((w.enter m.call).through (Entrant.finish s) es).1 ⟨m, .queued⟩)
        (m.run s v.1) := by
      have halike := (hfinish.1.trans (hcomes.1.enter m.call)).finish s ⟨m, .queued⟩
      rw [Making.run_of_idle s hm hquiet]
      exact halike
    exact ⟨hlast.1, congrArg₂ (· ++ ·) (hfinish.2.trans hcomes.2) (congrArg ([·]) hlast.2)⟩
  · have hsame : (w.enter m.call).setBusy false = w.setBusy false := by
      unfold World.enter
      split <;> rfl
    rw [hsame]
    exact h.unread (hgame.1.symm.trans hw)

/-- A call is not let in. -/
theorem refuse (h : Together s start w es held) {m : Making} (hm : m.accepted = false) :
    Together s start w (es ++ [⟨m, .ended (.error .busy)⟩]) held := by
  refine ⟨fun d hd => ?_, ?_, ?_, ?_, ?_, h.unread⟩
  · obtain hd | rfl := (by simpa using hd : d ∈ es ∨ d = ⟨m, .ended (.error .busy)⟩)
    · exact h.fits d hd
    · exact ⟨(nomatch ·), (nomatch ·), (nomatch ·)⟩
  · have hengaged : Entrant.isEngaged ⟨m, .ended (.error .busy)⟩ = false := Bool.and_false _
    rw [countP_split, h.engaged, hengaged]
    rfl
  · rw [countP_split, h.reading]
    rfl
  · refine List.pairwise_append.2 ⟨h.order, List.pairwise_singleton _ _, fun d _ c hc => ?_⟩
    obtain rfl := List.mem_singleton.1 hc
    exact (nomatch ·)
  · have hcomes := h.comes
    unfold World.finishAll World.inTurn at *
    rw [List.map_append, World.through_append, World.through_append]
    have hrun (v : World) : m.run s v = (v, .error .busy) := by
      rw [Making.run, hm]
      rfl
    show Matches _ ((m.run s _).1, _ ++ [(m.run s _).2])
    rw [hrun]
    exact ⟨hcomes.1, congrArg (· ++ _) hcomes.2⟩

end Together

end CoinToss
