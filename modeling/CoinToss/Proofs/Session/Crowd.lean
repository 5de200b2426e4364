import CoinToss.Proofs.Session.Together
import Mathlib.Algebra.GroupWithZero.Nat

/-!
# CoinToss.Proofs.Session.Crowd

Calls on one session, in any order of their steps.

A crowd is what the calls made so far have come to, each alone in a job, with account of what was
made and of how often the store has read.  Whatever the order, its calls come to what they would
have come to one after the other, in the order in which they were let in.

* `Stir`, `Crowd` — calls being made and moved on;
* `Pool.resume_cases`, `Pool.start_cases` — what moving a call on and making one can come to;
* `Crowd.Sound` — what holds of a crowd at any time;
* `calls_come_to_turns` — the whole of it.
-/

namespace CoinToss

/-! ## calls being made and moved on -/

/-- Something that happens to calls under way: one more is made, at some time and with the store in
some order for it, or one is moved on by a step. -/
inductive Stir where
  | make (call : Call) (faults : Faults) (time : DateTime)
  | move (i : Nat)

/-- Whether a job waits for the store to read. -/
def Task.isReading {α : Type} : Task α → Bool
  | .waiting _ phase _ => phase.isReading
  | .ended _ => false

/-- Whether an exclusive call of a job is under way. -/
def Task.isEngaged {α : Type} : Task α → Bool
  | .waiting call phase _ => call.isExclusive && !phase.isEnded
  | .ended _ => false

/-- Calls under way, with the calls as they were made and the number of reads that have come to an
end. -/
structure Crowd where
  pool : Pool Result
  made : List Making
  reads : Nat

namespace Crowd

/-- No calls. -/
def ofWorld (w : World) : Crowd := ⟨.ofWorld w, [], 0⟩

/-- The pool at a time, with the store in some order. -/
def poolMeeting (c : Crowd) (faults : Faults) (time : DateTime) : Pool Result :=
  { c.pool with world := c.pool.world.meeting faults time }

/-- The calls after something has happened to them.  A call that is moved on keeps the time and the
order of the store it was made with. -/
def stir (s : Setup) (c : Crowd) : Stir → Crowd
  | .make call faults time =>
    { c with
      pool := (c.poolMeeting faults time).start s (Job.ofCall call)
      made := c.made ++ [⟨call, faults, time, !(call.isExclusive && c.pool.world.game.busy)⟩] }
  | .move i =>
    match c.made[i]? with
    | none => c
    | some m =>
      { c with
        pool := (c.poolMeeting m.faults m.time).resume s i
        reads := c.reads + (c.pool.tasks[i]?.any Task.isReading).toNat }

/-- The calls after all this has happened to them. -/
def afterAll (s : Setup) (c : Crowd) (stirs : List Stir) : Crowd := stirs.foldl (stir s) c

end Crowd

/-! ## calls alone in their jobs -/

namespace Entrant

/-- The job of a call. -/
def task (e : Entrant) : Task Result :=
  match e.phase with
  | .ended result => .ended result
  | phase => .waiting e.made.call phase fun _ result => .answer [] result

theorem follow_task (s : Setup) (e : Entrant) (x : World × Phase) :
    Task.follow s e.made.call (fun _ result => .answer [] result) x = (x.1, (e.at x.2).task) := by
  obtain ⟨w, phase⟩ := x
  cases phase with
  | ended result =>
      show (w.tell [], _) = _
      rw [World.tell_nil]
      rfl
  | _ => rfl

theorem task_waiting {e : Entrant} {call : Call} {phase : Phase}
    {next : Game → Result → Job Result} (h : e.task = .waiting call phase next) :
    e.made.call = call ∧ e.phase = phase ∧ e.phase.isEnded = false := by
  unfold task at h
  cases hphase : e.phase <;> rw [hphase] at h <;> cases h <;> exact ⟨rfl, rfl, rfl⟩

theorem isReading_task (e : Entrant) : e.task.isReading = e.isReading := by
  unfold task isReading
  cases e.phase <;> rfl

theorem isEngaged_task (e : Entrant) : e.task.isEngaged = e.isEngaged := by
  unfold task isEngaged
  cases e.phase <;> simp [Task.isEngaged]

theorem awaitsTurn_task (e : Entrant) : e.task.awaitsTurn = e.phase.isQueued := by
  unfold task
  cases e.phase <;> rfl

end Entrant

theorem modify_split {α : Type} (before : List α) (x y : α) (after : List α) :
    ((before ++ x :: after).modify before.length fun _ => y) = before ++ y :: after := by
  induction before with
  | nil => rfl
  | cons z before ih => exact congrArg (z :: ·) ih

theorem split_of_getElem? {α : Type} {xs : List α} {i : Nat} {x : α} (h : xs[i]? = some x) :
    ∃ before after, xs = before ++ x :: after ∧ before.length = i := by
  obtain ⟨hi, rfl⟩ := List.getElem?_eq_some_iff.1 h
  refine ⟨xs.take i, xs.drop (i + 1), ?_, List.length_take_of_le (Nat.le_of_lt hi)⟩
  rw [List.getElem_cons_drop, List.take_append_drop]

namespace Pool

variable {s : Setup} {p : Pool Result} {before after : List Entrant} {e : Entrant}

theorem put_split (htasks : p.tasks = (before ++ e :: after).map Entrant.task)
    (moved : World × Phase) :
    p.put before.length (moved.1, (e.at moved.2).task) =
      ⟨moved.1, (before ++ e.at moved.2 :: after).map Entrant.task, p.holder⟩ := by
  have hmodify := modify_split (before.map Entrant.task) e.task (e.at moved.2).task
    (after.map Entrant.task)
  rw [List.length_map] at hmodify
  rw [put, htasks, List.map_append, List.map_cons, hmodify, List.map_append, List.map_cons]

theorem firstQueued_split (htasks : p.tasks = (before ++ e :: after).map Entrant.task)
    (hfirst : p.firstQueued = some before.length) :
    ∀ d ∈ before, d.phase.isQueued = false := by
  intro d hd
  obtain ⟨i, hi, rfl⟩ := List.getElem_of_mem hd
  rw [firstQueued, htasks] at hfirst
  obtain ⟨_, -, hnone⟩ := List.findIdx?_eq_some_iff_getElem.1 hfirst
  have hlast := hnone i hi
  rw [List.getElem_map, List.getElem_append_left hi, Entrant.awaitsTurn_task] at hlast
  exact Bool.eq_false_iff.2 hlast

/-- A call that waits in vain: it has ended, or it is not its turn. -/
def Idles (p : Pool Result) (before : List Entrant) (e : Entrant) : Prop :=
  e.phase.isEnded = true ∨ e.phase.isQueued = true ∧
    (p.holder.isSome = true ∨ ∃ d ∈ before, d.phase.isQueued = true)

theorem idles_of_queued (htasks : p.tasks = (before ++ e :: after).map Entrant.task)
    (hphase : e.phase = .queued)
    (hgo : ¬(p.holder.isNone && p.firstQueued == some before.length) = true) :
    p.Idles before e := by
  refine .inr ⟨by rw [hphase]; rfl, ?_⟩
  cases hholder : p.holder with
  | some _ => exact .inl rfl
  | none =>
      refine .inr ?_
      by_contra hnone
      push Not at hnone
      refine hgo ?_
      have hlength : before.length < p.tasks.length := by
        rw [htasks]
        simp
      have hfirst : p.firstQueued = some before.length := by
        refine List.findIdx?_eq_some_iff_getElem.2 ⟨hlength, ?_, fun j hj => ?_⟩
        · simp [htasks, Entrant.awaitsTurn_task, hphase]
        · have hd := hnone before[j] (List.getElem_mem hj)
          simp only [htasks, List.getElem_map, List.getElem_append_left hj,
            Entrant.awaitsTurn_task]
          exact hd
      rw [hholder, hfirst]
      simp

/-- What moving a call on can come to: a step of the call, or nothing. -/
theorem resume_cases (s : Setup) (htasks : p.tasks = (before ++ e :: after).map Entrant.task) :
    (p.resume s before.length = p ∧ p.Idles before e) ∨
      ∃ x holder, e.Step s p.world before p.holder.isSome x holder.isSome ∧
        p.resume s before.length =
          ⟨x.1, (before ++ e.at x.2 :: after).map Entrant.task, holder⟩ := by
  have htask : p.tasks[before.length]? = some e.task := by
    rw [htasks, List.map_append, List.map_cons, List.getElem?_append_right (by simp), List.length_map, Nat.sub_self]
    rfl
  have hput := put_split htasks
  unfold resume
  rw [htask]
  cases hphase : e.phase with
  | ended result =>
      rw [Entrant.task, hphase]
      exact .inl ⟨rfl, .inl (by rw [hphase]; rfl)⟩
  | queued =>
      rw [Entrant.task, hphase]
      dsimp only
      by_cases hgo : (p.holder.isNone && p.firstQueued == some before.length) = true
      · rw [if_pos hgo, grant]
        obtain ⟨hfree, hfirst⟩ := Bool.and_eq_true_iff.1 hgo
        by_cases hread : e.made.call.needsRead p.world.game = true
        · rw [if_pos hread]
          refine .inr ⟨(p.world, .reading), some before.length, ?_, ?_⟩
          · exact .turn hphase (by simpa using hfree)
              (firstQueued_split htasks (by simpa using hfirst)) hread
          · have hmoved := hput (p.world, .reading)
            exact congrArg (fun q : Pool Result => { q with holder := some before.length }) hmoved
        · rw [if_neg hread, Entrant.follow_task]
          exact .inr ⟨_, p.holder, .skip hphase (Bool.eq_false_iff.2 hread), hput _⟩
      · rw [if_neg hgo]
        exact .inl ⟨rfl, idles_of_queued htasks hphase hgo⟩
  | reading =>
      rw [Entrant.task, hphase]
      dsimp only
      rw [Entrant.follow_task]
      refine .inr ⟨_, none, .read hphase, ?_⟩
      have hmoved := hput ((p.world.readIn s).proceed s e.made.call)
      exact congrArg (fun q : Pool Result => { q with holder := none }) hmoved
  | saving snapshot reply =>
      rw [Entrant.task, hphase]
      refine .inr ⟨_, p.holder, .write hphase, ?_⟩
      have hmoved := hput ((p.world.commit s e.made.call snapshot reply).1,
        .ended (p.world.commit s e.made.call snapshot reply).2)
      rw [← hmoved]
      show p.put before.length (World.tell _ [], _) = _
      rw [World.tell_nil]
      rfl

variable {es : List Entrant}

theorem start_of_busy (s : Setup) {m : Making} (htasks : p.tasks = es.map Entrant.task)
    (hbusy : (m.call.isExclusive && p.world.game.busy) = true) :
    p.start s (Job.ofCall m.call) =
      ⟨p.world, (es ++ [Entrant.mk m (.ended (.error .busy))]).map Entrant.task,
        p.holder⟩ := by
  have hadvance : (Job.ofCall m.call).advance s p.world =
      (p.world, .ended (.error .busy)) := by
    rw [Job.ofCall, Job.advance, World.start, if_pos hbusy]
    show (World.tell _ [], _) = _
    rw [World.tell_nil]
  rw [start, hadvance, List.map_append, ← htasks]
  rfl

/-- What making a call that is let in can come to: it waits for its turn, or takes a step too. -/
theorem start_cases (s : Setup) {m : Making} (htasks : p.tasks = es.map Entrant.task)
    (hfree : (m.call.isExclusive && p.world.game.busy) = false) :
    p.start s (Job.ofCall m.call) =
        ⟨p.world.enter m.call, (es ++ [Entrant.mk m .queued]).map Entrant.task, p.holder⟩ ∨
      ∃ x holder,
        Entrant.Step s (p.world.enter m.call) es p.holder.isSome ⟨m, .queued⟩ x
            holder.isSome ∧
          p.start s (Job.ofCall m.call) =
            ⟨x.1, (es ++ [Entrant.mk m x.2]).map Entrant.task, holder⟩ := by
  have hstart : p.world.start s m.call =
      if m.call.needsRead (p.world.enter m.call).game then (p.world.enter m.call, .queued)
      else (p.world.enter m.call).proceed s m.call := by
    rw [World.start, hfree]
    rfl
  by_cases hread : m.call.needsRead (p.world.enter m.call).game = true
  · rw [if_pos hread] at hstart
    have hadvance : (Job.ofCall m.call).advance s p.world =
        (p.world.enter m.call, Entrant.task ⟨m, .queued⟩) := by
      rw [Job.ofCall, Job.advance, hstart]
      rfl
    let joined : Pool Result :=
      ⟨p.world.enter m.call, (es ++ [Entrant.mk m .queued]).map Entrant.task, p.holder⟩
    have hresume : p.start s (Job.ofCall m.call) = joined.resume s es.length := by
      rw [start, hadvance, htasks, List.length_map]
      dsimp only [joined]
      rw [List.map_append]
      rfl
    rw [hresume]
    obtain ⟨hsame, -⟩ | hstep := resume_cases s (show joined.tasks = _ from rfl)
    · exact .inl hsame
    · exact .inr hstep
  · rw [if_neg hread] at hstart
    have hfollow := Entrant.follow_task s ⟨m, .queued⟩ ((p.world.enter m.call).proceed s m.call)
    have hadvance : (Job.ofCall m.call).advance s p.world =
        (((p.world.enter m.call).proceed s m.call).1,
          Entrant.task ⟨m, ((p.world.enter m.call).proceed s m.call).2⟩) := by
      rw [Job.ofCall, Job.advance, hstart]
      exact hfollow
    refine .inr ⟨_, p.holder, .skip rfl (Bool.eq_false_iff.2 hread), ?_⟩
    have hnot := (World.proceed_phase s (p.world.enter m.call) m.call).1
    rw [start, hadvance]
    dsimp only
    rw [Entrant.awaitsTurn_task, hnot, htasks, List.map_append]
    rfl

end Pool

/-! ## what holds at any time -/

namespace Crowd

/-- What holds of a crowd at any time, since the session began with this world. -/
structure Sound (s : Setup) (start : World) (c : Crowd) (es : List Entrant) : Prop where
  tasks : c.pool.tasks = es.map Entrant.task
  made : c.made = es.map Entrant.made
  together : Together s start c.pool.world es c.pool.holder.isSome
  reads : (∀ m ∈ c.made, m.call ≠ .load) →
    c.reads + (!c.pool.world.game.loaded).toNat = (!start.game.loaded).toNat

variable {s : Setup} {start : World} {c : Crowd} {es : List Entrant}

theorem sound_ofWorld (s : Setup) (hidle : start.game.busy = false) :
    Sound s start (ofWorld start) [] :=
  ⟨rfl, rfl, .begin s hidle, fun _ => Nat.zero_add _⟩

/-- One more call is made. -/
theorem Sound.make (h : Sound s start c es) (hstart : start.game.busy = false) (call : Call)
    (faults : Faults) (time : DateTime) :
    ∃ later, Sound s start (c.stir s (.make call faults time)) later := by
  let m : Making := ⟨call, faults, time, !(call.isExclusive && c.pool.world.game.busy)⟩
  let pool := c.poolMeeting faults time
  have htogether : Together s start pool.world es pool.holder.isSome :=
    h.together.meeting faults time
  have hmade (phase : Phase) : c.made ++ [m] = (es ++ [Entrant.mk m phase]).map Entrant.made := by
    rw [h.made, List.map_append]
    rfl
  have hreads (hnone : ∀ n ∈ c.made ++ [m], n.call ≠ .load) :=
    h.reads fun n hn => hnone n (List.mem_append_left _ hn)
  have hstir : c.stir s (.make call faults time) =
      ⟨pool.start s (Job.ofCall m.call), c.made ++ [m], c.reads⟩ := rfl
  rw [hstir]
  cases hbusy : call.isExclusive && c.pool.world.game.busy with
  | true =>
      rw [Pool.start_of_busy s (m := m) (p := pool) h.tasks hbusy]
      exact ⟨_, rfl, hmade _, htogether.refuse (congrArg Bool.not hbusy), hreads⟩
  | false =>
      have hjoined := htogether.join hstart (m := m) (congrArg Bool.not hbusy) hbusy
      have hentered : (pool.world.enter m.call).game.loaded = c.pool.world.game.loaded := by
        unfold World.enter
        split <;> rfl
      obtain hpool | ⟨x, holder, hstep, hpool⟩ :=
        Pool.start_cases s (m := m) (p := pool) h.tasks hbusy
      · rw [hpool]
        refine ⟨_, rfl, hmade _, hjoined, ?_⟩
        rw [hentered]
        exact hreads
      · have hmet : (pool.world.enter m.call).metBy m = pool.world.enter m.call := by
          rw [World.metBy_enter]
          exact congrArg (World.enter · m.call) (World.meeting_meeting c.pool.world faults time)
        have hloaded := hstep.loaded
        rw [hentered] at hloaded
        rw [hpool]
        refine ⟨_, rfl, hmade _, hjoined.step hmet hstep, ?_⟩
        rw [hloaded]
        exact (Bool.or_false c.pool.world.game.loaded).symm ▸ hreads

/-- Where a call reads that was not asked to read again, nothing has been read. -/
theorem Sound.unread (h : Sound s start c es) {e : Entrant} (he : e ∈ es)
    (hreading : e.isReading = true) (hcall : e.made.call ≠ .load) :
    c.pool.world.game.loaded = false := by
  refine Bool.eq_false_iff.2 fun hloaded => ?_
  have hnoread := World.needsRead_of_loaded hloaded hcall
  exact absurd (hnoread.symm.trans ((h.together.fits e he).reading hreading)) (by decide)

/-- A call is moved on, unless it idles. -/
theorem Sound.move_split {before after : List Entrant} {e : Entrant}
    (h : Sound s start c (before ++ e :: after)) :
    (Sound s start (c.stir s (.move before.length)) (before ++ e :: after) ∧
        c.pool.Idles before e) ∨
      ∃ phase, phase.rank < e.phase.rank ∧
        Sound s start (c.stir s (.move before.length)) (before ++ e.at phase :: after) := by
  have hentrant : (before ++ e :: after)[before.length]? = some e := by
    rw [List.getElem?_append_right (Nat.le_refl _), Nat.sub_self]
    rfl
  have hmade : c.made[before.length]? = some e.made := by
    rw [h.made, List.getElem?_map, hentrant]
    rfl
  have hreads : (c.pool.tasks[before.length]?.any Task.isReading).toNat = e.isReading.toNat := by
    rw [h.tasks, List.getElem?_map, hentrant, ← e.isReading_task]
    rfl
  let pool := c.poolMeeting e.made.faults e.made.time
  have htogether : Together s start pool.world (before ++ e :: after) pool.holder.isSome :=
    h.together.meeting e.made.faults e.made.time
  have hstir : c.stir s (.move before.length) =
      ⟨pool.resume s before.length, c.made, c.reads + e.isReading.toNat⟩ := by
    rw [stir, hmade]
    dsimp only
    rw [hreads]
  rw [hstir]
  obtain ⟨hpool, hidles⟩ | ⟨x, holder, hstep, hpool⟩ :=
    Pool.resume_cases s (p := pool) h.tasks
  · have hidle : e.isReading = false := by
      rw [Entrant.isReading]
      obtain hended | ⟨hqueued, -⟩ := hidles
      · cases hp : e.phase <;> simp [hp] at hended ⊢
      · cases hp : e.phase <;> simp [hp] at hqueued ⊢
    rw [hpool, hidle]
    exact .inl ⟨⟨h.tasks, h.made, htogether, h.reads⟩, hidles⟩
  · have hmet : pool.world.metBy e.made = pool.world := World.meeting_meeting _ _ _
    rw [hpool]
    refine .inr ⟨x.2, hstep.rank_lt, rfl, ?_, htogether.step hmet hstep, fun hnone => ?_⟩
    · rw [h.made]
      simp [Entrant.at]
    · have hbefore := h.reads hnone
      have hload : e.made.call ≠ .load := hnone e.made (by rw [h.made]; simp)
      have hworld : pool.world.game.loaded = c.pool.world.game.loaded := rfl
      rw [hstep.loaded, hworld]
      show c.reads + e.phase.isReading.toNat + _ = _
      cases hreading : e.phase.isReading with
      | false => simpa using hbefore
      | true =>
          rw [h.unread (by simp) hreading hload] at hbefore ⊢
          exact hbefore

/-- A call is moved on. -/
theorem Sound.move (h : Sound s start c es) (i : Nat) :
    ∃ later, Sound s start (c.stir s (.move i)) later := by
  cases hmade : c.made[i]? with
  | none =>
      rw [stir, hmade]
      exact ⟨es, h⟩
  | some m =>
      rw [h.made, List.getElem?_map, Option.map_eq_some_iff] at hmade
      obtain ⟨e, he, -⟩ := hmade
      obtain ⟨before, after, rfl, rfl⟩ := split_of_getElem? he
      obtain ⟨hsame, -⟩ | ⟨phase, -, hlater⟩ := h.move_split
      · exact ⟨_, hsame⟩
      · exact ⟨_, hlater⟩

theorem Sound.afterAll (h : Sound s start c es) (hstart : start.game.busy = false)
    (stirs : List Stir) : ∃ later, Sound s start (c.afterAll s stirs) later := by
  induction stirs generalizing c es with
  | nil => exact ⟨es, h⟩
  | cons stir stirs ih =>
      cases stir with
      | make call faults time =>
          obtain ⟨later, hlater⟩ := h.make hstart call faults time
          exact ih hlater
      | move i =>
          obtain ⟨later, hlater⟩ := h.move i
          exact ih hlater

/-! ## what follows from it -/

/-- A call that waits is one of those made, and it was let in. -/
theorem Sound.accepted (h : Sound s start c es) {i : Nat} {call : Call} {phase : Phase}
    {next : Game → Result → Job Result}
    (htask : c.pool.tasks[i]? = some (.waiting call phase next)) :
    ∃ m, c.made[i]? = some m ∧ m.call = call ∧ m.accepted = true := by
  rw [h.tasks, List.getElem?_map, Option.map_eq_some_iff] at htask
  obtain ⟨e, he, hwaiting⟩ := htask
  obtain ⟨rfl, hphase⟩ := Entrant.task_waiting hwaiting
  refine ⟨e.made, ?_, rfl, (h.together.fits e (List.mem_of_getElem? he)).accepted hphase.2⟩
  rw [h.made, List.getElem?_map, he]
  rfl

/-- The flag is up for the one exclusive call that is under way. -/
theorem Sound.countP_isEngaged (h : Sound s start c es) :
    c.pool.tasks.countP Task.isEngaged = c.pool.world.game.busy.toNat := by
  rw [h.tasks, List.countP_map, ← h.together.engaged]
  exact List.countP_congr fun e _ => by simp [Entrant.isEngaged_task]

theorem Sound.countP_isReading (h : Sound s start c es) :
    c.pool.tasks.countP Task.isReading = es.countP Entrant.isReading := by
  rw [h.tasks, List.countP_map]
  exact List.countP_congr fun e _ => by simp [Entrant.isReading_task]

/-- A call that is not let in leaves all others alone. -/
theorem Sound.refused (h : Sound s start c es) {call : Call} (faults : Faults) (time : DateTime)
    (hcall : call.isExclusive = true) (hbusy : c.pool.world.game.busy = true) :
    c.stir s (.make call faults time) =
      ⟨⟨c.pool.world.meeting faults time, c.pool.tasks ++ [.ended (.error .busy)],
        c.pool.holder⟩, c.made ++ [⟨call, faults, time, false⟩], c.reads⟩ := by
  have hrefused : (call.isExclusive && c.pool.world.game.busy) = true := by rw [hcall, hbusy]; rfl
  have hpool := Pool.start_of_busy s (m := ⟨call, faults, time, false⟩)
    (p := c.poolMeeting faults time) h.tasks hrefused
  rw [List.map_append, ← h.tasks] at hpool
  rw [stir, hrefused]
  exact congrArg (Crowd.mk · (c.made ++ [⟨call, faults, time, false⟩]) c.reads) hpool

/-- Calls that have ended have come to what they come to in turn. -/
theorem Sound.inTurn (h : Sound s start c es)
    (hended : ∀ task ∈ c.pool.tasks, task.answer?.isSome = true) :
    c.pool.tasks = (start.inTurn s c.made).2.map Task.ended ∧
      c.pool.world.Alike (start.inTurn s c.made).1 := by
  have hphase (e : Entrant) (he : e ∈ es) : ∃ result, e.phase = .ended result := by
    have htask := hended e.task (by rw [h.tasks]; exact List.mem_map_of_mem he)
    unfold Entrant.task at htask
    cases hp : e.phase with
    | ended result => exact ⟨result, rfl⟩
    | _ => rw [hp] at htask; contradiction
  have hall := World.matches_finishAll_of_idle (s := s) (w := c.pool.world)
    (fun e he => .inl (hphase e he)) (.inr fun e he => by
      obtain ⟨_, hresult⟩ := hphase e he
      rw [hresult]
      rfl)
  have hcomes := hall.symm.trans h.together.comes
  rw [← h.made] at hcomes
  refine ⟨?_, hcomes.1⟩
  rw [h.tasks, ← hcomes.2, List.map_map]
  refine List.map_congr_left fun e he => ?_
  obtain ⟨result, hresult⟩ := hphase e he
  simp [Entrant.task, Entrant.answer, hresult]

/-- As long as calls are under way, one of them can be moved on. -/
theorem Sound.exists_move (h : Sound s start c es) (hwaits : ∃ e ∈ es, e.phase.isEnded = false) :
    ∃ i later, Sound s start (c.stir s (.move i)) later ∧
      (later.map (·.phase.rank)).sum < (es.map (·.phase.rank)).sum := by
  have hnearer {before after : List Entrant} {e : Entrant}
      (h : Sound s start c (before ++ e :: after)) (hidles : ¬c.pool.Idles before e) :
      ∃ i later, Sound s start (c.stir s (.move i)) later ∧ (later.map (·.phase.rank)).sum <
        ((before ++ e :: after).map (·.phase.rank)).sum := by
    obtain ⟨-, hidle⟩ | ⟨phase, hrank, hlater⟩ := h.move_split
    · exact absurd hidle hidles
    · refine ⟨before.length, _, hlater, ?_⟩
      simp [Entrant.at]
      omega
  by_cases hstore : ∃ e ∈ es, e.phase.isEnded = false ∧ e.phase.isQueued = false
  · -- the store answers
    obtain ⟨e, he, hended, hqueued⟩ := hstore
    obtain ⟨before, after, rfl⟩ := List.append_of_mem he
    refine hnearer h ?_
    rintro (hend | ⟨hqueue, -⟩)
    · exact absurd (hended.symm.trans hend) (by decide)
    · exact absurd (hqueued.symm.trans hqueue) (by decide)
  · -- nobody reads, so the first in line has its turn
    push Not at hstore
    obtain ⟨d, hd, hdwaits⟩ := hwaits
    have hdqueued : d.phase.isQueued = true := by simpa using hstore d hd hdwaits
    cases hfind : es.find? (·.phase.isQueued) with
    | none => exact absurd hdqueued (List.find?_eq_none.1 hfind d hd)
    | some e =>
        obtain ⟨hqueued, before, after, rfl, hfirst⟩ := List.find?_eq_some_iff_append.1 hfind
        have hfree : c.pool.holder.isSome = false := by
          have hnone : (before ++ e :: after).countP Entrant.isReading = 0 := by
            refine List.countP_eq_zero.2 fun a ha hreading => ?_
            have hqueued := hstore a ha
            rw [Entrant.isReading] at hreading
            cases hp : a.phase <;> simp [hp] at hreading hqueued
          rw [h.together.reading] at hnone
          exact Bool.toNat_eq_zero.1 hnone
        refine hnearer h ?_
        rintro (hend | ⟨-, hheld | ⟨a, ha, haqueued⟩⟩)
        · cases hp : e.phase <;> simp [hp] at hend hqueued
        · exact absurd (hfree.symm.trans hheld) (by decide)
        · have hnot := hfirst a ha
          rw [haqueued] at hnot
          contradiction

/-- The store has been asked once at most, unless a call was made to read again. -/
theorem Sound.reads_le (h : Sound s start c es) (hnone : ∀ m ∈ c.made, m.call ≠ .load) :
    c.reads + c.pool.tasks.countP Task.isReading ≤ (!start.game.loaded).toNat := by
  have hreads := h.reads hnone
  have hreading := h.together.reading
  have hone := Bool.toNat_le c.pool.holder.isSome
  rw [h.countP_isReading]
  by_cases hidle : es.countP Entrant.isReading = 0
  · omega
  · obtain ⟨e, he, her⟩ := List.countP_pos_iff.1 (Nat.pos_of_ne_zero hidle)
    have hcall : e.made.call ≠ .load :=
      hnone e.made (by rw [h.made]; exact List.mem_map_of_mem he)
    rw [h.unread he her hcall, Bool.not_false, Bool.toNat_true] at hreads
    omega

/-- All calls can be brought to their end. -/
theorem Sound.exists_end (h : Sound s start c es) :
    ∃ moves : List Nat,
      ∀ task ∈ (c.afterAll s (moves.map Stir.move)).pool.tasks, task.answer?.isSome = true := by
  induction hrank : (es.map (·.phase.rank)).sum using Nat.strongRecOn generalizing c es with
  | ind rank ih =>
      by_cases hwaits : ∃ e ∈ es, e.phase.isEnded = false
      · obtain ⟨i, later, hlater, hless⟩ := h.exists_move hwaits
        rw [hrank] at hless
        obtain ⟨moves, hmoves⟩ := ih _ hless hlater rfl
        exact ⟨i :: moves, hmoves⟩
      · refine ⟨[], fun task htask => ?_⟩
        rw [List.map_nil, Crowd.afterAll, List.foldl_nil, h.tasks] at htask
        obtain ⟨e, he, rfl⟩ := List.mem_map.1 htask
        have hended : e.phase.isEnded = true := by
          by_contra hnot
          exact hwaits ⟨e, he, Bool.eq_false_iff.2 hnot⟩
        unfold Entrant.task
        cases hp : e.phase <;> simp [hp] at hended
        rfl

end Crowd

/-! ## the whole of it -/

/-- Calls on one session that was idle, whatever the order of their steps, each with the time and
the order of the store that it meets.  At any time

* the busy flag is up if and only if an exclusive call is under way, of which there is never more
  than one, and every call that waits is one that was let in;
* an exclusive call that is made then, with the flag up, is answered that the session is busy, and
  changes neither the game nor the draws nor what is stored nor any other call;
* if all calls have ended, then game, draws, blobs and every answer are those of the calls made one
  after the other, in the order in which they were let in; and moving them on can bring all calls to
  their end;
* unless progress has been asked to be read again, the store has been asked once at most, and not
  at all by a session that had read it;
* if a call is reading that was not asked to read again, then nothing has happened to the session
  that its read could replace. -/
theorem calls_come_to_turns (s : Setup) {w : World} (hidle : w.game.busy = false)
    (stirs : List Stir) :
    let c := (Crowd.ofWorld w).afterAll s stirs
    (c.pool.tasks.countP Task.isEngaged = c.pool.world.game.busy.toNat ∧
        ∀ (i : Nat) call phase next, c.pool.tasks[i]? = some (.waiting call phase next) →
          ∃ m, c.made[i]? = some m ∧ m.call = call ∧ m.accepted = true) ∧
      (∀ call faults time, call.isExclusive = true → c.pool.world.game.busy = true →
        let d := c.stir s (.make call faults time)
        d.made = c.made ++ [⟨call, faults, time, false⟩] ∧
          d.pool.tasks = c.pool.tasks ++ [.ended (.error .busy)] ∧
          d.pool.world.Alike c.pool.world) ∧
      ((∀ task ∈ c.pool.tasks, task.answer?.isSome = true) →
        c.pool.tasks = (w.inTurn s c.made).2.map Task.ended ∧
          c.pool.world.Alike (w.inTurn s c.made).1) ∧
      (∃ moves : List Nat,
        ∀ task ∈ (c.afterAll s (moves.map Stir.move)).pool.tasks, task.answer?.isSome = true) ∧
      ((∀ m ∈ c.made, m.call ≠ .load) →
        c.reads + c.pool.tasks.countP Task.isReading ≤ (!w.game.loaded).toNat) ∧
      (∀ (i : Nat) call next,
        c.pool.tasks[i]? = some (.waiting call .reading next) → call ≠ .load →
        c.pool.world.game.loaded = false ∧ (c.pool.world.setBusy false).Alike w) := by
  intro c
  obtain ⟨es, h⟩ := (Crowd.sound_ofWorld s hidle).afterAll hidle stirs
  change Crowd.Sound s w c es at h
  refine ⟨⟨h.countP_isEngaged, fun i call phase next htask => h.accepted htask⟩,
    fun call faults time hcall hbusy => ?_, h.inTurn, h.exists_end, h.reads_le,
    fun i call next htask hcall => ?_⟩
  · intro d
    have hd : d = _ := h.refused faults time hcall hbusy
    rw [hd]
    exact ⟨rfl, rfl, World.alike_meeting _ _ _⟩
  · rw [h.tasks, List.getElem?_map, Option.map_eq_some_iff] at htask
    obtain ⟨e, he, hwaiting⟩ := htask
    obtain ⟨rfl, hphase, -⟩ := Entrant.task_waiting hwaiting
    have hreading : e.isReading = true := by rw [Entrant.isReading, hphase]; rfl
    have hunread := h.unread (List.mem_of_getElem? he) hreading hcall
    exact ⟨hunread, h.together.unread hunread⟩

/-! ## three calls at once -/

/-- A flip, another one while it reads, and a call that makes sure of saved progress meanwhile; then
the store answers the flip, the last call finds progress read, and the store answers again. -/
def threeAtOnce : List Stir :=
  [.make (.flip doublingFlip) {} firstOfMay, .make (.flip doublingFlip) {} firstOfMay,
    .make .ensureLoaded {} firstOfMay, .move 0, .move 2, .move 0]

/-- They come to one flip, and to one read. -/
theorem calls_come_to_turns_threeAtOnce :
    let c := (Crowd.ofWorld doublingStart).afterAll doublingSetup threeAtOnce
    c.made.map (·.accepted) = [true, false, true] ∧ c.reads = 1 ∧
      c.pool.world.game.progress.totalFlips = 1 ∧
      c.pool.tasks = (doublingStart.inTurn doublingSetup c.made).2.map Task.ended ∧
      c.pool.world.Alike (doublingStart.inTurn doublingSetup c.made).1 := by
  intro c
  have hended : ∀ task ∈ c.pool.tasks, task.answer?.isSome = true := by decide +kernel
  obtain ⟨-, -, hturns, -⟩ := calls_come_to_turns doublingSetup (w := doublingStart) rfl threeAtOnce
  exact ⟨by decide +kernel, by decide +kernel, by decide +kernel, hturns hended⟩

end CoinToss
