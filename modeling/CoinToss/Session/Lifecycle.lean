import CoinToss.Session.Play

/-!
# CoinToss.Session.Lifecycle

The life of a call, alone and among others.

A call may wait at three places: for its turn to read saved progress, for the store to read, and
for the store to write.  An exclusive call raises the busy flag when it starts and lowers it when
it ends, whatever it comes to; while the flag is up no other exclusive call is let in.

A job makes calls one after the other and answers in the end.

* `World.run`, `Job.run` — a call and a job that nothing interrupts;
* `Pool.start`, `Pool.resume` — jobs under way together, each moved on by one step at a time;
* `Pool.serve` — what happens when the store answers one of them;
* `Job.run_ofCall` — the job of making a call comes to what the call comes to.
-/

namespace CoinToss

/-! ## the steps of a call -/

/-- Where a call stands. -/
inductive Phase where
  /-- Waits for its turn to read. -/
  | queued
  /-- Waits for the store to read. -/
  | reading
  /-- Waits for the store to write. -/
  | saving (snapshot : Progress) (reply : Reply)
  | ended (result : Result)

/-- Whether a call waits for the store. -/
def Phase.awaitsStore : Phase → Bool
  | .reading | .saving _ _ => true
  | _ => false

namespace World

/-- Lets a call in. -/
def enter (w : World) (call : Call) : World :=
  if call.isExclusive then w.setBusy true else w

/-- Lets a call go. -/
def leave (w : World) (call : Call) : World :=
  if call.isExclusive then w.setBusy false else w

/-- Reads saved progress. -/
def readIn (s : Setup) (w : World) : World :=
  let (p, records) := loadProgress w.store s.key
  { w with game := { w.game with progress := p, loaded := true } }.tell <|
    records ++ [Log.record Log.info "session"
      ("Progress loaded: " ++ Decimal.intText p.totalFlips ++ " flips, " ++
        toString p.stamps.size ++ " unlocks")]

/-- Acts, saved progress having been read. -/
def proceed (s : Setup) (w : World) (call : Call) : World × Phase :=
  match w.act s call with
  | (w, .done result) => (w.leave call, .ended result)
  | (w, .save reply) => (w, .saving w.game.progress reply)

/-- Saves a snapshot and ends the call. -/
def commit (s : Setup) (w : World) (call : Call) (snapshot : Progress) (reply : Reply) :
    World × Result :=
  match saveProgress? w.store s.key snapshot with
  | none => (w.leave call, .error .unstorable)
  | some saving =>
    let w := { w with store := saving.store }.tell saving.records
    let reply := reply.withSaved saving.saved
    let w :=
      match reply with
      | .flipped o => w.tell [o.record w.game.progress.totalFlips]
      | _ => w
    (w.leave call, .ok reply)

/-- Starts a call and moves it on to where it has to wait. -/
def start (s : Setup) (w : World) (call : Call) : World × Phase :=
  if call.isExclusive && w.game.busy then (w, .ended (.error .busy))
  else
    let w := w.enter call
    if call.needsRead w.game then (w, .queued) else w.proceed s call

/-- Moves a call on through the store to its end. -/
def finish (s : Setup) (call : Call) : World × Phase → World × Result
  | (w, .saving snapshot reply) => w.commit s call snapshot reply
  | (w, .ended result) => (w, result)
  | (w, .queued) | (w, .reading) => (w.leave call, .ok .nothing)

/-- A call that nothing interrupts. -/
def run (s : Setup) (w : World) (call : Call) : World × Result :=
  match w.start s call with
  | (w, .queued) => finish s call ((w.readIn s).proceed s call)
  | stopped => finish s call stopped

end World

/-! ## jobs -/

/-- What somebody wants of a session: calls, one after the other, and an answer. -/
inductive Job (α : Type) where
  /-- Logs records and answers. -/
  | answer (records : List Log.Record) (a : α)
  /-- Makes a call.  What follows depends on the game then and on what the call has come to. -/
  | call (call : Call) (next : Game → Result → Job α)

namespace Job

variable {α β : Type}

/-- The job of making one call. -/
def ofCall (c : Call) : Job Result := .call c fun _ result => .answer [] result

/-- Changes the answer. -/
def map (f : α → β) : Job α → Job β
  | .answer records a => .answer records (f a)
  | .call c next => .call c fun g result => (next g result).map f

/-- A job that nothing interrupts. -/
def run (s : Setup) : Job α → World → World × α
  | .answer records a, w => (w.tell records, a)
  | .call c next, w =>
    let (w, result) := w.run s c
    (next w.game result).run s w

end Job

/-- A job under way. -/
inductive Task (α : Type) where
  /-- A call of the job has to wait. -/
  | waiting (call : Call) (phase : Phase) (next : Game → Result → Job α)
  | ended (a : α)

namespace Task

variable {α : Type}

/-- Whether a job waits for the store. -/
def awaitsStore : Task α → Bool
  | .waiting _ phase _ => phase.awaitsStore
  | .ended _ => false

/-- Whether a job waits for its turn to read. -/
def awaitsTurn : Task α → Bool
  | .waiting _ .queued _ => true
  | _ => false

/-- The answer of a job, if it has ended. -/
def answer? : Task α → Option α
  | .ended a => some a
  | .waiting _ _ _ => none

end Task

/-- Moves a job on to where it has to wait. -/
def Job.advance {α : Type} (s : Setup) : Job α → World → World × Task α
  | .answer records a, w => (w.tell records, .ended a)
  | .call c next, w =>
    match w.start s c with
    | (w, .ended result) => (next w.game result).advance s w
    | (w, phase) => (w, .waiting c phase next)

/-- What becomes of a job when its call has moved on. -/
def Task.follow {α : Type} (s : Setup) (call : Call) (next : Game → Result → Job α) :
    World × Phase → World × Task α
  | (w, .ended result) => (next w.game result).advance s w
  | (w, phase) => (w, .waiting call phase next)

/-! ## jobs together -/

/-- Jobs under way together.  At most one of them, the holder, may be reading. -/
structure Pool (α : Type) where
  world : World
  tasks : List (Task α)
  holder : Option Nat

namespace Pool

variable {α : Type}

/-- No jobs. -/
def ofWorld (w : World) : Pool α := ⟨w, [], none⟩

/-- The first job that waits for its turn to read. -/
def firstQueued (pool : Pool α) : Option Nat := pool.tasks.findIdx? Task.awaitsTurn

/-- The jobs with the one at a place moved on. -/
def put (pool : Pool α) (i : Nat) (moved : World × Task α) : Pool α :=
  { pool with world := moved.1, tasks := pool.tasks.modify i fun _ => moved.2 }

/-- Gives a job its turn: it reads, unless that has been done meanwhile. -/
def grant (s : Setup) (pool : Pool α) (i : Nat) (call : Call) (next : Game → Result → Job α) :
    Pool α :=
  if call.needsRead pool.world.game then
    { pool.put i (pool.world, .waiting call .reading next) with holder := some i }
  else pool.put i (Task.follow s call next (pool.world.proceed s call))

/-- Moves a job on by one step: the store answers it, or it gets its turn to read. -/
def resume (s : Setup) (pool : Pool α) (i : Nat) : Pool α :=
  match pool.tasks[i]? with
  | some (.waiting call .queued next) =>
    if pool.holder.isNone && pool.firstQueued == some i then pool.grant s i call next else pool
  | some (.waiting call .reading next) =>
    { pool.put i (Task.follow s call next ((pool.world.readIn s).proceed s call)) with
      holder := none }
  | some (.waiting call (.saving snapshot reply) next) =>
    let (w, result) := pool.world.commit s call snapshot reply
    pool.put i ((next w.game result).advance s w)
  | some (.waiting call (.ended result) next) =>
    pool.put i (Task.follow s call next (pool.world, .ended result))
  | some (.ended _) | none => pool

/-- Starts a job; it has its turn to read at once if nobody else is reading or waiting. -/
def start (s : Setup) (pool : Pool α) (job : Job α) : Pool α :=
  let (w, task) := job.advance s pool.world
  let started : Pool α := { pool with world := w, tasks := pool.tasks ++ [task] }
  if task.awaitsTurn then started.resume s pool.tasks.length else started

/-- Whether the job at a place waits for the store. -/
def awaitsStore (pool : Pool α) (i : Nat) : Bool := pool.tasks[i]?.any Task.awaitsStore

/-- A place, if the job there waits for the store. -/
def linedUp (pool : Pool α) (i : Nat) : List Nat := if pool.awaitsStore i then [i] else []

/-- Gives the jobs that wait for their turn to read that turn, as far as it goes, and tells the
places of those that wait for the store then. -/
def grantTurns (s : Setup) : Nat → Pool α → Pool α × List Nat
  | 0, pool => (pool, [])
  | fuel + 1, pool =>
    match pool.holder, pool.firstQueued with
    | none, some i =>
      let granted := pool.resume s i
      let (pool, places) := grantTurns s fuel granted
      (pool, granted.linedUp i ++ places)
    | _, _ => (pool, [])

/-- Lets the store answer the job at a place, and tells the places of the jobs that wait for the
store because of that. -/
def serve (s : Setup) (pool : Pool α) (i : Nat) : Pool α × List Nat :=
  let served := pool.resume s i
  let (pool, places) := grantTurns s served.tasks.length served
  (pool, served.linedUp i ++ places)

/-- The places of the jobs that wait for the store, in order. -/
def storeLine (pool : Pool α) : List Nat :=
  (List.range pool.tasks.length).filter pool.awaitsStore

/-- The answer of a job, if it has ended. -/
def answer? (pool : Pool α) (i : Nat) : Option α := pool.tasks[i]?.bind Task.answer?

end Pool

/-! ## laws -/

theorem World.tell_nil (w : World) : w.tell [] = w := by simp [World.tell]

/-- The job of making a call comes to what the call comes to. -/
theorem Job.run_ofCall (s : Setup) (c : Call) (w : World) :
    (Job.ofCall c).run s w = w.run s c := by
  simp [Job.ofCall, Job.run, World.tell_nil]

/-- Changing the answer changes nothing else. -/
theorem Job.run_map {α β : Type} (s : Setup) (f : α → β) (job : Job α) (w : World) :
    (job.map f).run s w = ((job.run s w).1, f (job.run s w).2) := by
  induction job generalizing w with
  | answer => rfl
  | call c next ih => exact ih _ _ _

end CoinToss
