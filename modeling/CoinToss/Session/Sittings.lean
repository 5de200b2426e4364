import CoinToss.Session.Lifecycle

/-!
# CoinToss.Session.Sittings

Sessions that follow one another on one store, their jobs under way together.

A new session starts a game of its own, and so do its turns to read.  The jobs of earlier sessions
go on with the games they were started on; store, draws, clock and log are shared by all.  The
store answers whoever has waited longest.

* `Sittings.start`, `Sittings.renew` — jobs and sessions are started before the store answers;
* `Sittings.settle` — the store answers until all jobs have ended;
* `game_within` — a job of an earlier session does not touch the current game.
-/

namespace CoinToss

/-- Sessions that follow one another, the current one apart. -/
structure Sittings (α : Type) where
  past : List (Pool α) := []
  current : Pool α

/-- A job: the number of its session and its place there. -/
structure Seat where
  session : Nat
  place : Nat
  deriving DecidableEq, Repr

namespace Sittings

variable {α β : Type}

/-- One session without jobs. -/
def ofWorld (w : World) : Sittings α := { current := .ofWorld w }

/-- The world, with the game of the current session. -/
def world (st : Sittings α) : World := st.current.world

/-- The world changed by something that is no job. -/
def withWorld (st : Sittings α) (w : World) : Sittings α :=
  { st with current := { st.current with world := w } }

/-- A new session. -/
def renew (st : Sittings α) : Sittings α :=
  { past := st.past ++ [st.current], current := .ofWorld st.world.restart }

/-- Starts a job in the current session. -/
def start (s : Setup) (st : Sittings α) (job : Job α) : Sittings α :=
  { st with current := st.current.start s job }

/-- The seat of the job that was started last. -/
def lastSeat (st : Sittings α) : Seat := ⟨st.past.length, st.current.tasks.length - 1⟩

/-- Something done in one of the sessions, on the world that they share. -/
def within (st : Sittings α) (session : Nat) (act : Pool α → Pool α × β) : Sittings α × β :=
  match st.past[session]? with
  | none =>
    let (pool, b) := act st.current
    ({ st with current := pool }, b)
  | some pool =>
    let (pool, b) := act { pool with world := { st.world with game := pool.world.game } }
    ({ past := st.past.set session pool
       current := { st.current with world := { pool.world with game := st.world.game } } }, b)

/-- The seats of the jobs that wait for the store, in order. -/
def storeLine (st : Sittings α) : List Seat :=
  (st.past ++ [st.current]).zipIdx.flatMap fun (pool, session) =>
    pool.storeLine.map fun place => ⟨session, place⟩

/-- Lets the store answer the jobs of a line in turn. -/
def serve (s : Setup) : Nat → Sittings α → List Seat → Sittings α
  | 0, st, _ => st
  | _ + 1, st, [] => st
  | fuel + 1, st, seat :: line =>
    let (st, places) := st.within seat.session fun pool => pool.serve s seat.place
    serve s fuel st (line ++ places.map fun place => ⟨seat.session, place⟩)

/-- How many jobs there are. -/
def size (st : Sittings α) : Nat :=
  ((st.past ++ [st.current]).flatMap fun pool => pool.tasks).length

/-- Lets the store answer until all jobs have ended, if each asks it four times at most, as two
calls do. -/
def settle (s : Setup) (st : Sittings α) : Sittings α :=
  serve s (4 * st.size + 1) st st.storeLine

/-- The answer of a job, if it has ended. -/
def answer? (st : Sittings α) (seat : Seat) : Option α :=
  ((st.past ++ [st.current])[seat.session]?).bind fun pool => pool.answer? seat.place

/-! ## laws -/

/-- A job of an earlier session does not touch the current game. -/
theorem game_within {st : Sittings α} {session : Nat} (h : session < st.past.length)
    (act : Pool α → Pool α × β) : (st.within session act).1.world.game = st.world.game := by
  simp [within, world, h]

end Sittings

end CoinToss
