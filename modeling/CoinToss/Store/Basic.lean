import CoinToss.Log.Record
import CoinToss.Paths.Tally

/-!
# CoinToss.Store.Basic

Stores: one blob of bytes under each key.

A store keeps its blobs in memory or in a table of texts.  Reading, writing and deleting may each
be out of order; such an access reports its fault and leaves the blobs as they are.

* `read_write_self`, `read_write_of_ne` — what a write does to later reads;
-/

namespace CoinToss

/-- Where a store keeps its blobs. -/
inductive Backend where
  | memory
  /-- A table of texts: bytes that are no text are refused. -/
  | table
  deriving DecidableEq, Repr

/-- What is out of order, and what is reported then. -/
structure Faults where
  read : Option String := none
  write : Option String := none
  delete : Option String := none

/-- A store with its blobs by key. -/
structure Store where
  backend : Backend
  blobs : Tally ByteArray
  faults : Faults

/-- Why a store refuses an access. -/
inductive StoreFault where
  /-- The store is out of order. -/
  | outOfOrder (message : String)
  /-- The bytes are no text. -/
  | notText

namespace Store

/-- A store without blobs. -/
def empty (backend : Backend) : Store := ⟨backend, .empty, {}⟩

/-- A store of which something is out of order. -/
def broken (faults : Faults) : Store := ⟨.memory, .empty, faults⟩

/-- The blob under a key. -/
def read (s : Store) (key : String) : Except StoreFault (Option ByteArray) :=
  match s.faults.read with
  | some message => .error (.outOfOrder message)
  | none => .ok (s.blobs.get? key)

/-- Whether the bytes may be kept. -/
def accepts (s : Store) (bytes : ByteArray) : Bool :=
  s.backend == .memory || (String.fromUTF8? bytes).isSome

/-- Puts a blob under a key. -/
def write (s : Store) (key : String) (bytes : ByteArray) : Except StoreFault Store :=
  if !s.accepts bytes then .error .notText
  else
    match s.faults.write with
    | some message => .error (.outOfOrder message)
    | none => .ok { s with blobs := s.blobs.insert key bytes }

/-- Removes the blob under a key, if there is one. -/
def delete (s : Store) (key : String) : Except StoreFault Store :=
  match s.faults.delete with
  | some message => .error (.outOfOrder message)
  | none => .ok { s with blobs := .ofList (s.blobs.entries.filter (·.1 != key)) }

/-- The table of the store, if it keeps one, is gone: every access fails from now on. -/
def loseTable (s : Store) : Store :=
  match s.backend with
  | .memory => s
  | .table =>
    { s with
      faults :=
        { read := some "Could not read progress: no such table: progress"
          write := some "Could not write progress: no such table: progress"
          delete := some "Could not delete progress: no such table: progress" } }

/-! ## opening -/

/-- Where a table store is to be kept. -/
inductive Place where
  | writable (path : String)
  | blocked

/-- Opens a store of a named backend.  Without a place, or where the place cannot be written,
blobs are kept in memory. -/
def openAt (backend : String) (place : Option Place) : Store × List Log.Record :=
  match place with
  | none => (empty .memory, [])
  | some place =>
    if backend = "memory" then (empty .memory, [])
    else
      match place with
      | .writable path =>
        (empty .table,
          [Log.record Log.info "storage" s!"Initializing progress store at {path}"])
      | .blocked =>
        (empty .memory, [Log.record Log.error "storage" "Could not initialize progress store"])

/-! ## laws -/

/-- A write that succeeds is read back. -/
theorem read_write_self {s t : Store} {key : String} {bytes : ByteArray}
    (h : s.write key bytes = .ok t) (hr : s.faults.read = none) :
    t.read key = .ok (some bytes) := by
  unfold write at h
  split at h
  · cases h
  · split at h
    · cases h
    · cases h; simp [read, hr]

/-- A write leaves other keys alone. -/
theorem read_write_of_ne {s t : Store} {key other : String} {bytes : ByteArray}
    (h : s.write key bytes = .ok t) (hne : other ≠ key) : t.read other = s.read other := by
  unfold write at h
  split at h
  · cases h
  · split at h
    · cases h
    · cases h; simp [read, s.blobs.get?_insert_of_ne bytes hne]

end Store

end CoinToss
