import CoinToss.Progress.Codec
import CoinToss.Store.Basic

/-!
# CoinToss.Store.Saved

Progress in a store.

Loading never fails: where there is nothing to load, the player starts afresh and the log tells
why.  Saving tells whether it succeeded; only progress with integers beyond 64 bits cannot be
written at all.
-/

namespace CoinToss

/-- A record of the store's log. -/
def storeRecord (level : Log.Level) (message : String) : Log.Record :=
  Log.record level "storage" message

/-- The message of a store out of order. -/
def StoreFault.message : StoreFault → String
  | .outOfOrder message => message
  | .notText => "invalid text"

/-- Loads the progress under a key; empty progress where there is none. -/
def loadProgress (store : Option Store) (key : String) : Progress × List Log.Record :=
  match store with
  | none => (.empty, [])
  | some s =>
    match s.read key with
    | .error fault =>
      (.empty, [storeRecord Log.error ("Error loading progress: " ++ fault.message)])
    | .ok none =>
      (.empty, [storeRecord Log.info s!"No saved progress under '{key}', starting fresh"])
    | .ok (some bytes) =>
      match Progress.ofBytes bytes with
      | .ok p => (p, [])
      | .error _ =>
        (.empty,
          [storeRecord Log.error s!"Saved progress under '{key}' is corrupt, starting fresh"])

/-- What saving has come to. -/
structure Saving where
  store : Option Store
  saved : Bool
  records : List Log.Record

/-- Saves progress under a key; `none` if it cannot be written as text. -/
def saveProgress? (store : Option Store) (key : String) (p : Progress) : Option Saving :=
  match store with
  | none => some ⟨none, false, []⟩
  | some s =>
    p.text?.map fun text =>
      match s.write key text.toUTF8 with
      | .ok s => ⟨some s, true, []⟩
      | .error fault =>
        ⟨some s, false, [storeRecord Log.error ("Error saving progress: " ++ fault.message)]⟩

end CoinToss
