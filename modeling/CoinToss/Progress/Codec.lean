import CoinToss.Json.Printer
import CoinToss.Progress.Basic
import CoinToss.Schema.Reading

/-!
# CoinToss.Progress.Codec

Progress as JSON.

Sets are written as their ascending lists and moments in their written form.  The text holds
integers of 64 bits only; progress beyond them cannot be written.

* `Progress.toJson`, `Progress.ofJson` — the value;
* `Progress.text?`, `Progress.ofText` — the stored text.
-/

namespace CoinToss

open Schema

namespace Progress

/-! ## writing -/

/-- A tally as an object. -/
def tallyJson {V : Type} (write : V → Json) (t : Tally V) : Json :=
  .object (t.entries.map fun e => (e.1, write e.2))

/-- A set as a list. -/
def setJson (s : PathSet) : Json := .strings s.toList

/-- Progress as JSON. -/
def toJson (p : Progress) : Json :=
  .object [("totalFlips", .int p.totalFlips), ("headsFlips", .int p.headsFlips),
    ("tailsFlips", .int p.tailsFlips), ("longestStreak", .int p.longestStreak),
    ("longestHeadsStreak", .int p.longestHeads), ("longestTailsStreak", .int p.longestTails),
    ("coinLandCounts", tallyJson .int p.landings),
    ("randomUnlockedCoins", setJson p.randomUnlocks),
    ("coinUnlockTimestamps", tallyJson (fun t => .string t.text) p.stamps),
    ("notificationShownFor", setJson p.notified),
    ("characteristicConsecutiveCounts", tallyJson .int p.runs)]

/-- The integers in progress. -/
def integers (p : Progress) : List Int :=
  [p.totalFlips, p.headsFlips, p.tailsFlips, p.longestStreak, p.longestHeads, p.longestTails] ++
    p.landings.entries.map (·.2) ++ p.runs.entries.map (·.2)

/-- Whether every integer fits 64 bits. -/
def isStorable (p : Progress) : Bool := p.integers.all Json.fits64

/-- The stored text; none for integers beyond 64 bits. -/
def text? (p : Progress) : Option String :=
  if p.isStorable then some (Json.print .compact p.toJson) else none

/-! ## reading -/

/-- The members of progress; a missing one is empty or zero. -/
def ofMembers (ms : Json.Members) : Checked Progress :=
  let counts (key : String) := Tally.ofList <$> field (.camel key) (dictionary int) [] ms
  let paths (key : String) := PathSet.ofList <$> field (.camel key) (list .setType string) [] ms
  Progress.mk
    <$> field (.camel "totalFlips") int 0 ms
    <*> field (.camel "headsFlips") int 0 ms
    <*> field (.camel "tailsFlips") int 0 ms
    <*> field (.camel "longestStreak") int 0 ms
    <*> field (.camel "longestHeadsStreak") int 0 ms
    <*> field (.camel "longestTailsStreak") int 0 ms
    <*> counts "coinLandCounts"
    <*> paths "randomUnlockedCoins"
    <*> (Tally.ofList <$> field (.camel "coinUnlockTimestamps") (dictionary moment) [] ms)
    <*> paths "notificationShownFor"
    <*> counts "characteristicConsecutiveCounts"

/-- Reads progress. -/
def ofJson : Reading Progress := record .modelType ofMembers

/-- Why a stored text is no progress. -/
inductive Corruption where
  | notText
  | notJson
  | invalid (issues : List Issue)

/-- Progress of a JSON value; null is empty progress. -/
def ofStored : Json → Except Corruption Progress
  | .null => .ok empty
  | j =>
    match ofJson j with
    | .ok p => .ok p
    | .failed issues => .error (.invalid issues)

/-- Progress of a stored text. -/
def ofText (s : String) : Except Corruption Progress :=
  match Json.read? .strict s with
  | none => .error .notJson
  | some j => ofStored j

/-- Progress of stored bytes. -/
def ofBytes (bytes : ByteArray) : Except Corruption Progress :=
  match String.fromUTF8? bytes with
  | none => .error .notText
  | some s => ofText s

end Progress

end CoinToss
