import CoinToss.Log.Record
import CoinToss.Log.Template
import CoinToss.Time.Timestamp

/-!
# CoinToss.Log.Entry

Log records with their time, what went wrong, and whatever was added to them.

What is added under the name of one of a record's own parts takes the place of that part, whatever
kind of value it is.  So a part is a JSON value, and using one can fail.

* `Host` — what that depends on beside the entry;
* `Entry.message`, `Entry.time`, `Entry.failureText` — the parts that are worked out;
* `Entry.part_of_field?`, `Entry.part_of_none` — when an added value takes a part's place.
-/

namespace CoinToss.Log

/-- Where entries are written: by which clocks, and with how much room for values on the stack. -/
structure Host where
  zone : TimeZone
  room : Json.Form → Nat

/-- Something that went wrong. -/
structure Failure where
  kind : String
  reason : String

/-- Kind and reason of a failure. -/
def Failure.text (f : Failure) : String :=
  if f.reason = "" then f.kind else f.kind ++ ": " ++ f.reason

/-- A record as it is to be written. -/
structure Entry where
  /-- The level, the logger and the template of the message. -/
  record : Record
  /-- Seconds since the start of 1970. -/
  created : Json
  arguments : List Json := []
  failure : Option Failure := none
  /-- What was added to the record. -/
  extra : Json.Members := []

/-- Why an entry cannot be written. -/
inductive EntryFault where
  | template (fault : TemplateFault)
  | time (fault : Timestamp.Fault)
  /-- The time is no number. -/
  | noTime (found : Json)
  /-- The level is a list or an object, and has no colour. -/
  | noLevel (found : Json)
  /-- The name of the level cannot be filled up with blanks. -/
  | noPadding (found : Json)
  /-- What went wrong has no parts. -/
  | noParts (found : Json)
  /-- What went wrong is a text or a list of fewer than three parts. -/
  | tooFewParts (found : Json)
  /-- What went wrong has parts with names. -/
  | namedParts
  /-- A part of what went wrong is of the wrong kind. -/
  | wrongPart (found : Json) (lacks : String)
  /-- A part cannot be turned into text. -/
  | unwritten (fault : Json.WriteFault)

/-- What is told of a fault. -/
def EntryFault.message : EntryFault → String
  | .template fault => fault.message
  | .time fault => fault.message
  | .noTime found => "'" ++ found.kindWord ++ "' object cannot be interpreted as an integer"
  | .noLevel found => "unhashable type: '" ++ found.kindWord ++ "'"
  | .noPadding found => "unsupported format string passed to " ++ found.kindWord ++ ".__format__"
  | .noParts found => "'" ++ found.kindWord ++ "' object is not subscriptable"
  | .tooFewParts found =>
    match found with
    | .string _ => "string index out of range"
    | _ => "list index out of range"
  | .namedParts => "2"
  | .wrongPart found lacks => "'" ++ found.kindWord ++ "' object has no attribute '" ++ lacks ++ "'"
  | .unwritten fault => fault.message

/-- A value in a line, if there is room for showing it. -/
def Host.shown? (h : Host) (j : Json) : Except EntryFault String :=
  (Json.shown? (h.room .words) j).mapError .unwritten

namespace Entry

/-- A part of the record: what was added under its name, or its own value. -/
def part (e : Entry) (name : String) (own : Json) : Json :=
  (Json.Members.field? name e.extra).getD own

/-- The level, as it is coloured. -/
def level (e : Entry) : Json := e.part "levelno" (.int e.record.level)

/-- The name of the level. -/
def levelLabel (e : Entry) : Json := e.part "levelname" (.string (levelName e.record.level))

/-- The name of the logger. -/
def name (e : Entry) : Json := e.part "name" (.string e.record.logger)

/-- The message: the template filled in with the arguments. -/
def message (e : Entry) (h : Host) : Except EntryFault String := do
  let arguments :=
    match Json.Members.field? "args" e.extra with
    | some added => Arguments.ofJson added
    | none => Arguments.ofList e.arguments
  let template ← h.shown? (e.part "msg" (.string e.record.message))
  (fillIn (h.room .words) template arguments).mapError .template

/-- The time, as the clocks of a zone show it. -/
def time (e : Entry) (zone : TimeZone) : Except EntryFault Timestamp :=
  match e.part "created" e.created with
  | .int n => (Timestamp.ofSeconds? zone n).mapError .time
  | .bool b => (Timestamp.ofSeconds? zone (if b then 1 else 0)).mapError .time
  | .number x => (Timestamp.ofFloat? zone x).mapError .time
  | found => .error (.noTime found)

/-- What an added value says went wrong: it stands for a list of a kind, a value and a trace, and
only a list without value and trace can be told. -/
def addedFailure (added : Json) : Except EntryFault String :=
  match added with
  | .array (_ :: value :: trace :: _) =>
    match trace, value with
    | .null, .null => .ok "NoneType: None"
    | .null, value => .error (.wrongPart value "__suppress_context__")
    | trace, _ => .error (.wrongPart trace "tb_frame")
  | .string s =>
    if s.length < 3 then .error (.tooFewParts added) else .error (.wrongPart added "tb_frame")
  | .array _ => .error (.tooFewParts added)
  | .object _ => .error .namedParts
  | _ => .error (.noParts added)

/-- What went wrong, if anything did. -/
def failureText (e : Entry) : Except EntryFault (Option String) :=
  match Json.Members.field? "exc_info" e.extra with
  | none => .ok (e.failure.map Failure.text)
  | some added => if added.saysAnything then some <$> addedFailure added else .ok none

/-- An added value takes the place of the part it is named for. -/
theorem part_of_field? {e : Entry} {name : String} {added : Json}
    (h : Json.Members.field? name e.extra = some added) (own : Json) : e.part name own = added := by
  simp [part, h]

/-- Where nothing was added a part is the record's own. -/
theorem part_of_none {e : Entry} {name : String}
    (h : Json.Members.field? name e.extra = none) (own : Json) : e.part name own = own := by
  simp [part, h]

end Entry

end CoinToss.Log
