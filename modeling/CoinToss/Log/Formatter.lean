import CoinToss.Json.Printer
import CoinToss.Log.Entry

/-!
# CoinToss.Log.Formatter

Log entries as lines of text.

* `Formatter.format` — the text of an entry: coloured for a terminal, plain, or one JSON object;
* `Entry.toJson` — the object: the entry's own members, then what was added to the entry, in place
  where a member of that name is there.

Times are those that the clocks of the host show.  What is wrong with an entry is found in the order
in which its parts are written, and what keeps its object from being written comes last.
-/

namespace CoinToss.Log

/-- How entries are written. -/
inductive Formatter where
  | colored
  | plain
  | json
  deriving DecidableEq, Repr

/-- The formatter of a name; an unknown name stands for the coloured one. -/
def Formatter.ofName (name : String) : Formatter :=
  if name = "plain" then .plain else if name = "json" then .json else .colored

/-! ## lines -/

/-- A text filled up with blanks on the right. -/
def padRight (width : Nat) (s : String) : String :=
  s ++ String.ofList (List.replicate (width - s.length) ' ')

/-- The date and time of an entry, as the clocks of a zone show them. -/
def Entry.timeText (e : Entry) (zone : TimeZone) : Except EntryFault String :=
  (·.text ' ') <$> e.time zone

/-- The name of the level, filled up to eight characters; a truth value counts as a number. -/
def Entry.levelText (e : Entry) : Except EntryFault String :=
  match e.levelLabel with
  | .bool b => .ok (padRight 8 (if b then "1" else "0"))
  | .string s => .ok (padRight 8 s)
  | .int n =>
    if Json.isOverlong n then .error (.unwritten .overlong)
    else .ok (padRight 8 (Json.shown (.int n)))
  | .number x => .ok (padRight 8 (Json.shown (.number x)))
  | found => .error (.noPadding found)

/-- What went wrong, on a line of its own. -/
def Entry.failureLine (e : Entry) : Except EntryFault String :=
  (fun text => (text.map ("\n" ++ ·)).getD "") <$> e.failureText

/-- A text in a colour of the terminal. -/
def painted (color : String) (s : String) : String := "\x1b[" ++ color ++ "m" ++ s ++ "\x1b[0m"

/-- The colour of a level. -/
def levelColor (level : Level) : String :=
  if level = debug then "90"
  else if level = info then "92"
  else if level = warning then "93"
  else if level = error then "91"
  else if level = critical then "95"
  else "0"

/-- The colour of an entry: that of its level, if it is a number. -/
def Entry.color (e : Entry) : Except EntryFault String :=
  match e.level with
  | .int n => .ok (levelColor n)
  | .number x => .ok (((Decimal.integral? x).map levelColor).getD "0")
  | .array xs => .error (.noLevel (.array xs))
  | .object ms => .error (.noLevel (.object ms))
  | _ => .ok "0"

/-- The coloured line of an entry. -/
def Entry.coloredText (e : Entry) (h : Host) : Except EntryFault String := do
  let color ← e.color
  let time ← e.timeText h.zone
  let level ← e.levelText
  let name ← h.shown? e.name
  let message ← e.message h
  let failure ← e.failureLine
  pure (painted "90" time ++ " | " ++ painted color level ++ " | " ++ painted "96" name ++
    " | " ++ message ++ failure)

/-- The plain line of an entry. -/
def Entry.plainText (e : Entry) (h : Host) : Except EntryFault String := do
  let time ← e.timeText h.zone
  let level ← e.levelText
  let name ← h.shown? e.name
  let message ← e.message h
  let failure ← e.failureLine
  pure (time ++ " | " ++ level ++ " | " ++ name ++ " | " ++ message ++ failure)

/-! ## objects -/

/-- Names that a record uses itself. -/
def reservedNames : List String :=
  ["name", "msg", "args", "levelname", "levelno", "pathname", "filename", "module", "exc_info",
   "exc_text", "stack_info", "lineno", "funcName", "created", "msecs", "relativeCreated", "thread",
   "threadName", "processName", "process", "message", "asctime"]

/-- Whether what was added under a name is written: reserved names and those with an underscore in
front are not. -/
def isWritten (name : String) : Bool :=
  !reservedNames.contains name && name.toList.head? != some '_'

/-- What was added to the entry and is written. -/
def Entry.added (e : Entry) : Json.Members := e.extra.filter fun m => isWritten m.1

/-- The members of an entry that are its own. -/
def Entry.own (e : Entry) (time : Timestamp) (message : String) (failure : Option String) :
    Json.Members :=
  [("timestamp", .string (time.text 'T' ++ time.aheadText)), ("level", e.levelLabel),
    ("name", e.name), ("message", .string message)] ++
      (failure.map fun text => ("exc_info", .string text)).toList

/-- The object of an entry. -/
def Entry.toJson (e : Entry) (h : Host) : Except EntryFault Json := do
  let time ← e.time h.zone
  let message ← e.message h
  let failure ← e.failureText
  pure (.object (e.added.foldl (fun ms m => Json.Members.setField m.1 m.2 ms)
    (e.own time message failure)))

/-- The writer of objects. -/
def Host.writer (h : Host) : Json.Writer := ⟨.json, true, some (h.room .json)⟩

/-- The line of JSON of an entry. -/
def Entry.jsonText (e : Entry) (h : Host) : Except EntryFault String := do
  let j ← e.toJson h
  match Json.fault? h.writer j with
  | some fault => .error (.unwritten fault)
  | none => .ok (Json.print .spacedAscii j)

/-- The text of an entry. -/
def Formatter.format (f : Formatter) (h : Host) (e : Entry) : Except EntryFault String :=
  match f with
  | .colored => e.coloredText h
  | .plain => e.plainText h
  | .json => e.jsonText h

end CoinToss.Log
