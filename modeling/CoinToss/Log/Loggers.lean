import CoinToss.Json.Shown
import CoinToss.Log.Formatter
import CoinToss.Paths.Tally

/-!
# CoinToss.Log.Loggers

Loggers, how they are set up and where their records go.

Loggers form a tree by the dots in their names, with one of the whole process at the top.  The one
above a logger has the longest name in front of a dot that is the name of a logger; a dot beside
such a dot does not count.  A logger without a level has that of the nearest one above it that has
one.  A record goes to the sinks of its logger and of those above it, up to the first one that
keeps its records to itself.  An entry that cannot be written is dropped.  Setting a
logger up gives it a level, and sinks if it has none yet: whoever sets it up again only changes the
level.

* `Loggers.setUp`, `Loggers.start` — setting up;
* `Loggers.log` — logging an entry.
-/

namespace CoinToss.Log

/-! ## the tree -/

/-- Where records go. -/
inductive Sink where
  | console (formatter : Formatter)
  /-- The log file; its lines are plain. -/
  | file
  /-- Records are kept as they are. -/
  | shelf
  deriving DecidableEq, Repr

/-- A logger. -/
structure Logger where
  level : Level := unset
  sinks : List Sink := []
  /-- Whether records also go to the loggers above. -/
  propagates : Bool := true
  deriving DecidableEq, Repr

/-- The loggers of a process and what has gone to their sinks. -/
structure Loggers where
  table : Tally Logger := .empty
  console : String := ""
  /-- The text of the log file, once it is opened. -/
  file : Option String := none
  shelf : List Record := []
  /-- Whether the program's own logger has been set up. -/
  ready : Bool := false

/-- The logger at the top of the tree. -/
def topName : String := "root"

/-- What a logger of a name is called; no name stands for the top one. -/
def calledAs (name : String) : String := if name = "" then topName else name

/-- What stands in front of the dots of a name, the longest first, all written backwards.  Nothing
stands in front of the first character, and the dot beside one that counts does not. -/
def stemsBackwards : List Char → List (List Char)
  | '.' :: c :: cs => (c :: cs) :: stemsBackwards cs
  | _ :: cs => stemsBackwards cs
  | [] => []

/-- The names that the logger above one may have, the nearest first. -/
def stems (name : String) : List String :=
  (stemsBackwards name.toList.reverse).map fun cs => String.ofList cs.reverse

namespace Loggers

/-- The logger of a name; the top one has the level `warning` from the start. -/
def logger (ls : Loggers) (name : String) : Logger :=
  (ls.table.get? name).getD (if name = topName then { level := warning } else {})

/-- The loggers above one, the nearest first; every step shortens the name. -/
def aboveIn (ls : Loggers) : Nat → String → List String
  | 0, _ => [topName]
  | steps + 1, name =>
    match (stems name).find? fun stem => stem != topName && ls.table.contains stem with
    | some stem => stem :: ls.aboveIn steps stem
    | none => [topName]

/-- The loggers above one, the nearest first. -/
def above (ls : Loggers) (name : String) : List String :=
  if name = topName then [] else ls.aboveIn name.length name

/-- The level in force for a logger. -/
def effectiveLevel (ls : Loggers) (name : String) : Level :=
  (((name :: ls.above name).map fun n => (ls.logger n).level).find? (· ≠ unset)).getD unset

/-- Makes a logger, if there is none of the name. -/
def make (ls : Loggers) (name : String) : Loggers :=
  if ls.table.contains name then ls
  else { ls with table := ls.table.insert name (ls.logger name) }

/-- The sinks that records of a logger reach. -/
def sinksOf (ls : Loggers) : List String → List Sink
  | [] => []
  | name :: names =>
    let l := ls.logger name
    l.sinks ++ if l.propagates then sinksOf ls names else []

/-! ## logging -/

/-- The line of an entry; nothing for one that cannot be written. -/
def line (h : Host) (f : Formatter) (e : Entry) : String :=
  match f.format h e with
  | .ok text => text ++ "\n"
  | .error _ => ""

/-- Puts an entry into a sink. -/
def deliver (ls : Loggers) (h : Host) (e : Entry) : Sink → Loggers
  | .console f => { ls with console := ls.console ++ line h f e }
  | .file => { ls with file := some (ls.file.getD "" ++ line h .plain e) }
  | .shelf => { ls with shelf := ls.shelf ++ [e.record] }

/-- Whether entries of a logger and level are logged at all. -/
def accepts (ls : Loggers) (name : String) (level : Level) : Bool :=
  ls.effectiveLevel name ≤ level

/-- Logs an entry, if its level is high enough. -/
def log (ls : Loggers) (h : Host) (e : Entry) : Loggers :=
  let name := e.record.logger
  let ls := ls.make name
  if ls.accepts name e.record.level then
    (ls.sinksOf (name :: ls.above name)).foldl (fun ls sink => ls.deliver h e sink) ls
  else ls

/-- The first name added to an entry that it may not use. -/
def clash? (ls : Loggers) (e : Entry) : Option String :=
  if ls.accepts e.record.logger e.record.level then
    (e.extra.map (·.1)).find? reservedNames.contains
  else none

/-! ## setting up -/

/-- How a logger is to be set up. -/
structure Order where
  level : String := "INFO"
  toFile : Bool := false
  formatter : String := "color"

/-- The sinks of an order. -/
def Order.sinks (o : Order) : List Sink :=
  .console (.ofName o.formatter) :: if o.toFile then [.file] else []

/-- A logger after being set up at a level. -/
def Order.apply (o : Order) (level : Level) (l : Logger) : Logger :=
  if l.sinks.isEmpty then ⟨level, o.sinks, false⟩ else { l with level := level }

/-- Sets a logger up. -/
def setUp (ls : Loggers) (name : String) (o : Order) : Except LevelFault Loggers := do
  let level ← levelNamed o.level
  let old := ls.logger name
  let opens := old.sinks.isEmpty && o.toFile
  pure { ls with
    table := ls.table.insert name (o.apply level old)
    file := if opens then some (ls.file.getD "") else ls.file }

/-- The loggers once the program's own one is there; it is set up as usual where it is not. -/
def prepared (ls : Loggers) : Loggers :=
  if ls.ready then ls
  else
    { ls with
      table := ls.table.insert root (Order.apply {} info (ls.logger root)), ready := true }

/-- The logger of a part of the program, or without a name that of the program. -/
def part (ls : Loggers) (name : String) : String × Loggers :=
  let full := if name = "" then root else root ++ "." ++ name
  (full, ls.prepared.make full)

/-- Sets the program's own logger up and logs that, with the time in seconds since 1970. -/
def start (ls : Loggers) (h : Host) (o : Order) (now : Int) : Except LevelFault Loggers := do
  let ls ← ls.setUp root o
  pure <| { ls with ready := true }.log h
    { record := ⟨info, root, "Logging initialized at " ++ o.level ++ " level"⟩, created := .int now }

/-! ## laws -/

/-- Whoever sets a logger up again only changes its level. -/
theorem Order.apply_of_sinks {o : Order} {level : Level} {l : Logger} (h : l.sinks ≠ []) :
    o.apply level l = { l with level := level } := by
  simp [Order.apply, h]

/-- Setting up gives a logger the level. -/
@[simp] theorem Order.level_apply (o : Order) (level : Level) (l : Logger) :
    (o.apply level l).level = level := by
  unfold Order.apply
  split <;> rfl

/-- A logger set up has the level asked for. -/
theorem level_setUp {ls t : Loggers} {name : String} {o : Order} {level : Level}
    (hl : levelNamed o.level = .ok level) (h : ls.setUp name o = .ok t) :
    (t.logger name).level = level := by
  simp only [setUp, hl, bind, Except.bind, pure, Except.pure, Except.ok.injEq] at h
  subst h
  simp [logger]

end Loggers

end CoinToss.Log
