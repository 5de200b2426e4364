import CoinToss.Text.Capital

/-!
# CoinToss.Log.Level

How serious a record is.

Any number is a level, and some have names.  A level is asked for by a name in any case; a name
that is none stands for `info`.

* `levelNamed` — the level of a name.
-/

namespace CoinToss.Log

/-- How serious a record is; any number is a level. -/
abbrev Level := Int

def debug : Level := 10
def info : Level := 20
def warning : Level := 30
def error : Level := 40
def critical : Level := 50

/-- No level of its own. -/
def unset : Level := 0

/-- The name of a level; an unnamed one is told by its number. -/
def levelName (level : Level) : String :=
  if level = unset then "NOTSET"
  else if level = debug then "DEBUG"
  else if level = info then "INFO"
  else if level = warning then "WARNING"
  else if level = error then "ERROR"
  else if level = critical then "CRITICAL"
  else "Level " ++ toString level

/-- Levels by name. -/
def levels : List (String × Level) :=
  [("CRITICAL", critical), ("FATAL", critical), ("ERROR", error), ("WARNING", warning),
   ("WARN", warning), ("INFO", info), ("DEBUG", debug), ("NOTSET", unset)]

/-- Why a name cannot be asked for: two names are taken by things that are no levels. -/
inductive LevelFault where
  | layout
  | styles
  deriving DecidableEq, Repr

/-- What is told of a fault. -/
def LevelFault.message : LevelFault → String
  | .layout => "Unknown level: '%(levelname)s:%(name)s:%(message)s'"
  | .styles =>
    "Level not an integer or a valid string: \x7b'%': (<class 'logging.PercentStyle'>, " ++
      "'%(levelname)s:%(name)s:%(message)s'), '\x7b': (<class 'logging.StrFormatStyle'>, " ++
      "'\x7blevelname\x7d:\x7bname\x7d:\x7bmessage\x7d'), '$': " ++
      "(<class 'logging.StringTemplateStyle'>, " ++
      "'$\x7blevelname\x7d:$\x7bname\x7d:$\x7bmessage\x7d')\x7d"

/-- The level of a name in any case. -/
def levelNamed (name : String) : Except LevelFault Level :=
  let name := Text.inCapitals name
  if name = "BASIC_FORMAT" then .error .layout
  else if name = "_STYLES" then .error .styles
  else .ok ((levels.lookup name).getD info)

end CoinToss.Log
