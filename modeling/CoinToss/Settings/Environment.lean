import CoinToss.Decimal.Numeral
import CoinToss.Json.Value

/-!
# CoinToss.Settings.Environment

The environment: texts by the names of variables, read as texts, truth values or integers.

* `Override` — a setting that a variable of the environment replaces;
* `overrides` — all of them, in the order in which they are applied.
-/

namespace CoinToss

/-- Variables and their texts. -/
abbrev Environment := List (String × String)

namespace Environment

/-- The text of a variable. -/
def get? (env : Environment) (name : String) : Option String := env.lookup name

/-- Whether a text says yes, in any case. -/
def saysYes (text : String) : Bool :=
  ["true", "1", "yes", "on"].contains (String.ofList (text.toList.map Char.toLower))

/-- A variable as a truth value. -/
def bool (env : Environment) (name : String) (default : Bool := false) : Bool :=
  match env.get? name with
  | some text => saysYes text
  | none => default

/-- The integer of a text; the default where it is none. -/
def intOr (default : Int) (text : String) : Int := (Decimal.plainInteger? text).getD default

/-- A variable as an integer. -/
def int (env : Environment) (name : String) (default : Int := 0) : Int :=
  match env.get? name with
  | some text => intOr default text
  | none => default

end Environment

/-! ## overrides -/

/-- A setting that a variable replaces, if its text is not empty. -/
structure Override where
  variableName : String
  group : String
  setting : String
  /-- What the text stands for. -/
  value : String → Json

/-- The settings that variables replace. -/
def overrides : List Override :=
  let text : String → Json := .string
  let truth (s : String) : Json := .bool (Environment.saysYes s)
  [⟨"SERVER_HOST", "server", "host", text⟩,
   ⟨"SERVER_PORT", "server", "port", fun s => .int (Environment.intOr 8000 s)⟩,
   ⟨"DEBUG", "server", "debug", truth⟩,
   ⟨"LOG_LEVEL", "logging", "level", text⟩,
   ⟨"LOG_TO_FILE", "logging", "log_to_file", truth⟩,
   ⟨"LOG_FORMATTER", "logging", "formatter", text⟩,
   ⟨"CATALOG_PATH", "paths", "catalog", text⟩,
   ⟨"DB_PATH", "paths", "database", text⟩,
   ⟨"STORAGE_BACKEND", "storage", "backend", text⟩,
   ⟨"PROGRESS_KEY", "storage", "progress_key", text⟩]

/-- What an override puts into its setting, if the environment has it. -/
def Override.value? (o : Override) (env : Environment) : Option Json :=
  match env.get? o.variableName with
  | some "" | none => none
  | some s => some (o.value s)

end CoinToss
