import CoinToss.Json.Printer
import CoinToss.Schema.Reading
import CoinToss.Settings.Basic

/-!
# CoinToss.Settings.Codec

Settings as JSON, with members spelled with underscores.

* `Settings.toJson`, `Settings.text` — every setting is written, in a fixed order;
* `Settings.ofMembers` — what is missing has its default.
-/

namespace CoinToss

open Schema

/-! ## writing -/

/-- Settings as JSON. -/
def Settings.toJson (s : Settings) : Json :=
  .object [
    ("server", .object [("host", .string s.server.host), ("port", .int s.server.port),
      ("debug", .bool s.server.debug), ("name", .string s.server.name)]),
    ("logging", .object [("level", .string s.logging.level),
      ("log_to_file", .bool s.logging.toFile), ("formatter", .string s.logging.formatter)]),
    ("storage", .object [("backend", .string s.storage.backend),
      ("progress_key", .string s.storage.progressKey)]),
    ("engine", .object [
      ("rarity_weights", .object (s.engine.weights.map fun w => (w.1, .number w.2))),
      ("default_chance_multiplier", .number s.engine.multiplier)]),
    ("paths", .object [("catalog", .string s.paths.catalog),
      ("database", .string s.paths.database), ("log_file", .string s.paths.logFile)])]

/-- The text of a settings file.  A port that has been read has no more than `digitLimit` digits, and
can be written. -/
def Settings.text (s : Settings) : String := Json.print .indented s.toJson

/-! ## reading -/

/-- A member spelled one way only. -/
def plainKey (name : String) : Key := ⟨name, none⟩

/-- The server's settings. -/
def ServerSettings.ofMembers (ms : Json.Members) : Checked ServerSettings :=
  let d : ServerSettings := {}
  ServerSettings.mk
    <$> field (plainKey "host") mendedString d.host ms
    <*> field (plainKey "port") int d.port ms
    <*> field (plainKey "debug") bool d.debug ms
    <*> field (plainKey "name") mendedString d.name ms

/-- The log's settings. -/
def LogSettings.ofMembers (ms : Json.Members) : Checked LogSettings :=
  let d : LogSettings := {}
  LogSettings.mk
    <$> field (plainKey "level") mendedString d.level ms
    <*> field (plainKey "log_to_file") bool d.toFile ms
    <*> field (plainKey "formatter") mendedString d.formatter ms

/-- The store's settings. -/
def StorageSettings.ofMembers (ms : Json.Members) : Checked StorageSettings :=
  let d : StorageSettings := {}
  StorageSettings.mk
    <$> field (plainKey "backend") mendedString d.backend ms
    <*> field (plainKey "progress_key") mendedString d.progressKey ms

/-- The game's settings. -/
def EngineSettings.ofMembers (ms : Json.Members) : Checked EngineSettings :=
  let d : EngineSettings := {}
  EngineSettings.mk
    <$> field (plainKey "rarity_weights") (dictionary float) d.weights ms
    <*> field (plainKey "default_chance_multiplier") float d.multiplier ms

/-- The files' settings. -/
def PathSettings.ofMembers (ms : Json.Members) : Checked PathSettings :=
  let d : PathSettings := {}
  PathSettings.mk
    <$> field (plainKey "catalog") mendedString d.catalog ms
    <*> field (plainKey "database") mendedString d.database ms
    <*> field (plainKey "log_file") mendedString d.logFile ms

/-- A group of settings; without it all have their defaults. -/
def group {α : Type} (name : String) (read : Json.Members → Checked α) (default : α)
    (ms : Json.Members) : Checked α :=
  field (plainKey name) (record .modelType read) default ms

/-- All settings. -/
def Settings.ofMembers (ms : Json.Members) : Checked Settings :=
  Settings.mk
    <$> group "server" ServerSettings.ofMembers {} ms
    <*> group "logging" LogSettings.ofMembers {} ms
    <*> group "storage" StorageSettings.ofMembers {} ms
    <*> group "engine" EngineSettings.ofMembers {} ms
    <*> group "paths" PathSettings.ofMembers {} ms

end CoinToss
