import CoinToss.Json.Reader
import CoinToss.Json.Shown
import CoinToss.Settings.Codec
import CoinToss.Settings.Environment

/-!
# CoinToss.Settings.Loading

Settings from a file and the environment.

Overrides are put into the JSON of the file before it is read, so a file that is no object, or has
a group that is none, fails differently with an override for it than without one.

* `loadSettings` — the settings in force;
* `readsBack` — whether the settings of a file survive being written and read.
-/

namespace CoinToss

open Schema

/-- Why settings cannot be loaded. -/
inductive SettingsFault where
  | unreadable (fault : Json.ReadFault)
  /-- The file holds no object. -/
  | noSettings (found : Json)
  /-- A setting was to be replaced in a file that holds no object. -/
  | noGroups (found : Json)
  /-- A setting was to be replaced in a group that is no object. -/
  | noMembers (found : Json)
  | invalid (issues : List Issue)

/-- What is told of settings that cannot be loaded. -/
def SettingsFault.message : SettingsFault → String
  | .unreadable fault => fault.message
  | .noSettings found =>
    "coinflip_game.config.AppConfig() argument after ** must be a mapping, not " ++ found.kindWord
  | .noGroups found => "'" ++ found.kindWord ++ "' object has no attribute 'setdefault'"
  | .noMembers found =>
    match found with
    | .array _ => "list indices must be integers or slices, not str"
    | _ => "'" ++ found.kindWord ++ "' object does not support item assignment"
  | .invalid _ => "invalid settings"

/-- Replaces a setting. -/
def Override.apply (o : Override) (value : Json) : Json → Except SettingsFault Json
  | .object groups =>
    let put (group : Json.Members) : Json :=
      .object (Json.Members.setField o.group (.object group) groups)
    match Json.Members.field? o.group groups with
    | none => .ok (put [(o.setting, value)])
    | some (.object settings) => .ok (put (Json.Members.setField o.setting value settings))
    | some found => .error (.noMembers found)
  | found => .error (.noGroups found)

/-- Replaces every setting that the environment has a text for. -/
def applyOverrides (env : Environment) (j : Json) : Except SettingsFault Json :=
  overrides.foldlM (fun j o =>
    match o.value? env with
    | some value => o.apply value j
    | none => .ok j) j

/-- The settings of a JSON value. -/
def Settings.ofJson : Json → Except SettingsFault Settings
  | .object ms =>
    match Settings.ofMembers ms with
    | .ok s => .ok s
    | .failed issues => .error (.invalid issues)
  | found => .error (.noSettings found)

/-- The JSON of a settings file; none stands for a file without settings. -/
def settingsJson : Option String → Except SettingsFault Json
  | none => .ok (.object [])
  | some text => (Json.read .lenient text).mapError .unreadable

/-- The settings of a file, if there is one, and the environment. -/
def loadSettings (file : Option String) (env : Environment) : Except SettingsFault Settings := do
  Settings.ofJson (← applyOverrides env (← settingsJson file))

/-- Whether a value is a text of what is no number. -/
def spellsNoNumber : Json → Bool
  | .string s => (Decimal.laxDecimal? s).any Float.isNaN
  | _ => false

/-- The numbers of the game's settings, as a file gives them. -/
def givenNumbers (file : Json) : List Json :=
  let engine := (file.field? "engine").getD .null
  let weights :=
    match engine.field? "rarity_weights" with
    | some (.object ms) => ms.map (·.2)
    | _ => []
  (engine.field? "default_chance_multiplier").toList ++ weights

/-- Whether the settings of a file are equal to those read from the text that they are written as.
What is no number equals only itself as a word, never a text of it. -/
def readsBack (file : Option String) : Bool :=
  match settingsJson file, loadSettings file [] with
  | .ok j, .ok s =>
    match loadSettings (some s.text) [] with
    | .ok t => t.text == s.text && !(givenNumbers j).any spellsNoNumber
    | .error _ => false
  | _, _ => false

/-! ## laws -/

/-- Without a text for any of the variables nothing is replaced. -/
theorem applyOverrides_of_none {env : Environment}
    (h : ∀ o ∈ overrides, o.value? env = none) (j : Json) : applyOverrides env j = .ok j := by
  unfold applyOverrides
  have step : ∀ os : List Override, (∀ o ∈ os, o.value? env = none) →
      os.foldlM (fun j o =>
        match o.value? env with
        | some value => o.apply value j
        | none => Except.ok (ε := SettingsFault) j) j = .ok j := by
    intro os
    induction os with
    | nil => intro _; rfl
    | cons o os ih =>
      intro h
      rw [List.foldlM_cons, h o (by simp)]
      exact ih fun o ho => h o (by simp [ho])
  exact step overrides h

end CoinToss
