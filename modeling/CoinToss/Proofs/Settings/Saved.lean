import CoinToss.Proofs.Codec.Json
import CoinToss.Settings.Loading

/-!
# CoinToss.Proofs.Settings.Saved

Settings that are saved are loaded again.

All settings are written, none with a value that the lenient grammar would not keep, and the
readings of a settings file, lax as they are, leave alone what is of the right kind already:

```
settings  --toJson-->  value  --print .indented-->  text
text  --read .lenient-->  value  --ofJson-->  settings
```

* `Settings.keeps_toJson` — what is written is kept;
* `field_plainKey`, `Settings.ofJson_toJson` — and read as the settings;
* `saved_settings_load_back` — so a saved file gives back the settings, unless a variable replaces
  one.
-/

namespace CoinToss

open Decimal Json Schema

/-- Integers that are not overlong are kept at any depth. -/
theorem admits_lenient (depth : Nat) {n : Int} (h : (natDigits n.natAbs).length ≤ 4300) :
    (Grammar.lenient.nested depth).Admits n where
  bounded := .inl rfl
  short limit hlimit := by
    rw [← Option.some.inj hlimit]
    exact h

namespace Settings

/-- What is written of settings is kept by the grammar of settings files. -/
theorem keeps_toJson {s : Settings} (hnames : (s.engine.weights.map (·.1)).Nodup)
    (hport : (natDigits s.server.port.natAbs).length ≤ 4300) :
    Grammar.lenient.Keeps s.toJson := by
  have hstring (depth : Nat) (text : String) :
      (Grammar.lenient.nested depth).Keeps (.string text) := .string text
  have hbool (depth : Nat) (b : Bool) : (Grammar.lenient.nested depth).Keeps (.bool b) := .bool b
  have hint (depth : Nat) : (Grammar.lenient.nested depth).Keeps (.int s.server.port) :=
    .int (admits_lenient depth hport)
  have hnumber (depth : Nat) (x : Float) : (Grammar.lenient.nested depth).Keeps (.number x) :=
    .number (.inl rfl)
  have hweights : (Grammar.lenient.nested 973).Keeps
      (.object (s.engine.weights.map fun w => (w.1, .number w.2))) := by
    refine Grammar.keeps_nested_object (by simpa [Function.comp_def] using hnames) fun m hm => ?_
    obtain ⟨w, -, rfl⟩ := List.mem_map.1 hm
    exact hnumber _ _
  show (Grammar.lenient.nested (974 + 1)).Keeps s.toJson
  refine Grammar.keeps_nested_object (by simp) ?_
  simp only [List.forall_mem_cons]
  refine ⟨?server, ?logging, ?storage, ?engine, ?paths, by simp⟩
  all_goals
    refine Grammar.keeps_nested_object (by simp) ?_
    simp [hstring, hbool, hint, hnumber, hweights]

/-- A member of the right kind is read. -/
theorem field_plainKey {α : Type} {name : String} {read : Reading α} {default a : α} {ms : Members}
    {v : Json} (hfield : ms.field? name = some v) (hread : read v = .ok a) :
    field (plainKey name) read default ms = .ok a := by
  simp [field, Key.find?, plainKey, hfield, hread]

theorem group_of_field? {α : Type} {name : String} {read : Members → Checked α} {default a : α}
    {groups ms : Members} (hfield : groups.field? name = some (.object ms))
    (hread : read ms = .ok a) : group name read default groups = .ok a :=
  field_plainKey hfield hread

/-- What is written of settings is read as them, group by group. -/
theorem ofJson_toJson (s : Settings) : Settings.ofJson s.toJson = .ok s := by
  have hengine : EngineSettings.ofMembers
      [("rarity_weights", .object (s.engine.weights.map fun w => (w.1, .number w.2))),
        ("default_chance_multiplier", .number s.engine.multiplier)] = .ok s.engine := by
    have hweights : dictionary float
        (.object (s.engine.weights.map fun w => (w.1, .number w.2))) = .ok s.engine.weights :=
      valuesOf_map (fun _ => rfl) s.engine.weights
    dsimp only [EngineSettings.ofMembers]
    rw [field_plainKey rfl hweights, field_plainKey (a := s.engine.multiplier) rfl rfl]
    rfl
  rw [toJson, ofJson, ofMembers, group_of_field? (a := s.server) rfl rfl,
    group_of_field? (a := s.logging) rfl rfl, group_of_field? (a := s.storage) rfl rfl,
    group_of_field? rfl hengine, group_of_field? (a := s.paths) rfl rfl]
  rfl

end Settings

/-- Settings are loaded from the text that they are saved as, where no variable replaces one: with
any weights and multiplier, any texts and names, and a port of as many digits as a file may hold. -/
theorem saved_settings_load_back {s : Settings} {env : Environment}
    (hnames : (s.engine.weights.map (·.1)).Nodup)
    (hport : (natDigits s.server.port.natAbs).length ≤ 4300)
    (henv : ∀ o ∈ overrides, o.value? env = none) : loadSettings (some s.text) env = .ok s := by
  have hread := read_print (Settings.keeps_toJson hnames hport) .indented
  rw [loadSettings, settingsJson, Settings.text, hread]
  show (applyOverrides env s.toJson >>= Settings.ofJson) = _
  rw [applyOverrides_of_none henv]
  exact s.ofJson_toJson

/-- Settings of a long port, endless and negative zero weights, and texts of every kind. -/
def oddSettings : Settings where
  server := { host := "\"\\/\x00\x7f\u2028", port := -(10 ^ 40), debug := true, name := "🪙 é" }
  logging := { level := "null", toFile := true, formatter := "" }
  storage := { backend := "NaN", progressKey := "\ud7ff\ue000\uffff" }
  engine := {
    weights := [("", infinity true), ("𝔘ncommon", infinity false), ("Rare", ofFields true 0),
      ("1e5", Float.ofBits 1)]
    multiplier := Float.ofBits 0x7fefffffffffffff }
  paths := { catalog := "\n\t\r", database := "true", logFile := "[]" }

theorem saved_settings_load_back_oddSettings :
    (oddSettings.engine.weights.map (·.1)).Nodup ∧
      (natDigits oddSettings.server.port.natAbs).length ≤ 4300 ∧
      (∀ o ∈ overrides, o.value? [("SERVER_HOST", ""), ("HOME", "/")] = none) ∧
      loadSettings (some oddSettings.text) [("SERVER_HOST", ""), ("HOME", "/")] =
        .ok oddSettings := by
  have hnames : (oddSettings.engine.weights.map (·.1)).Nodup := by decide
  have hport : (natDigits oddSettings.server.port.natAbs).length ≤ 4300 := by decide +kernel
  have henv : ∀ o ∈ overrides, o.value? [("SERVER_HOST", ""), ("HOME", "/")] = none := by
    simp [overrides, Override.value?, Environment.get?, List.lookup]
  exact ⟨hnames, hport, henv, saved_settings_load_back hnames hport henv⟩

end CoinToss
