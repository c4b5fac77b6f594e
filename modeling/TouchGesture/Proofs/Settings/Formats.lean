import TouchGesture.Proofs.Settings.Json
import TouchGesture.Proofs.Settings.Yaml

/-! Settings come back from either notation as they were, and both notations agree on what they
take. -/

namespace TouchGesture.Settings

section Checks

variable {c d : Settings}

theorem checked_ok (sound : c.validate = .ok ()) : c.checked = .ok c := by
  simp only [checked, sound]

theorem checked_error {fault : SettingsFault} (unsound : c.validate = .error fault) :
    c.checked = .error (.settings fault) := by
  simp only [checked, unsound]

theorem validate_of_checked (passed : d.checked = .ok c) : c.validate = .ok () := by
  cases sound : d.validate with
  | error fault =>
      rw [checked_error sound] at passed
      cases passed
  | ok _ =>
      rw [checked_ok sound] at passed
      cases passed
      exact sound

theorem validate_of_readYaml {s : String} (read : readYaml s = .ok c) : c.validate = .ok () := by
  cases taken : ofYaml s with
  | error fault =>
      simp only [readYaml, taken] at read
      cases read
  | ok d =>
      simp only [readYaml, taken] at read
      exact validate_of_checked read

theorem validate_of_readJson {s : String} (read : readJson s = .ok c) : c.validate = .ok () := by
  cases taken : Json.decode ofJson s with
  | error fault =>
      simp only [readJson, taken] at read
      cases read
  | ok d =>
      simp only [readJson, taken] at read
      exact validate_of_checked read

theorem validate_of_load {files : String → Except StorageFault ByteArray} {path : String}
    (read : load files path = .ok c) : c.validate = .ok () := by
  unfold load at read
  split at read
  · cases read
  · split at read
    · cases read
    · split at read
      · exact validate_of_readJson read
      · exact validate_of_readYaml read

end Checks

theorem readYaml_toYaml (c : Settings) : readYaml c.toYaml = c.checked := by
  rw [toYaml_eq_blockMapping, readYaml_proper c.proper_entries, applyAll_entries]

theorem readJson_compact (c : Settings) : readJson c.toJson.compact = c.checked := by
  rw [toJson_eq_object, readJson_proper (jsonText_compact c.entries) c.proper_entries,
    applyAll_entries]

theorem readJson_pretty (c : Settings) : readJson c.toJson.pretty = c.checked := by
  rw [toJson_eq_object, readJson_proper (jsonText_pretty c.entries) c.proper_entries,
    applyAll_entries]

/-- What is written of settings is read as the settings if they are sound, and as their fault if
they are not; and nothing that is read is unsound. -/
theorem written_settings_come_back :
    (∀ c : Settings,
      (c.validate = .ok () →
        readYaml c.toYaml = .ok c ∧ readJson c.toJson.compact = .ok c ∧
        readJson c.toJson.pretty = .ok c) ∧
      ∀ fault, c.validate = .error fault →
        readYaml c.toYaml = .error (.settings fault) ∧
          readJson c.toJson.compact = .error (.settings fault) ∧
          readJson c.toJson.pretty = .error (.settings fault)) ∧
    (∀ s c, readYaml s = .ok c → c.validate = .ok ()) ∧
    (∀ s c, readJson s = .ok c → c.validate = .ok ()) ∧
    ∀ files path c, load files path = .ok c → c.validate = .ok () := by
  refine ⟨fun c => ?_, fun _ _ => validate_of_readYaml, fun _ _ => validate_of_readJson,
    fun _ _ _ => validate_of_load⟩
  rw [readYaml_toYaml, readJson_compact, readJson_pretty]
  constructor
  · intro sound
    rw [checked_ok sound]
    exact ⟨rfl, rfl, rfl⟩
  · intro fault unsound
    rw [checked_error unsound]
    exact ⟨rfl, rfl, rfl⟩

theorem written_settings_come_back_or_fail :
    readYaml ({ dragSteps := 7 } : Settings).toYaml = .ok { dragSteps := 7 } ∧
    readJson ({ dragSteps := 7 } : Settings).toJson.compact = .ok { dragSteps := 7 } ∧
    readYaml ({ dragSteps := 0 } : Settings).toYaml = .error (.settings .noDragSteps) ∧
    readJson ({ dragSteps := 0 } : Settings).toJson.compact = .error (.settings .noDragSteps) := by
  have sound := (written_settings_come_back.1 { dragSteps := 7 }).1 (by decide)
  have unsound := (written_settings_come_back.1 { dragSteps := 0 }).2 .noDragSteps (by decide)
  exact ⟨sound.1, sound.2.1, unsound.1, unsound.2.1⟩

/-- Proper entries are read alike in both notations, as what their setters make of the defaults;
entries with one that is not proper among them are read in neither. -/
theorem notations_agree {entries : List Entry} {s : String} (text : JsonText entries s) :
    (Proper entries →
      readJson s = readYaml (blockMapping entries) ∧
      ((({} : Settings).applyAll entries).validate = .ok () →
        readJson s = .ok (({} : Settings).applyAll entries)) ∧
      ∀ fault, (({} : Settings).applyAll entries).validate = .error fault →
        readJson s = .error (.settings fault)) ∧
    (¬ Proper entries →
      (∃ fault, readJson s = .error fault) ∧
      ∃ fault, readYaml (blockMapping entries) = .error fault) := by
  constructor
  · intro proper
    rw [readJson_proper text proper, readYaml_proper proper]
    exact ⟨rfl, checked_ok, fun _ => checked_error⟩
  · intro improper
    exact ⟨readJson_improper text improper, readYaml_improper improper⟩

theorem notations_agree_two_fields :
    readJson (object [("tap_hold_ms", 7), ("steps", 3)]).compact = .ok
      { steps := 3, tapHoldMs := 7 } ∧
    readYaml (blockMapping [("tap_hold_ms", 7), ("steps", 3)]) = .ok
      { steps := 3, tapHoldMs := 7 } ∧
    (∃ fault, readJson (object [("steps", 3), ("colour", 1)]).compact = .error fault) ∧
    ∃ fault, readYaml (blockMapping [("steps", 3), ("colour", 1)]) = .error fault := by
  have proper : Proper [("tap_hold_ms", 7), ("steps", 3)] := by
    constructor
    · decide
    · intro e member
      rcases List.mem_cons.mp member with rfl | member
      · exact ⟨.tapHoldMs, by decide⟩
      · cases List.mem_singleton.mp member
        exact ⟨.steps, by decide⟩
  have improper : ¬ Proper [("steps", 3), ("colour", 1)] := by
    rintro ⟨-, fitting⟩
    obtain ⟨f, named, -⟩ := fitting ("colour", 1) (by decide)
    cases f <;> exact absurd named (by decide)
  have applied : ({} : Settings).applyAll [("tap_hold_ms", 7), ("steps", 3)] =
      { steps := 3, tapHoldMs := 7 } := by
    decide
  have sound := (notations_agree (jsonText_compact [("tap_hold_ms", 7), ("steps", 3)])).1 proper
  have unsound := (notations_agree (jsonText_compact [("steps", 3), ("colour", 1)])).2 improper
  rw [applied] at sound
  have read := sound.2.1 (by decide)
  exact ⟨read, sound.1 ▸ read, unsound⟩

end TouchGesture.Settings
