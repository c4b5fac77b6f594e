import Mathlib.Data.List.Forall2
import TouchGesture.Proofs.Json.Writing
import TouchGesture.Proofs.Settings.Entries
import TouchGesture.Settings.Load

/-! Settings read from JSON are what their entries make of the defaults. -/

namespace TouchGesture.Settings

open Json

def Writes (e : Entry) (field : Json × Json) : Prop :=
  ∃ body, unescape? body = some e.1.toList ∧ field = (.string body, .number (.ofInt e.2))

theorem draft_take {d : Draft} {e : Entry} {f : Field} (named : Field.ofName? e.1 = some f) :
    (d.take e.1 (.number (.ofInt e.2))).toOption =
      if f ∉ d.seen ∧ 0 ≤ e.2 ∧ e.2 < f.size then
        some ⟨d.settings.set f e.2.toNat, f :: d.seen⟩
      else none := by
  have read : (f.ofJson (.number (.ofInt e.2))).toOption =
      if 0 ≤ e.2 ∧ e.2 < f.size then some e.2.toNat else none :=
    unsigned_ofInt f.size_le e.2
  by_cases seen : f ∈ d.seen
  · simp only [Draft.take, named, seen, if_true]
    rfl
  · have taken : d.take e.1 (.number (.ofInt e.2)) =
        (fun n => (⟨d.settings.set f n, f :: d.seen⟩ : Draft)) <$> f.ofJson
          (.number (.ofInt e.2)) := by
      simp only [Draft.take, named, seen, if_false]
      rfl
    rw [taken, toOption_map, read]
    by_cases inside : 0 ≤ e.2 ∧ e.2 < f.size <;> simp [seen, inside]

theorem foldlM_take {d : Draft} {entries : List Entry} {fields : List (Json × Json)}
    (written : List.Forall₂ Writes entries fields) :
    (fields.foldlM (fun d (key, item) => do
      Draft.take d (← Json.keyName key) item) d).toOption.map Draft.settings =
      assemble d.settings d.seen entries := by
  induction written generalizing d with
  | nil => rfl
  | @cons e field entries fields writes others ih =>
      obtain ⟨body, means, rfl⟩ := writes
      have key : Json.keyName (.string body) = .ok e.1 := by
        simp only [Json.keyName, characters, means, String.ofList_toList]
      have first : (do Draft.take d (← Json.keyName (.string body)) (.number (.ofInt e.2))) =
          d.take e.1 (.number (.ofInt e.2)) := by
        rw [key]
        rfl
      rw [List.foldlM_cons, toOption_bind]
      simp only [first]
      cases named : Field.ofName? e.1 with
      | none =>
          have unknown : (d.take e.1 (.number (.ofInt e.2))).toOption = none := by
            simp only [Draft.take, named]
            rfl
          rw [unknown]
          simp [assemble, named]
      | some f =>
          rw [draft_take named]
          simp only [assemble, named]
          split
          · exact ih
          · rfl

/-- The object that writes some entries is what they make of the defaults. -/
theorem ofJson_written {entries : List Entry} {fields : List (Json × Json)}
    (written : List.Forall₂ Writes entries fields) :
    (ofJson (.object fields true)).toOption = assemble {} [] entries := by
  have folded := foldlM_take (d := {}) written
  rw [← folded, ← toOption_map]
  simp [ofJson, foldFields]

/-- The texts that are an object with the given entries, in that order. -/
inductive JsonText (entries : List Entry) : String → Prop where
  | intro {fields : List (Json × Json)} {cs ws : List Char}
      (written : List.Forall₂ Writes entries fields)
      (spelled : Spells (.value (.object fields true)) cs) (blanks : Blanks ws) :
      JsonText entries (String.ofList (cs ++ ws))

theorem decode_text {entries : List Entry} {s : String} (text : JsonText entries s) :
    (decode ofJson s).toOption = assemble {} [] entries := by
  obtain ⟨written, spelled, blanks⟩ := text
  rw [← ofJson_written written, decode, ofText_spelled spelled blanks]
  simp

theorem readJson_proper {entries : List Entry} {s : String} (text : JsonText entries s)
    (proper : Proper entries) : readJson s = (({} : Settings).applyAll entries).checked := by
  simp only [readJson, ok_of_proper (decode_text text) proper]

theorem readJson_improper {entries : List Entry} {s : String} (text : JsonText entries s)
    (improper : ¬ Proper entries) : ∃ fault, readJson s = .error fault := by
  obtain ⟨fault, refused⟩ := error_of_improper (decode_text text) improper
  exact ⟨.json fault, by simp only [readJson, refused]⟩

def object (entries : List Entry) : Json :=
  .object (entries.map fun e => (.string (escaped e.1.toList), .number (.ofInt e.2))) true

theorem writes_object (entries : List Entry) :
    List.Forall₂ Writes entries
      (entries.map fun e => (.string (escaped e.1.toList), .number (.ofInt e.2))) := by
  apply List.forall₂_map_right_iff.mpr
  apply List.forall₂_same.mpr
  intro e _
  exact ⟨escaped e.1.toList, unescape?_escaped e.1.toList, rfl⟩

theorem writable_object (entries : List Entry) : Writable (object entries) := by
  let fields : List (List Char × Json) :=
    entries.map fun e => (escaped e.1.toList, .number (.ofInt e.2))
  have keys : ∀ f ∈ fields, Body f.1 := by
    intro f member
    obtain ⟨e, -, rfl⟩ := List.mem_map.mp member
    exact body_escaped e.1.toList
  have items : ∀ f ∈ fields, Writable f.2 := by
    intro f member
    obtain ⟨e, -, rfl⟩ := List.mem_map.mp member
    exact .number (Numeral.plain_ofInt e.2)
  have writable := Writable.object keys items
  rwa [List.map_map] at writable

theorem jsonText_compact (entries : List Entry) : JsonText entries (object entries).compact := by
  have text :=
    JsonText.intro (writes_object entries) (spells_compact (writable_object entries)) blanks_nil
  rwa [List.append_nil] at text

theorem jsonText_pretty (entries : List Entry) : JsonText entries (object entries).pretty := by
  have text :=
    JsonText.intro (writes_object entries) (spells_pretty (writable_object entries) 0) blanks_nil
  rwa [List.append_nil] at text

theorem escaped_name (f : Field) : escaped f.name.toList = f.name.toList := by
  cases f <;> decide

theorem toJson_eq_object (c : Settings) : c.toJson = object c.entries := by
  simp [toJson, record, object, entries, Json.ofNat, ofPlain, escaped_name, Numeral.ofInt_natCast]

end TouchGesture.Settings
