import TouchGesture.Proofs.Settings.Entries
import TouchGesture.Proofs.Yaml.Integer
import TouchGesture.Proofs.Yaml.Items
import TouchGesture.Settings.Load

/-! Settings read from YAML are what their entries make of the defaults. -/

namespace TouchGesture.Settings

open Yaml

/-- A block mapping of some entries, one a line. Names of letters, digits and low lines are written
plain, others in double quotes; the integers are plain too. -/
def blockMapping (entries : List Entry) : String :=
  String.join
    (entries.map fun e => String.ofList (keyText e.1.toList) ++ ": " ++ toString e.2 ++ "\n")

def spelled (e : Entry) : List Char × Int := (e.1.toList, e.2)

theorem toList_repr (i : Int) : i.repr.toList = integerText i := by
  cases i with
  | ofNat n => exact Nat.toList_repr
  | negSucc n =>
      have text : (Int.negSucc n).repr = "-" ++ Nat.repr (n + 1) := rfl
      simp [integerText, text, Nat.toList_repr, Int.negSucc_lt_zero]

theorem toList_blockMapping (entries : List Entry) :
    (blockMapping entries).toList = (entries.map spelled).flatMap line := by
  rw [blockMapping, String.toList_join, List.flatMap_map, List.flatMap_map]
  simp [spelled, line, toList_repr]

theorem isShort_name (f : Field) : Scan.isShort f.name.toList := by
  cases f <;> decide

/-- Keys that are too long name no field. -/
theorem ofName?_long {name : String} (long : ¬ Scan.isShort name.toList) :
    Field.ofName? name = none := by
  cases named : Field.ofName? name with
  | none => rfl
  | some f =>
      rw [← Field.name_of_ofName? named] at long
      exact absurd (isShort_name f) long

theorem all_isShort {entries : List Entry} (proper : Proper entries) :
    (entries.map spelled).all fun e => Scan.isShort e.1 := by
  rw [List.all_map]
  apply List.all_eq_true.mpr
  intro e member
  obtain ⟨f, named, -⟩ := proper.fitting e member
  simp only [Function.comp, spelled, ← named, isShort_name]

theorem toOption_field {d : YamlDraft} {style : Style} {name : String} :
    (d.field (.scalar none style name)).toOption =
      (Field.ofName? name).filter fun f => f ∉ d.seen := by
  cases named : Field.ofName? name with
  | none =>
      simp [YamlDraft.field, keyName, named, bind, Except.bind]
      rfl
  | some f =>
      by_cases seen : f ∈ d.seen <;>
        simp [YamlDraft.field, keyName, named, seen, bind, Except.bind, Option.filter_some] <;> rfl

theorem toOption_set {d : YamlDraft} {f : Field} {i : Int} :
    (d.set f false (.scalar none .plain (String.ofList (integerText i)))).toOption =
      if 0 ≤ i ∧ i < f.size then
        some ⟨d.settings.set f i.toNat, f :: d.seen⟩ else none := by
  have read :
      (unsigned f.size f.kind (.scalar none .plain (String.ofList (integerText i)))).toOption =
      if 0 ≤ i ∧ i < f.size then some i.toNat else none :=
    unsigned_integerText f.size_le i
  have set (value : Node) : (d.set f false value).toOption =
      (unsigned f.size f.kind value).toOption.map fun n =>
        ⟨d.settings.set f n, f :: d.seen⟩ := by
    cases means : unsigned f.size f.kind value <;> simp only [YamlDraft.set, means] <;> rfl
  rw [set, read]
  split <;> rfl

/-- The items of the lines of a mapping are taken as the entries that they write. -/
theorem take_lineEvents (d : YamlDraft) (entries : List Entry) :
    (d.take ((lineEvents (entries.map spelled)).map Event.item)).toOption =
      assemble d.settings d.seen entries := by
  induction entries generalizing d with
  | nil => rfl
  | cons e entries ih =>
      by_cases short : Scan.isShort e.1.toList
      · have text : (lineEvents ((e :: entries).map spelled)).map Event.item =
            .node (.scalar none (keyStyle e.1.toList) e.1) false ::
              .node (.scalar none .plain (String.ofList (integerText e.2))) false ::
                (lineEvents (entries.map spelled)).map Event.item := by
          simp [lineEvents, spelled, short, entryEvents, Event.item, Event.node?]
        rw [text, YamlDraft.take, toOption_bind, toOption_field]
        cases named : Field.ofName? e.1 with
        | none => simp [assemble, named]
        | some f =>
            by_cases seen : f ∈ d.seen
            · simp [assemble, named, seen, Option.filter_some]
            · by_cases inside : 0 ≤ e.2 ∧ e.2 < f.size
              · simp [assemble, named, seen, inside, Option.filter_some, toOption_bind,
                  toOption_set, ih]
              · simp [assemble, named, seen, inside, Option.filter_some, toOption_bind,
                  toOption_set]
      · have unnamed : Field.ofName? e.1 = none := ofName?_long short
        simp [lineEvents, spelled, short, assemble, unnamed]
        rfl

theorem toOption_ofYaml (text : String) :
    (ofYaml text).toOption =
      if (Document.ofText text).whole then
        (ofYamlItems (Document.ofText text).whole (Document.ofText text).items).toOption
      else none := by
  cases whole : (Document.ofText text).whole <;>
    cases taken : ofYamlItems (Document.ofText text).whole (Document.ofText text).items <;>
      simp_all [ofYaml, bind, Except.bind] <;> rfl

theorem ofYaml_blockMapping (entries : List Entry) :
    (ofYaml (blockMapping entries)).toOption = assemble {} [] entries := by
  have document : Document.ofText (blockMapping entries) =
      Document.ofTokens (Scan.mappingTokens (entries.map spelled)) := by
    rw [Document.ofText, toList_blockMapping, tokensOf_lines]
  rw [toOption_ofYaml, document]
  cases entries with
  | nil => rfl
  | cons e entries =>
      by_cases short : Scan.isShort e.1.toList
      · have mapping : Document.ofTokens (Scan.mappingTokens ((e :: entries).map spelled)) =
            ⟨.node (.collection .mapping) false ::
                (lineEvents ((e :: entries).map spelled)).map Event.item,
              ((e :: entries).map spelled).all fun e => Scan.isShort e.1⟩ := by
          rw [ofTokens_mappingTokens]
          exact if_pos short
        have taken (whole : Bool) : (ofYamlItems whole (.node (.collection .mapping) false ::
            (lineEvents ((e :: entries).map spelled)).map Event.item)).toOption =
              assemble {} [] (e :: entries) :=
          take_lineEvents {} (e :: entries)
        rw [mapping, taken]
        -- a mapping that is cut short has a name that is too long for a field
        cases made : assemble {} [] (e :: entries) with
        | none => exact ite_self none
        | some c => exact if_pos (all_isShort (assemble_eq_some.mp made).1)
      · have unnamed : assemble {} [] (e :: entries) = none := by
          simp [assemble, ofName?_long short]
        rw [unnamed, ofTokens_mappingTokens]
        simp [spelled, short]

theorem readYaml_proper {entries : List Entry} (proper : Proper entries) :
    readYaml (blockMapping entries) = (({} : Settings).applyAll entries).checked := by
  simp only [readYaml, ok_of_proper (ofYaml_blockMapping entries) proper]

theorem readYaml_improper {entries : List Entry} (improper : ¬ Proper entries) :
    ∃ fault, readYaml (blockMapping entries) = .error fault := by
  obtain ⟨fault, refused⟩ := error_of_improper (ofYaml_blockMapping entries) improper
  exact ⟨.yaml fault, by simp only [readYaml, refused]⟩

theorem keyText_name (f : Field) : String.ofList (keyText f.name.toList) = f.name := by
  cases f <;> decide

theorem toYaml_eq_blockMapping (c : Settings) : c.toYaml = blockMapping c.entries := by
  rw [toYaml, blockMapping, entries, List.map_map]
  apply congrArg
  apply List.map_congr_left
  intro f member
  simp only [Function.comp, keyText_name]
  rfl

end TouchGesture.Settings
