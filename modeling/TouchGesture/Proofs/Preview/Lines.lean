import TouchGesture.Preview.Report
import TouchGesture.Proofs.Point.Shown

/-! The text of a report. It has a line for every event and one more, and all that the gesture did
can be told from it. -/

namespace TouchGesture

open Text (Legible Stops)

namespace Touch

variable {e f : TouchEvent}

def label : Phase → String
  | .down => "down  #"
  | .move => "move  #"
  | .up => "up    #"

theorem label_inj {a b : Phase} (same : label a = label b) : a = b := by
  cases a <;> cases b <;> first | rfl | exact absurd same (by decide)

def place (e : TouchEvent) : List Char := e.point?.elim [] fun p => ' ' :: p.text.toList

theorem toList_text (e : TouchEvent) :
    e.text.toList = (label e.phase).toList ++
      (Nat.toDigits 10 e.finger.index.toNat ++ e.place) := by
  cases e <;> simp [text, label, place, phase, finger, point?, Finger.text]

theorem stops_place (e : TouchEvent) : Stops Char.isDigit e.place := by
  rw [place]
  cases e.point? with
  | none => exact Text.stops_nil
  | some p => exact Text.stops_cons.mpr (by decide)

theorem text_inj (left : ∀ p ∈ e.point?, p.IsNumber) (right : ∀ p ∈ f.point?, p.IsNumber)
    (same : e.text = f.text) : e = f := by
  rw [← String.toList_inj, toList_text, toList_text] at same
  have width (a : Phase) : (label a).toList.length = 7 := by cases a <;> simp [label]
  obtain ⟨labels, behind⟩ := List.append_inj same ((width e.phase).trans (width f.phase).symm)
  obtain ⟨fingers, places⟩ := Text.digits_inj (stops_place e) (stops_place f) behind
  apply eq_of_parts
  · exact label_inj (String.toList_inj.mp labels)
  · exact congrArg Finger.mk (UInt32.toNat_inj.mp fingers)
  · rw [place, place] at places
    cases here : e.point? with
    | none =>
        cases there : f.point? with
        | none => rfl
        | some q => simp [here, there] at places
    | some p =>
        cases there : f.point? with
        | none => simp [here, there] at places
        | some q =>
            simp only [here, there, Option.elim_some, List.cons.injEq, true_and,
              String.toList_inj] at places
            rw [Point.text_inj (left p here) (right q there) places]

@[simp] theorem legible_text (e : TouchEvent) : Legible e.text := by
  cases e with
  | down g p | move g p =>
      simp only [text, Finger.text, Text.legible_append, Text.legible_digits, Point.legible_text]
      decide
  | up g =>
      simp only [text, Finger.text, Text.legible_append, Text.legible_digits]
      decide

end Touch

namespace Report

variable {r s : Report}

def eventLine (n : Nat) (e : TouchEvent) : String := column n ++ "  " ++ e.text

def closing (r : Report) : String :=
  r.gesture.name ++ ": " ++ toString r.events.length ++ " events, " ++ toString r.sleeps.toNat ++
    " sleeps, " ++ Decimal.fixed 3 r.virtualMs ++ " ms virtual"

def listing (r : Report) : List String := r.events.mapIdx eventLine ++ [r.closing]

theorem text_eq (r : Report) : r.text = Text.unlines r.listing := by
  have events : r.events.mapIdx line = (r.events.mapIdx eventLine).map fun l => l ++ "\n" := by
    apply List.ext_getElem?
    intro i
    simp only [List.getElem?_mapIdx, List.getElem?_map, Option.map_map]
    rfl
  have summary : r.summary = r.closing ++ "\n" := by simp [summary, closing, String.append_assoc]
  rw [text, events, summary, listing, Text.unlines_append, Text.unlines_singleton, Text.unlines]

theorem legible_column (n : Nat) : Legible (column n) := by
  intro c member
  rw [column, String.toList_ofList] at member
  rcases List.mem_append.mp member with blank | digit
  · exact .inl (List.eq_of_mem_replicate blank)
  · exact .inr (Text.graphic_of_isDigit (Text.isDigit_toDigits n c digit))

theorem legible_eventLine (n : Nat) (e : TouchEvent) : Legible (eventLine n e) := by
  simp only [eventLine, Text.legible_append, legible_column, Touch.legible_text]
  decide

theorem legible_closing (r : Report) : Legible r.closing := by
  have name : Legible r.gesture.name := by cases r.gesture <;> decide
  have time : Legible (Decimal.fixed 3 r.virtualMs) := by
    intro c member
    rw [Decimal.fixed, String.toList_ofList] at member
    exact .inr (Decimal.graphic_of_numeric (Decimal.numeric_fixedChars 3 r.virtualMs c member))
  simp only [closing, Text.legible_append, Text.legible_digits, name, time]
  decide

theorem legible_listing (r : Report) : ∀ l ∈ r.listing, Legible l := by
  rw [listing, List.forall_mem_append]
  constructor
  · intro l member
    obtain ⟨i, inside, rfl⟩ := List.mem_mapIdx.mp member
    exact legible_eventLine i _
  · intro l member
    exact List.mem_singleton.mp member ▸ r.legible_closing

theorem lines_text (r : Report) : Text.lines r.text = r.listing := by
  rw [text_eq]
  exact Text.lines_unlines fun l member => Text.not_newline_mem (r.legible_listing l member)

section Told

theorem name_inj {a b : GestureKind} {rest more : List Char} (stops : Stops Char.isAlpha rest)
    (stops' : Stops Char.isAlpha more) (same : a.name.toList ++ rest = b.name.toList ++ more) :
    a = b ∧ rest = more := by
  have letters (a : GestureKind) : ∀ c ∈ a.name.toList, c.isAlpha := by
    cases a <;> simp [GestureKind.name]
  obtain ⟨names, behind⟩ := Text.run_inj (letters a) stops (letters b) stops' same
  refine ⟨?_, behind⟩
  cases a <;> cases b <;> first | rfl | exact absurd names (by decide)

def ending (r : Report) : List Char :=
  ' ' :: ("sleeps, " ++ Decimal.fixed 3 r.virtualMs ++ " ms virtual").toList

theorem toList_closing (r : Report) : r.closing.toList =
    r.gesture.name.toList ++ ':' :: ' ' :: (Nat.toDigits 10 r.events.length ++
      ' ' :: ("events, ".toList ++ (Nat.toDigits 10 r.sleeps.toNat ++ r.ending))) := by
  simp [closing, ending]

theorem closing_inj (same : r.closing = s.closing) :
    r.gesture = s.gesture ∧ r.sleeps = s.sleeps := by
  have colon (rest : List Char) : Stops Char.isAlpha (':' :: rest) :=
    Text.stops_cons.mpr (by decide)
  have blank (rest : List Char) : Stops Char.isDigit (' ' :: rest) :=
    Text.stops_cons.mpr (by decide)
  rw [← String.toList_inj, toList_closing, toList_closing] at same
  obtain ⟨gesture, counted⟩ := name_inj (colon _) (colon _) same
  rw [List.cons.injEq, List.cons.injEq] at counted
  obtain ⟨-, slept⟩ := Text.digits_inj (blank _) (blank _) counted.2.2
  rw [List.cons.injEq, List.append_cancel_left_eq] at slept
  obtain ⟨sleeps, -⟩ := Text.digits_inj (blank _) (blank _) slept.2
  exact ⟨gesture, UInt64.toNat_inj.mp sleeps⟩

theorem listing_inj (same : r.listing = s.listing)
    (left : ∀ e ∈ r.events, ∀ p ∈ e.point?, p.IsNumber)
    (right : ∀ e ∈ s.events, ∀ p ∈ e.point?, p.IsNumber) :
    r.gesture = s.gesture ∧ r.sleeps = s.sleeps ∧ r.events = s.events := by
  obtain ⟨lines, last⟩ := List.append_inj' same rfl
  obtain ⟨gesture, sleeps⟩ := closing_inj (List.singleton_inj.mp last)
  refine ⟨gesture, sleeps, ?_⟩
  have count : r.events.length = s.events.length := by simpa using congrArg List.length lines
  apply List.ext_getElem count
  intro i inside inside'
  have line : eventLine i r.events[i] = eventLine i s.events[i] := by
    have item := congrArg (fun ls => ls[i]?) lines
    simpa [inside, inside'] using item
  have text : r.events[i].text = s.events[i].text := (String.append_right_inj _).mp line
  exact Touch.text_inj (left _ (List.getElem_mem inside)) (right _ (List.getElem_mem inside')) text

end Told

theorem column_eq (n : Nat) : column n = String.leftpad 5 ' ' (toString n) := by
  rw [String.leftpad, Nat.toString_eq_repr, Nat.toList_repr]
  rfl

structure Listed (r : Report) (lines : List String) : Prop where
  count : lines.length = r.events.length + 1
  event : ∀ (i : Nat) (e : TouchEvent), r.events[i]? = some e →
    lines[i]? = some (String.leftpad 5 ' ' (toString i) ++ "  " ++ e.text)
  last : lines.getLast? = some (r.gesture.name ++ ": " ++ toString r.events.length ++ " events, " ++
    toString r.sleeps.toNat ++ " sleeps, " ++ Decimal.fixed 3 r.virtualMs ++ " ms virtual")
  legible : ∀ l ∈ lines, Legible l

theorem listed_listing (r : Report) : r.Listed r.listing where
  count := by simp [listing]
  event := by
    intro i e present
    obtain ⟨inside, -⟩ := List.getElem?_eq_some_iff.mp present
    rw [listing, List.getElem?_append_left (by simpa using inside), List.getElem?_mapIdx, present,
      ← column_eq]
    rfl
  last := by
    rw [listing, List.getLast?_concat]
    rfl
  legible := r.legible_listing

/-- The text of a report is its lines, each with a line feed behind it: one for every event, with
its number and what it is, and one for the gesture. Reports with the same text are of the same
gesture, with as many sleeps and the very same touches, unless there is not-a-number among the
coordinates. -/
theorem text_tells (r s : Report) :
    r.text = Text.unlines (Text.lines r.text) ∧ r.Listed (Text.lines r.text) ∧
    ((∀ e ∈ r.events ++ s.events, ∀ p ∈ e.point?, p.IsNumber) → r.text = s.text →
      r.gesture = s.gesture ∧ r.sleeps = s.sleeps ∧ r.events = s.events) := by
  rw [lines_text]
  refine ⟨r.text_eq, r.listed_listing, ?_⟩
  intro numbers same
  rw [List.forall_mem_append] at numbers
  apply listing_inj _ numbers.1 numbers.2
  rw [← lines_text, ← lines_text, same]

/-- Two taps at infinity that take a different time, too little to be seen. -/
theorem text_tells_tap :
    ∃ r s : Report, r.virtualMs ≠ s.virtualMs ∧ r.text = s.text ∧ r.events = s.events ∧
      (Text.lines r.text).length = 3 ∧ (Text.lines r.text)[1]? = some "    1  up    #7" := by
  let r : Report := ⟨.tap, [.down ⟨7⟩ ⟨1 / 0, -0.5⟩, .up ⟨7⟩], 1, 100⟩
  let s : Report := { r with virtualMs := 100.0001 }
  have number : (⟨1 / 0, -0.5⟩ : Position).IsNumber :=
    ⟨by decide +kernel, by decide +kernel⟩
  have numbers : ∀ e ∈ r.events ++ s.events, ∀ p ∈ e.point?, p.IsNumber := by
    simpa [r, s, Touch.point?] using number
  have same : r.text = s.text := by decide +kernel
  obtain ⟨-, listed, told⟩ := text_tells r s
  refine ⟨r, s, by decide +kernel, same, (told numbers same).2.2, listed.count, ?_⟩
  rw [listed.event 1 (.up ⟨7⟩) rfl]
  decide +kernel

end Report

end TouchGesture
