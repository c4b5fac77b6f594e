import TouchGesture.Proofs.Yaml.Line

/-! The tokens of a block mapping from keys to integers, one entry a line. -/

namespace TouchGesture.Yaml

namespace Scan

section Runs

variable {opened : Bool} {m : Mark} {tokens : List Token} {e : List Char × Int} {rest : List Char}
  {fuel settled : Nat}

theorem run_step {s t u : Scan} (goes : s.step = some t) (fresh : t.dropStaleKeys = some u)
    (going : u.ended = false) : run (fuel + 1) settled s = run fuel u.settled u := by
  simp [run, goes, fresh, going]

def entryTokens (e : List Char × Int) : List Token :=
  [.key, .scalar (keyStyle e.1) (String.ofList e.1), .value,
    .scalar .plain (String.ofList (integerText e.2))]

/-- An entry is read up to the next line. -/
theorem run_line (opened : Bool) (tokens : List Token) (fuel settled : Nat) (start : m.column = 0)
    (short : isShort e.1)
    (outside : ∀ c ∈ rest.head?, isBlank c = false ∧ isBreak c = false) :
    ∃ m' : Mark, m'.column = 0 ∧
      run (fuel + 3) settled (atLine opened m tokens (line e ++ rest)) =
        run fuel (tokens ++ opening opened ++ entryTokens e).length
          (atLine true m' (tokens ++ opening opened ++ entryTokens e) rest) := by
  let afterColon := m.advance ((keyText e.1).length + 1)
  let colonTokens :=
    tokens ++ opening opened ++ [.key, .scalar (keyStyle e.1) (String.ofList e.1), .value]
  let value := integerText e.2 ++ '\n' :: rest
  let nextLine := (afterColon.advance ((integerText e.2).length + 1)).nextLine
  have text : line e ++ rest = keyText e.1 ++ ':' :: ' ' :: value := by
    simp [line, value]
  have key : run (fuel + 3) settled (atLine opened m tokens (line e ++ rest)) =
      run (fuel + 2) (behindKey opened m tokens e.1 value).settled
        (behindKey opened m tokens e.1 value) := by
    rw [text]
    exact run_step (step_key start) (fresh_behindKey short) rfl
  have colon (settled : Nat) : run (fuel + 2) settled (behindKey opened m tokens e.1 value) =
      run (fuel + 1) colonTokens.length (atValue afterColon colonTokens (' ' :: value)) :=
    run_step (step_colon start short) rfl rfl
  have integer (settled : Nat) :
      run (fuel + 1) settled (atValue afterColon colonTokens (' ' :: value)) =
      run fuel (colonTokens ++ [Token.scalar .plain (String.ofList (integerText e.2))]).length
        (atLine true nextLine
          (colonTokens ++ [Token.scalar .plain (String.ofList (integerText e.2))]) rest) :=
    run_step (step_integer outside) rfl rfl
  have all : colonTokens ++ [Token.scalar .plain (String.ofList (integerText e.2))] =
      tokens ++ opening opened ++ entryTokens e := by
    simp [colonTokens, entryTokens]
  refine ⟨nextLine, rfl, ?_⟩
  rw [key, colon, integer, all]

def lineTokens : List (List Char × Int) → List Token
  | [] => [.blockEnd, .streamEnd]
  | e :: entries => if isShort e.1 then entryTokens e ++ lineTokens entries else []

theorem head_lines (entries : List (List Char × Int)) :
    ∀ c ∈ (entries.flatMap line).head?, isBlank c = false ∧ isBreak c = false := by
  cases entries with
  | nil => nofun
  | cons e entries =>
      obtain ⟨c, tail, text, first⟩ := keyText_cons e.1
      have head : ((e :: entries).flatMap line).head? = some c := by
        simp [line, text]
      intro d first'
      rw [head] at first'
      cases first'
      rcases first with word | rfl
      · have ordinary := isOrdinary_of_isWord word
        exact ⟨not_isBlank_of_isOrdinary ordinary, not_isBreak_of_isOrdinary ordinary⟩
      · exact ⟨rfl, rfl⟩

theorem run_end (start : m.column = 0) :
    run (fuel + 1) settled (atLine opened m tokens []) =
      tokens ++ (if opened then [.blockEnd] else []) ++ [.streamEnd] := by
  rw [run, step_end start]
  simp only [Option.bind_some, dropStaleKeys, freshKey]
  exact List.take_of_length_le (Nat.le_refl _)

theorem run_lines {entries : List (List Char × Int)} (start : m.column = 0)
    (enough : 3 * entries.length < fuel) :
    run fuel tokens.length (atLine true m tokens (entries.flatMap line)) =
      tokens ++ lineTokens entries := by
  induction entries generalizing fuel m tokens with
  | nil =>
      obtain ⟨fuel, rfl⟩ : ∃ k, fuel = k + 1 := ⟨fuel - 1, by omega⟩
      rw [List.flatMap_nil, run_end start]
      simp [lineTokens]
  | cons e entries ih =>
      simp only [List.length_cons] at enough
      by_cases short : isShort e.1
      · obtain ⟨fuel, rfl⟩ : ∃ k, fuel = k + 3 := ⟨fuel - 3, by omega⟩
        obtain ⟨m', start', reads⟩ :=
          run_line true tokens fuel tokens.length start short (head_lines entries)
        rw [List.flatMap_cons, reads, ih start' (by omega)]
        simp [lineTokens, opening, short]
      · obtain ⟨fuel, rfl⟩ : ∃ k, fuel = k + 1 := ⟨fuel - 1, by omega⟩
        have text : (e :: entries).flatMap line =
            keyText e.1 ++ ':' :: ' ' :: (integerText e.2 ++ '\n' :: entries.flatMap line) := by
          simp [line]
        rw [text, run, step_key start]
        simp [stale_behindKey, lineTokens, short, atLine]

def mappingTokens : List (List Char × Int) → List Token
  | [] => [.streamEnd]
  | e :: entries =>
      if isShort e.1 then .blockMappingStart :: (entryTokens e ++ lineTokens entries)
      else [.scalar (keyStyle e.1) (String.ofList e.1)]

theorem run_mapping {entries : List (List Char × Int)} (start : m.column = 0)
    (enough : 3 * entries.length < fuel) :
    run fuel 0 (atLine false m [] (entries.flatMap line)) = mappingTokens entries := by
  cases entries with
  | nil =>
      obtain ⟨fuel, rfl⟩ : ∃ k, fuel = k + 1 := ⟨fuel - 1, by omega⟩
      exact run_end start
  | cons e entries =>
      simp only [List.length_cons] at enough
      obtain ⟨fuel, rfl⟩ : ∃ k, fuel = k + 3 := ⟨fuel - 3, by omega⟩
      by_cases short : isShort e.1
      · obtain ⟨m', start', reads⟩ := run_line false [] fuel 0 start short (head_lines entries)
        rw [List.flatMap_cons, reads, run_lines start' (by omega)]
        simp [mappingTokens, opening, short]
      · let rest := integerText e.2 ++ '\n' :: entries.flatMap line
        have text : (e :: entries).flatMap line = keyText e.1 ++ ':' :: ' ' :: rest := by
          simp [line, rest]
        let given : Scan := { behindKey false m [] e.1 rest with key? := none }
        have first : run (fuel + 3) 0 (atLine false m [] ((e :: entries).flatMap line)) =
            run (fuel + 2) given.settled given := by
          rw [text]
          exact run_step (step_key start) (stale_behindKey (eq_false_of_ne_true short)) rfl
        have stray : given.step = none := step_strayColon
        rw [first, run, stray]
        simp [mappingTokens, short, given, behindKey, settled]

end Runs

end Scan

theorem mem_line {e : List Char × Int} {c : Char} (member : c ∈ line e) :
    isOrdinary c ∨ c ∈ ['"', '\\', ':', ' ', '-', '\n'] := by
  simp only [line, List.mem_append, List.mem_cons, List.not_mem_nil, or_false] at member
  rcases member with key | rfl | rfl | value | rfl
  · rcases mem_keyText key with word | rfl | rfl
    · exact .inl (isOrdinary_of_isWord word)
    · exact .inr (by decide)
    · exact .inr (by decide)
  · exact .inr (by decide)
  · exact .inr (by decide)
  · rcases mem_integerText value with rfl | digit
    · exact .inr (by decide)
    · exact .inl (isOrdinary_of_isWord (isWord_of_isDigit digit))
  · exact .inr (by decide)

theorem clean_of_mem_line {e : List Char × Int} {c : Char} (member : c ∈ line e) :
    isAllowed c ∧ c ≠ '\r' ∧ c ≠ '\x85' := by
  rcases mem_line member with ordinary | special
  · have allowed : isAllowed c := by
      simp only [isOrdinary, Bool.and_eq_true] at ordinary
      exact ordinary.1.1.1
    exact ⟨allowed, ne_of_isOrdinary ordinary rfl, ne_of_isOrdinary ordinary rfl⟩
  · simp only [List.mem_cons, List.not_mem_nil, or_false] at special
    rcases special with rfl | rfl | rfl | rfl | rfl | rfl <;> decide

theorem unifyBreaks_clean {cs : List Char} (clean : ∀ c ∈ cs, c ≠ '\r' ∧ c ≠ '\x85') :
    unifyBreaks cs = cs := by
  induction cs with
  | nil => rfl
  | cons c cs ih =>
      obtain ⟨carriage, nextLine⟩ := clean c List.mem_cons_self
      have others := ih fun d member => clean d (.tail c member)
      simp [unifyBreaks, carriage, nextLine, others]

theorem length_le_length_lines (entries : List (List Char × Int)) :
    3 * entries.length ≤ (entries.flatMap line).length := by
  induction entries with
  | nil => exact Nat.le_refl 0
  | cons e entries ih =>
      simp only [List.flatMap_cons, line, List.length_append, List.length_cons,
        List.length_nil] at ih ⊢
      omega

theorem tokensOf_lines (entries : List (List Char × Int)) :
    tokensOf (entries.flatMap line) = Scan.mappingTokens entries := by
  have clean : ∀ c ∈ entries.flatMap line, isAllowed c ∧ c ≠ '\r' ∧ c ≠ '\x85' := by
    intro c member
    obtain ⟨e, -, inside⟩ := List.mem_flatMap.mp member
    exact clean_of_mem_line inside
  have allowed : (entries.flatMap line).all isAllowed :=
    List.all_eq_true.mpr fun c member => (clean c member).1
  have enough : 3 * entries.length < (entries.flatMap line).length + 1 :=
    Nat.lt_succ_of_le (length_le_length_lines entries)
  rw [tokensOf, if_pos allowed]
  simp only [unifyBreaks_clean fun c member => (clean c member).2]
  exact Scan.run_mapping rfl enough

end TouchGesture.Yaml
