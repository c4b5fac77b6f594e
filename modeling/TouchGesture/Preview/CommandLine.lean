import TouchGesture.Point.Literal
import TouchGesture.Preview.Request

/-! The words of a command line and what they ask for. -/

namespace TouchGesture

inductive UsageFault where
  | invalidValue
  | unknownArgument
  | invalidSubcommand
  | valueValidation
  | tooManyValues
  | argumentConflict
  | missingRequiredArgument
  | missingSubcommand
  | help
  | helpOnMissing
  | version (program : String)
  deriving DecidableEq, Repr

namespace UsageFault

def exitCode : UsageFault → Nat
  | .help | .version _ => 0
  | _ => 2

end UsageFault

namespace CommandLine

inductive Subcommand where
  | pinch
  | drag
  | tap
  | config
  deriving DecidableEq, Repr

namespace Subcommand

def name : Subcommand → String
  | .pinch => "pinch"
  | .drag => "drag"
  | .tap => "tap"
  | .config => "config"

def ofName? (s : String) : Option Subcommand :=
  [pinch, drag, tap, config].find? fun c => c.name = s

end Subcommand

inductive Valued where
  | center
  | start
  | target
  | point
  | steps
  | delayMs
  | holdMs
  | config
  | format
  deriving DecidableEq, Repr

namespace Valued

def name : Valued → String
  | .center => "center"
  | .start => "from"
  | .target => "to"
  | .point => "at"
  | .steps => "steps"
  | .delayMs => "delay-ms"
  | .holdMs => "hold-ms"
  | .config => "config"
  | .format => "format"

/-- Coordinates may be negative, so an option for a point takes any word that follows. -/
def takesAnyWord : Valued → Bool
  | .center | .start | .target | .point => true
  | _ => false

end Valued

inductive Flag where
  | verbose
  | quiet
  | help
  | version
  deriving DecidableEq, Repr

namespace Flag

def ofLetter? : Char → Option Flag
  | 'v' => some .verbose
  | 'q' => some .quiet
  | 'h' => some .help
  | 'V' => some .version
  | _ => none

def ofName? (s : String) : Option Flag :=
  if s = "verbose" then some .verbose
  else if s = "quiet" then some .quiet
  else if s = "help" then some .help
  else if s = "version" then some .version
  else none

end Flag

abbrev Level := Option Subcommand

namespace Level

def program : Level → String
  | none => "fingertip"
  | some c => "fingertip-" ++ c.name

def required : Level → List Valued
  | some .pinch => [.center, .start, .target]
  | some .drag => [.start, .target]
  | some .tap => [.point]
  | _ => []

def valued (level : Level) : List Valued :=
  level.required ++ (match level with
    | some .pinch | some .drag => [.steps, .delayMs]
    | some .tap => [.holdMs]
    | _ => []) ++ [.config, .format]

end Level

structure Values where
  points : List (Valued × Position) := []
  steps : Option UInt32 := none
  delayMs : Option UInt64 := none
  holdMs : Option UInt64 := none
  config : Option String := none
  format : Option OutputFormat := none
  quiet : Bool := false
  verbose : Nat := 0

def integer? (minus : Bool) (cs : List Char) : Option Int :=
  let (negative, ds) := match cs with
    | '+' :: rest => (false, rest)
    | '-' :: rest => if minus then (true, rest) else (false, cs)
    | cs => (false, cs)
  if ds.isEmpty ∨ ¬ ds.all Char.isDigit then none
  else
    let n : Int := Nat.ofDigitChars 10 ds 0
    some (if negative then -n else n)

def number (size : Nat) (minus : Bool) (word : String) : Except UsageFault Nat :=
  match integer? minus word.toList with
  | some n => if 0 ≤ n ∧ n < size then .ok n.toNat else .error .valueValidation
  | none => .error .valueValidation

def outputFormat (word : String) : Except UsageFault OutputFormat :=
  if word = "text" then .ok .text
  else if word = "json" then .ok .json
  else .error .invalidValue

namespace Values

def has (v : Values) : Valued → Bool
  | .steps => v.steps.isSome
  | .delayMs => v.delayMs.isSome
  | .holdMs => v.holdMs.isSome
  | .config => v.config.isSome
  | .format => v.format.isSome
  | o => (v.points.lookup o).isSome

def set (v : Values) (o : Valued) (word : String) : Except UsageFault Values := do
  if v.has o then throw .argumentConflict
  match o with
  | .steps => return { v with steps := some (UInt32.ofNat (← number UInt32.size true word)) }
  | .delayMs => return { v with delayMs := some (UInt64.ofNat (← number UInt64.size false word)) }
  | .holdMs => return { v with holdMs := some (UInt64.ofNat (← number UInt64.size false word)) }
  | .config => if word = "" then throw .invalidValue else return { v with config := some word }
  | .format => return { v with format := some (← outputFormat word) }
  | o =>
      match Point.ofText word with
      | .ok p => return { v with points := (o, p) :: v.points }
      | .error _ => throw .valueValidation

end Values

/-- The words read so far at a level. The option met last is judged only when the next one is met or
the level ends. -/
structure Progress where
  values : Values := {}
  pending : Option (Valued × Option String) := none
  trailing : Bool := false

namespace Progress

def settle (p : Progress) : Except UsageFault Progress :=
  match p.pending with
  | none => .ok p
  | some (_, none) => .error .invalidValue
  | some (o, some word) => do return { p with values := ← p.values.set o word, pending := none }

def waiting? (p : Progress) : Option Valued :=
  match p.pending with
  | some (o, none) => some o
  | _ => none

def flag (level : Level) (p : Progress) (f : Flag) : Except UsageFault Progress := do
  let p ← p.settle
  match f with
  | .verbose => return { p with values := { p.values with verbose := p.values.verbose + 1 } }
  | .quiet =>
      if p.values.quiet then throw .argumentConflict
      return { p with values := { p.values with quiet := true } }
  | .help => throw .help
  | .version => throw (.version level.program)

def long (level : Level) (p : Progress) (cs : List Char) : Except UsageFault Progress := do
  let name := String.ofList (cs.takeWhile (· ≠ '='))
  let attached := match cs.dropWhile (· ≠ '=') with
    | [] => none
    | _ :: rest => some (String.ofList rest)
  match level.valued.find? fun o => o.name = name, Flag.ofName? name with
  | some o, _ =>
      let p ← p.settle
      match attached with
      | some word => return { p with values := ← p.values.set o word }
      | none => return { p with pending := some (o, none) }
  | none, some f => if attached.isSome then throw .tooManyValues else p.flag level f
  | none, none => throw .unknownArgument

def short (level : Level) (p : Progress) (cs : List Char) : Except UsageFault Progress :=
  cs.foldlM (fun p c => match Flag.ofLetter? c with
    | some f => p.flag level f
    | none => throw .unknownArgument) p

end Progress

def strayWord (level : Level) (trailing : Bool) (word : String) : UsageFault :=
  match level with
  | some _ => .unknownArgument
  | none =>
      if trailing ∧ (word = "help" ∨ (Subcommand.ofName? word).isSome) then .unknownArgument
      else .invalidSubcommand

def helpFor : List String → UsageFault
  | [] => .help
  | [word] =>
      if word = "help" ∨ (Subcommand.ofName? word).isSome then .help else .invalidSubcommand
  | _ => .invalidSubcommand

def scan (level : Level) (p : Progress) :
    List String → Except UsageFault (Progress × Option (Subcommand × List String))
  | [] => .ok (p, none)
  | word :: rest =>
      let stray : Except UsageFault (Progress × Option (Subcommand × List String)) :=
        .error (strayWord level p.trailing word)
      let command := if level.isNone then Subcommand.ofName? word else none
      let taken (o : Valued) := scan level { p with pending := some (o, some word) } rest
      if p.trailing then stray
      else
        match p.waiting?, word.toList with
        | some o, '-' :: '-' :: cs =>
            if o.takesAnyWord then taken o
            else if cs.isEmpty then scan level { p with trailing := true } rest
            else (p.long level cs).bind fun p => scan level p rest
        | some o, '-' :: c :: cs =>
            if o.takesAnyWord then taken o
            else (p.short level (c :: cs)).bind fun p => scan level p rest
        | some o, _ => taken o
        | none, cs =>
            if level.isNone ∧ word = "help" then .error (helpFor rest)
            else
              match command, cs with
              | some command, _ => .ok (p, some (command, rest))
              | none, '-' :: '-' :: cs =>
                  if cs.isEmpty then scan level { p with trailing := true } rest
                  else (p.long level cs).bind fun p => scan level p rest
              | none, '-' :: c :: cs => (p.short level (c :: cs)).bind fun p => scan level p rest
              | none, _ => stray

/-- At the end of a level its last option is judged. Where the level names no settings file, the one
that the environment names must not be empty. -/
def finish (environment : Option String) (p : Progress) : Except UsageFault Values := do
  let p ← p.settle
  if p.values.config.isNone ∧ environment = some "" then throw .invalidValue
  return p.values

inductive Task where
  | gesture (request : Request)
  | showSettings

end CommandLine

open CommandLine

structure Invocation where
  task : Task
  config : Option String
  format : OutputFormat
  quiet : Bool
  verbose : Nat

namespace CommandLine

def task (command : Subcommand) (v : Values) : Except UsageFault Task :=
  let point (o : Valued) : Except UsageFault Position :=
    match v.points.lookup o with
    | some p => .ok p
    | none => .error .missingRequiredArgument
  match command with
  | .pinch => do
      return .gesture
        (.pinch (← point .center) (← point .start) (← point .target) v.steps v.delayMs)
  | .drag => do return .gesture (.drag (← point .start) (← point .target) v.steps v.delayMs)
  | .tap => do return .gesture (.tap (← point .point) v.holdMs)
  | .config => .ok .showSettings

/-- Reads the words after the program's name. An option given after the subcommand wins over the
same one before it, and both win over the settings file that the environment names. -/
def parse (environment : Option String) (words : List String) : Except UsageFault Invocation := do
  let (p, rest) ← scan none {} words
  match rest with
  | none =>
      let v ← finish environment p
      let nothing := v.config.isNone && environment.isNone && v.format.isNone && !v.quiet &&
        v.verbose = 0
      throw (if nothing then .helpOnMissing else .missingSubcommand)
  | some (command, words) =>
      let (inner, _) ← scan (some command) {} words
      let inner ← finish environment inner
      let task ← task command inner
      let outer ← finish environment p
      return {
        task
        config := inner.config <|> outer.config <|> environment
        format := (inner.format <|> outer.format).getD .text
        quiet := inner.quiet || outer.quiet
        verbose := if inner.verbose = 0 then outer.verbose else inner.verbose }

end CommandLine

end TouchGesture
