import TouchGesture.Preview.CommandLine
import TouchGesture.Preview.Verbosity
import TouchGesture.Settings.Load

/-! The program that previews gestures: from its words to its output and its exit code. -/

namespace TouchGesture

def Stop.message : Stop → String
  | .fault f => f.message
  | .crash => "the device crashed"

namespace Invocation

def run (read : String → Except StorageFault ByteArray) (i : Invocation) :
    Except Stop String := do
  let c ← match i.config with
    | none => pure {}
    | some path => (Settings.load read path).mapError .fault
  match i.task with
  | .showSettings => return c.toYaml
  | .gesture q => return (← q.preview c).render i.format

def verbosity (i : Invocation) : Verbosity := .ofFlags i.quiet i.verbose

end Invocation

inductive Ending where
  | printed (output : String)
  | failed (message : String)
  | misused (fault : UsageFault)

namespace Ending

def versionNumber : String := "0.2.0"

def exitCode : Ending → Nat
  | .printed _ => 0
  | .failed _ => 1
  | .misused fault => fault.exitCode

def output? : Ending → Option String
  | .printed output => some output
  | .misused (.version program) => some (program ++ " " ++ versionNumber ++ "\n")
  | .misused .help => none
  | _ => some ""

end Ending

/-- Runs the program. Being quiet hides its output but no error. -/
def program (read : String → Except StorageFault ByteArray) (environment : Option String)
    (words : List String) : Ending :=
  match CommandLine.parse environment words with
  | .error fault => .misused fault
  | .ok i =>
      match i.run read with
      | .ok output => .printed (if i.verbosity.isQuiet then "" else output)
      | .error stop => .failed ("Error: " ++ stop.message)

end TouchGesture
