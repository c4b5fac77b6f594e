/-! How much of a run is told. -/

namespace TouchGesture

inductive Verbosity where
  | quiet
  | normal
  | verbose
  | debug
  deriving DecidableEq, Repr

namespace Verbosity

def ofFlags (quiet : Bool) (verbose : Nat) : Verbosity :=
  if quiet then .quiet
  else
    match verbose with
    | 0 => .normal
    | 1 => .verbose
    | _ => .debug

def filter : Verbosity → String
  | .quiet => "error"
  | .normal => "warn"
  | .verbose => "fingertip=debug,info"
  | .debug => "fingertip=trace,debug"

def isQuiet (v : Verbosity) : Bool := v = .quiet

end Verbosity

end TouchGesture
