import TouchGesture.Preview.Program

/-! The command line program. -/

open TouchGesture

def readFile (path : String) : IO (Except StorageFault ByteArray) := do
  try
    return .ok (← IO.FS.readBinFile path)
  catch e =>
    match e with
    | .inappropriateType _ 20 _ => return .error .notADirectory
    | .inappropriateType .. => return .error .isADirectory
    | _ => return .error .notFound

def usage : String :=
  "Usage: fingertip [-v] [-q] [--config FILE] [--format text|json] pinch|drag|tap|config [OPTIONS]\n"

def main (words : List String) : IO UInt32 := do
  let environment ← IO.getEnv "FINGERTIP_CONFIG"
  let content ←
    match CommandLine.parse environment words with
    | .ok { config := some path, .. } => readFile path
    | _ => pure (.error .notFound)
  let ending := program (fun _ => content) environment words
  IO.print (ending.output?.getD usage)
  match ending with
  | .failed message => IO.eprintln message
  | .misused _ => if ending.exitCode ≠ 0 then IO.eprint usage
  | .printed _ => pure ()
  return UInt32.ofNat ending.exitCode
