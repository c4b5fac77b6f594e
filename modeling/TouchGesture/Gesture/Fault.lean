import TouchGesture.Gesture.Plan
import TouchGesture.Json.Basic
import TouchGesture.Storage.Directory
import TouchGesture.Yaml.Fault

/-! Everything that can go wrong with a gesture, from its arguments to its settings file. -/

namespace TouchGesture

inductive ArgumentFault where
  | plan (fault : PlanFault Float)
  | tapPoint (point : Position)
  | other (message : String)

def ArgumentFault.message : ArgumentFault → String
  | .plan fault => fault.message
  | .tapPoint point => "tap point must be finite, got " ++ point.text
  | .other message => message

inductive GestureFault where
  | invalidArgument (fault : ArgumentFault)
  | device (refusal : Refusal)
  | cancelled (lifted : Nat)
  | settings (fault : SettingsFault)
  | storage (fault : StorageFault)
  | json (fault : JsonFault)
  | yaml (fault : YamlFault)

namespace GestureFault

def message : GestureFault → String
  | .invalidArgument fault => "Invalid argument: " ++ fault.message
  | .device refusal => "Device error: " ++ refusal.message
  | .cancelled lifted => "Gesture cancelled after lifting " ++ toString lifted ++ " finger(s)"
  | .settings fault => "Configuration error: " ++ fault.message
  | .storage fault => "I/O error: " ++ fault.message
  | .json fault => "JSON error: " ++ fault.message
  | .yaml fault => "YAML error: " ++ fault.message

def isSideEffectFree : GestureFault → Bool
  | .invalidArgument _ | .settings _ => true
  | _ => false

def refusal? : GestureFault → Option Refusal
  | .device refusal => some refusal
  | _ => none

end GestureFault

end TouchGesture
