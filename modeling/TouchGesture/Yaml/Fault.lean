import TouchGesture.Data.Fault
import TouchGesture.Decimal.Text

/-! Why a YAML text gives no value. -/

namespace TouchGesture

inductive YamlFault where
  | malformed
  | data (path : Option String) (fault : Data.Fault)

def YamlFault.wording : Data.Wording where
  null := "unit value"
  number x :=
    let cs := Decimal.plainChars x
    String.ofList (if x.isFinite ∧ '.' ∉ cs then cs ++ ['.', '0'] else cs)

def YamlFault.message : YamlFault → String
  | .malformed => "malformed text"
  | .data none fault => fault.message wording
  | .data (some path) fault => path ++ ": " ++ fault.message wording

end TouchGesture
