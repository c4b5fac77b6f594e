import TouchGesture.Decimal.Literal
import TouchGesture.Point
import TouchGesture.Text.Blank

/-! Points as a person writes them: two numbers with a comma between them. -/

namespace TouchGesture

inductive PointFault where
  | noComma (text : String)
  | badX (part : String) (fault : Decimal.LiteralFault)
  | badY (part : String) (fault : Decimal.LiteralFault)
  | notFinite (text : String)
  deriving DecidableEq, Repr

def PointFault.message : PointFault → String
  | .noComma text => "expected X,Y but got '" ++ text ++ "'"
  | .badX part fault => "invalid x coordinate '" ++ part ++ "': " ++ fault.message
  | .badY part fault => "invalid y coordinate '" ++ part ++ "': " ++ fault.message
  | .notFinite text => "coordinates must be finite, got '" ++ text ++ "'"

/-- The numbers before and after the first comma, blanks around them aside. Both must be finite. -/
def Point.ofText (s : String) : Except PointFault Position :=
  let cs := s.toList
  let x := cs.takeWhile (· ≠ ',')
  match cs.dropWhile (· ≠ ',') with
  | [] => .error (.noComma s)
  | _ :: y =>
      match Decimal.literal (Text.trim x), Decimal.literal (Text.trim y) with
      | .error fault, _ => .error (.badX (String.ofList x) fault)
      | _, .error fault => .error (.badY (String.ofList y) fault)
      | .ok a, .ok b =>
          let p : Position := ⟨a, b⟩
          if p.isFinite then .ok p else .error (.notFinite s)

end TouchGesture
