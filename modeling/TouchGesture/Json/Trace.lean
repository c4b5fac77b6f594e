import TouchGesture.Json.Touch
import TouchGesture.Touch.Recorder

/-! What a recorder has recorded as a JSON text, and the reading of such a text. -/

namespace TouchGesture

open Json

def Recorder.toJson (r : Recorder) : String := (list Touch.toJson r.events.toList).pretty

def Touch.listOfJson (s : String) : Decoded (List TouchEvent) := decode (listOf (ofJson 1)) s

end TouchGesture
