import TouchGesture.Gesture.Fault
import TouchGesture.Json.Settings
import TouchGesture.Yaml.Settings

/-! Settings read from a text or a file, and found to be of use. -/

namespace TouchGesture.Settings

def checked (c : Settings) : Except GestureFault Settings :=
  match c.validate with
  | .ok () => .ok c
  | .error fault => .error (.settings fault)

def readYaml (s : String) : Except GestureFault Settings :=
  match ofYaml s with
  | .ok c => c.checked
  | .error fault => .error (.yaml fault)

def readJson (s : String) : Except GestureFault Settings :=
  match Json.decode ofJson s with
  | .ok c => c.checked
  | .error fault => .error (.json fault)

/-- Reads a file by its path. Where its extension is `json`, in any case of the letters, it is read
as JSON, else as YAML. -/
def load (read : String → Except StorageFault ByteArray) (path : String) :
    Except GestureFault Settings :=
  match read path with
  | .error fault => .error (.storage fault)
  | .ok bytes =>
      match String.fromUTF8? bytes with
      | none => .error (.storage .notText)
      | some text =>
          if (Directory.extension? path).map String.toLower = some "json" then readJson text
          else readYaml text

end TouchGesture.Settings
