/-! A directory of named files, and where a path in it leads. -/

namespace TouchGesture

inductive StorageFault where
  | notFound
  | isADirectory
  | notADirectory
  | notText
  deriving DecidableEq, Repr

def StorageFault.message : StorageFault → String
  | .notFound => "No such file or directory (os error 2)"
  | .isADirectory => "Is a directory (os error 21)"
  | .notADirectory => "Not a directory (os error 20)"
  | .notText => "stream did not contain valid UTF-8"

/-- Files by name, the latest first. There are no directories below it, and nothing is known of what
lies outside. -/
structure Directory where
  files : List (String × ByteArray) := []

namespace Directory

inductive Spot where
  | directory
  | outside
  | file (name : String) (content : ByteArray)
  | absent (name : String)
  | absentDirectory

/-- One step of a path. An empty step stays in a directory, even in one that is not there. -/
def step (d : Directory) (spot : Spot) (part : String) : Except StorageFault Spot :=
  match spot with
  | .directory =>
      if part = "" ∨ part = "." then .ok .directory
      else if part = ".." then .ok .outside
      else
        match d.files.find? fun f => f.1 = part with
        | some (name, content) => .ok (.file name content)
        | none => .ok (.absent part)
  | .outside => if part = "" ∨ part = "." ∨ part = ".." then .ok .outside else .error .notFound
  | .file .. => .error .notADirectory
  | .absent _ | .absentDirectory => if part = "" then .ok .absentDirectory else .error .notFound

def locate (d : Directory) (path : String) : Except StorageFault Spot :=
  (path.splitOn "/").foldlM d.step (if path.startsWith "/" then .outside else .directory)

def read (d : Directory) (path : String) : Except StorageFault ByteArray :=
  match d.locate path with
  | .error e => .error e
  | .ok (.file _ content) => .ok content
  | .ok (.absent _) | .ok .absentDirectory => .error .notFound
  | .ok _ => .error .isADirectory

def write (d : Directory) (path : String) (content : ByteArray) : Except StorageFault Directory :=
  match d.locate path with
  | .ok (.file name _) | .ok (.absent name) => .ok ⟨(name, content) :: d.files⟩
  | .ok _ => .error .isADirectory
  | .error e => .error e

/-- What follows the last dot of the last name of a path. A name whose only dot comes first has
none. -/
def extension? (path : String) : Option String :=
  let parts := (path.splitOn "/").filter fun part => part ≠ "" ∧ part ≠ "."
  match parts.getLast? with
  | none => none
  | some name =>
      if name = ".." then none
      else
        let cs := name.toList.reverse
        match cs.dropWhile (· ≠ '.') with
        | [] | [_] => none
        | _ :: _ :: _ => some (String.ofList (cs.takeWhile (· ≠ '.')).reverse)

end Directory

end TouchGesture
