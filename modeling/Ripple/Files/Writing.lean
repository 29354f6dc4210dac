import Ripple.Files.Tree

/-!
Making directories and writing files in a tree, with the faults that a file system reports.
-/
namespace Ripple

/-- Why something could not be made or written. -/
inductive WriteFault where
  | nameTooLong (f : NameTooLong)
  /-- The directory for it is missing. -/
  | missing (path : String)
  /-- Something other than a directory stands there. -/
  | occupied (path : String)
  /-- Something on the way is no directory. -/
  | notDirectory (path : String)
  /-- A directory stands there. -/
  | directory (path : String)
  deriving DecidableEq, Repr

namespace WriteFault

def message : WriteFault → String
  | nameTooLong f => f.message
  | missing p => "[Errno 2] No such file or directory: " ++ Text.quoted p
  | occupied p => "[Errno 17] File exists: " ++ Text.quoted p
  | notDirectory p => "[Errno 20] Not a directory: " ++ Text.quoted p
  | directory p => "[Errno 21] Is a directory: " ++ Text.quoted p

end WriteFault

namespace FileTree

/-- Whether a file stands at one of the steps of a path. -/
def fileOnWay (t : FileTree) (p : Path) : Bool :=
  (List.range p.names.length).any fun n =>
    ((t.file? { p with names := p.names.take (n + 1) }).toOption.join).isSome

/-- The place that a path would have in the directory above it. -/
def placeFor (t : FileTree) (p : Path) : Except WriteFault (List String) :=
  match t.locate p.parent with
  | .error _ => .error (.nameTooLong ⟨p.toString⟩)
  | .ok (some (place, .directory)) =>
    if nameLimit < p.name.utf8ByteSize then .error (.nameTooLong ⟨p.toString⟩)
    else .ok (place ++ [p.name])
  | .ok (some (_, .file _)) => .error (.notDirectory p.toString)
  | .ok none =>
    .error (if t.fileOnWay p then .notDirectory p.toString else .missing p.toString)

/-- Makes a directory whose own directory is there; one that is there already is left alone. -/
def makeDirectory (t : FileTree) (p : Path) : Except WriteFault FileTree :=
  match t.locate p with
  | .error f => .error (.nameTooLong f)
  | .ok (some (_, .directory)) => .ok t
  | .ok (some (_, .file _)) => .error (.occupied p.toString)
  | .ok none => (t.placeFor p).map fun place => t.set place .directory

/-- Makes a directory and, where they are missing, those above it. -/
def makePath (t : FileTree) : Nat → Path → Except WriteFault FileTree
  | 0, p => t.makeDirectory p
  | above + 1, p =>
    match t.makeDirectory p with
    | .error (.missing _) => do
      let t ← t.makePath above p.parent
      t.makeDirectory p
    | made => made

/-- Writes a text to a file whose directory is there. -/
def writeText (t : FileTree) (p : Path) (text : String) : Except WriteFault FileTree :=
  match t.locate p with
  | .error f => .error (.nameTooLong f)
  | .ok (some (_, .directory)) => .error (.directory p.toString)
  | .ok (some (place, .file _)) => .ok (t.set place (.file (Text.Utf8.encode text)))
  | .ok none => (t.placeFor p).map fun place => t.set place (.file (Text.Utf8.encode text))

end FileTree

end Ripple
