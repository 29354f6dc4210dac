import Ripple.Command.Run
import Std.Time.DateTime

/-!
The program: it reads the files around it, runs a command on them, prints what the command prints,
and writes the files that the command has changed. It starts no other program, so that to a command
it is a machine without git.
-/
namespace Ripple.Program

/-- Directories whose content no command looks at. -/
def unread : List String := [".git", "node_modules"]

/-- How deep directories are read. -/
def depthLimit : Nat := 64

def listing (place : List String) : IO (Array IO.FS.DirEntry) := do
  (← IO.FS.realPath ("/" ++ Text.join "/" place)).readDir

def readBelow : Nat → FileTree → List String → IO FileTree
  | 0, tree, _ => return tree
  | depth + 1, tree, place => do
    match ← (listing place).toBaseIO with
    | .error _ => return tree
    | .ok entries =>
      let mut tree := tree.makeDirectories place
      for entry in entries do
        let inside := place ++ [entry.fileName]
        if ← entry.path.isDir then
          unless unread.contains entry.fileName do
            tree ← readBelow depth tree inside
        else
          match ← (IO.FS.readBinFile entry.path).toBaseIO with
          | .ok octets => tree := tree.write inside octets.toList
          | .error _ => pure ()
      return tree

def readOne (tree : FileTree) (file : Path) : IO FileTree := do
  match ← (IO.FS.readBinFile file.toString).toBaseIO with
  | .ok octets => return tree.write (tree.resolve file).names octets.toList
  | .error _ => return tree

/-- The variables in the environment, where the system tells them. -/
def readVariables : IO (List (String × String)) := do
  match ← (IO.FS.readBinFile "/proc/self/environ").toBaseIO with
  | .error _ => return []
  | .ok octets =>
    let parts := Text.splitBy (· == '\x00') (Text.Utf8.decodeLossy octets.toList)
    let entries := parts.map fun entry =>
      let name := entry.takeWhile (· != '=')
      (String.ofList name, String.ofList (entry.drop (name.length + 1)))
    return entries.filter fun (name, _) => name ≠ ""

def readClock : IO Timestamp := do
  let elapsed ← Std.Time.Timestamp.now
  let micros := elapsed.toNanosecondsSinceUnixEpoch.val / 1000
  return (Timestamp.ofEpochMicros? micros).getD ⟨⟨1970, 1, 1⟩, 0, 0, 0, 0, some 0⟩

def worldOn (files : FileTree) (environment : List (String × String)) (now : Timestamp) :
    Command.World where
  host := ⟨files, fun _ _ => .notStarted "[Errno 2] No such file or directory: 'git'"⟩
  homes := ⟨(environment.lookup "HOME").getD "/", []⟩
  environment := environment
  now := now

/-- Writes the files that a command has changed. -/
def writeChanges (before after : FileTree) : IO Unit := do
  for (names, node) in after.nodes do
    if before.node? names != some node then
      let path := "/" ++ Text.join "/" names
      match node with
      | .directory => IO.FS.createDirAll path
      | .file octets => IO.FS.writeBinFile path ⟨octets.toArray⟩

end Ripple.Program

def main (arguments : List String) : IO UInt32 := do
  let environment ← Ripple.Program.readVariables
  let now ← Ripple.Program.readClock
  let current := Ripple.Path.namesOf (← IO.currentDir).toString
  let read := Ripple.Program.readBelow Ripple.Program.depthLimit
  let mut files ← read (.empty current) current
  for file in Ripple.Command.namedConfig? arguments do
    files ← Ripple.Program.readOne files file
  let world := fun files => Ripple.Program.worldOn files environment now
  for place in Ripple.Command.repositoriesOutside (world files) arguments do
    files ← read files place
  let outcome := Ripple.Command.run (world files) arguments
  IO.print outcome.output
  IO.eprint outcome.errors
  match outcome.crash with
  | some crash => IO.eprintln crash.message
  | none => pure ()
  Ripple.Program.writeChanges files outcome.files
  return outcome.code.toUInt32
