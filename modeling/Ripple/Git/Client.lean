import Ripple.Text.Basic
import Ripple.Text.Utf8
import Ripple.Files.Tree

/-!
Questions to git about one repository. A client is generic in the monad that runs commands: a fixed
snapshot answers in the identity monad, a script of outcomes in a state monad.
-/
namespace Ripple.Git

/-- How an attempt to run a command turned out. -/
inductive Outcome where
  | ended (output errors : List UInt8) (code : Int)
  /-- It did not end in time and was killed. -/
  | hung
  /-- It could not be started. -/
  | notStarted (why : String)
  deriving DecidableEq, Repr

structure Fault where
  message : String
  directory : String
  command : List String
  deriving DecidableEq, Repr

structure Client (m : Type → Type) where
  directory : Path
  /-- The seconds that a command may take, as messages show them. -/
  timeout : String
  execute : List String → m Outcome

/-- The time limit of a client that is not told another one. -/
def defaultTimeout : String := "60.0"

def decoded (octets : List UInt8) : String := String.ofList (Text.Utf8.decodeLossy octets)

/-- What an outcome of a command means: the text it printed, or why it failed. -/
def Outcome.read (directory : Path) (timeout : String) (command : List String) :
    Outcome → Except Fault String
  | .notStarted why => .error ⟨"Cannot run git: " ++ why, directory.toString, command⟩
  | .hung => .error ⟨"git timed out after " ++ timeout ++ "s", directory.toString, command⟩
  | .ended output errors code =>
    if code = 0 then .ok (decoded output)
    else
      let said := Text.strip (decoded errors)
      let message := if said.isEmpty then "git exited with " ++ toString code else said
      .error ⟨message, directory.toString, command⟩

/-- The names in a list of files as git prints it. -/
def namesIn (output : String) : List String :=
  (Text.lines output).map Text.strip |>.filter fun name => !name.isEmpty

namespace Client

variable {m : Type → Type} [Monad m]

def run (c : Client m) (arguments : List String) : m (Except Fault String) := do
  let command := "git" :: arguments
  let outcome ← c.execute command
  return outcome.read c.directory c.timeout command

/-- The files that differ between the point where two versions parted and the second one or, if git
cannot tell, between the two. -/
def changedFiles (c : Client m) (base head : String) : m (Except Fault (List String)) := do
  match ← c.run ["diff", "--name-only", base ++ "..." ++ head] with
  | .ok output => return .ok (namesIn output)
  | .error _ =>
    let second ← c.run ["diff", "--name-only", base, head]
    return second.map namesIn

/-- The differences in one file, or nothing if git cannot tell. -/
def fileDiff (c : Client m) (file base head : String) : m String := do
  match ← c.run ["diff", "-U3", base ++ "..." ++ head, "--", file] with
  | .ok output => return output
  | .error _ => return ""

/-- A file in one version, if git has it. -/
def showFile (c : Client m) (version file : String) : m (Option String) := do
  match ← c.run ["show", version ++ ":" ++ file] with
  | .ok output => return some output
  | .error _ => return none

def fileText {n : Type → Type} (c : Client n) (files : FileTree) (file : String) :
    Except NameTooLong (Option String) :=
  files.text? (c.directory.join (Path.ofString file))

end Client

end Ripple.Git
