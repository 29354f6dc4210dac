import Ripple.Git.Client

/-!
What git has to say about a repository while nothing changes: the changed files, their differences,
and files in several versions.
-/
namespace Ripple.Git

structure Snapshot where
  /-- The names of the changed files, or git's complaint. -/
  changed : Except String (List String)
  diffs : List (String × List UInt8)
  versions : List (String × List (String × List UInt8))

namespace Snapshot

def printed (octets : List UInt8) : Outcome := .ended octets [] 0

def refused (complaint : String) : Outcome := .ended [] (Text.Utf8.encode complaint) 128

def changedOutcome (s : Snapshot) : Outcome :=
  match s.changed with
  | .ok names => printed (Text.Utf8.encode (Text.lineBlock names))
  | .error complaint => refused complaint

def answer (s : Snapshot) (command : List String) : Outcome :=
  match command with
  | ["git", "diff", "--name-only", _] => s.changedOutcome
  | ["git", "diff", "--name-only", _, _] => s.changedOutcome
  | ["git", "diff", "-U3", _, "--", file] => printed ((s.diffs.lookup file).getD [])
  | ["git", "show", object] =>
    let version := object.toList.takeWhile (· != ':')
    let file := String.ofList (object.toList.drop (version.length + 1))
    match (s.versions.lookup (String.ofList version)).bind (·.lookup file) with
    | some octets => printed octets
    | none => refused ("fatal: path '" ++ file ++ "' does not exist in '" ++
        String.ofList version ++ "'")
  | _ => refused "fatal: not a git command"

/-- How every command turns out in a directory that git knows nothing of. -/
def unknownDirectory : Outcome := refused "fatal: not a git repository"

end Snapshot

end Ripple.Git
