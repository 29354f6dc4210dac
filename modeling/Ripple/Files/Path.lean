import Ripple.Text.Basic

/-!
Paths: a root and the names that lead down from it. Empty names and single dots are dropped when a
path is read; double dots stay, because they can only be taken back where the files are known.
-/
namespace Ripple

structure Path where
  /-- Empty for a relative path; one slash, or exactly two, for an absolute one. -/
  root : String
  names : List String
  deriving DecidableEq, Repr, Inhabited

namespace Path

/-- The names between the slashes of a text, without the empty ones and the single dots. -/
def namesOf (s : String) : List String :=
  (Text.split '/' s).filter fun n => n ≠ "" ∧ n ≠ "."

def ofString (s : String) : Path :=
  let root :=
    if Text.startsWith s "///" then "/"
    else if Text.startsWith s "//" then "//"
    else if Text.startsWith s "/" then "/"
    else ""
  ⟨root, namesOf s⟩

def toString (p : Path) : String :=
  if p.names.isEmpty then (if p.root.isEmpty then "." else p.root)
  else p.root ++ Text.join "/" p.names

instance : ToString Path where
  toString := Path.toString

def isAbsolute (p : Path) : Bool := !p.root.isEmpty

/-- A path seen from a directory: an absolute one stays as it is. -/
def join (base p : Path) : Path :=
  if p.isAbsolute then p else { base with names := base.names ++ p.names }

/-- The directory that holds a path; a root or an empty path is its own. -/
def parent (p : Path) : Path := { p with names := p.names.dropLast }

def name (p : Path) : String := p.names.getLastD ""

/-- The place of the last dot of a name, unless it is the first or the last character. -/
def dot? (name : List Char) : Option Nat :=
  let tail := (name.reverse.takeWhile (· != '.')).length
  if tail + 1 < name.length ∧ 0 < tail then some (name.length - tail - 1) else none

def stem (p : Path) : String :=
  match dot? p.name.toList with
  | some i => String.ofList (p.name.toList.take i)
  | none => p.name

def suffix (p : Path) : String :=
  match dot? p.name.toList with
  | some i => String.ofList (p.name.toList.drop i)
  | none => ""

/-- A path with every double dot taken back by the name before it, at the root without effect. -/
def collapse (names : List String) : List String :=
  names.foldl (fun done n => if n = ".." then done.dropLast else done ++ [n]) []

end Path

end Ripple
