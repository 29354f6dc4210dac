import Ripple.Files.Path
import Ripple.Text.Basic
import Ripple.Text.Printable
import Ripple.Text.Utf8

/-!
A tree of files as data: what stands at each absolute path. Paths are looked up name by name as a
file system does, so that a double dot needs the directory before it to be there. Of what a system
refuses, only names that are too long are modelled. The greatest length of a path and permissions
are left out, and so are links that lead in a circle where a tree has links.
-/
namespace Ripple

inductive FileNode where
  | file (octets : List UInt8)
  | directory
  deriving DecidableEq, Repr

/-- Files and directories by the names that lead to them from the root, and the directory from which
relative paths are seen. -/
structure FileTree where
  nodes : List (List String × FileNode)
  current : List String
  deriving Repr

/-- A name in a path is longer than a file system allows. -/
structure NameTooLong where
  path : String
  deriving DecidableEq, Repr

def NameTooLong.message (f : NameTooLong) : String :=
  "[Errno 36] File name too long: " ++ Text.quoted f.path

namespace FileTree

/-- A tree with nothing but the way down to its current directory. -/
def empty (current : List String) : FileTree :=
  ⟨((List.range current.length).map fun n => (current.take (n + 1), .directory)), current⟩

/-- What stands at a path without double dots; the root is always a directory. -/
def node? (t : FileTree) (names : List String) : Option FileNode :=
  if names.isEmpty then some .directory else t.nodes.lookup names

def nameLimit : Nat := 255

/-- Follows names down from a directory, from which it fails for the length of a name only. -/
def walk (t : FileTree) (shown : String) :
    List String → List String → Except NameTooLong (Option (List String × FileNode))
  | reached, [] => .ok ((t.node? reached).map (reached, ·))
  | reached, name :: rest =>
    match t.node? reached with
    | some .directory =>
      if nameLimit < name.utf8ByteSize then .error ⟨shown⟩
      else if name = ".." then t.walk shown reached.dropLast rest
      else t.walk shown (reached ++ [name]) rest
    | _ => .ok none

/-- The absolute place and the node that a path leads to. A path with a NUL leads nowhere. -/
def locate (t : FileTree) (p : Path) : Except NameTooLong (Option (List String × FileNode)) :=
  if p.toString.toList.contains '\x00' then .ok none
  else t.walk p.toString (if p.isAbsolute then [] else t.current) p.names

def exists? (t : FileTree) (p : Path) : Except NameTooLong Bool :=
  (t.locate p).map Option.isSome

def file? (t : FileTree) (p : Path) : Except NameTooLong (Option (List UInt8)) :=
  (t.locate p).map fun
    | some (_, .file octets) => some octets
    | _ => none

def isDirectory (t : FileTree) (p : Path) : Except NameTooLong Bool :=
  (t.locate p).map fun
    | some (_, .directory) => true
    | _ => false

/-- The text of the file at a path: faulty octets replaced, line ends unified. -/
def text? (t : FileTree) (p : Path) : Except NameTooLong (Option String) :=
  (t.file? p).map fun octets =>
    octets.map fun o => String.ofList (Text.unifyNewlines (Text.Utf8.decodeLossy o))

/-- The names that lead from a place to everything below it. -/
def below (t : FileTree) (place : List String) : List (List String × FileNode) :=
  t.nodes.filterMap fun (names, node) =>
    if place.isPrefixOf names && place.length < names.length then
      some (names.drop place.length, node)
    else none

/-- The order of paths: name by name. -/
def namesLe : List String → List String → Bool
  | [], _ => true
  | _ :: _, [] => false
  | a :: as, b :: bs => a < b || a == b && namesLe as bs

def set (t : FileTree) (names : List String) (n : FileNode) : FileTree :=
  if names.isEmpty then t
  else { t with nodes := t.nodes.filter (·.1 ≠ names) ++ [(names, n)] }

def makeDirectories (t : FileTree) (names : List String) : FileTree :=
  (List.range names.length).foldl
    (fun t n =>
      match t.node? (names.take (n + 1)) with
      | some _ => t
      | none => t.set (names.take (n + 1)) .directory) t

/-- Writes a file, making the directories above it. -/
def write (t : FileTree) (names : List String) (octets : List UInt8) : FileTree :=
  (t.makeDirectories names.dropLast).set names (.file octets)

def remove (t : FileTree) (names : List String) : FileTree :=
  { t with nodes := t.nodes.filter (·.1 ≠ names) }

/-- The absolute place of a path seen from the current directory. There are no links, so each double
dot takes back the name before it. -/
def resolve (t : FileTree) (p : Path) : Path :=
  ⟨"/", Path.collapse (if p.isAbsolute then p.names else t.current ++ p.names)⟩

end FileTree

end Ripple
