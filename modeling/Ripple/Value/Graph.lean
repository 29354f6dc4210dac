import Ripple.Value.Basic

/-!
Documents with shared parts. What several places of a document refer to is there once, so that a
change of it is seen from all of them, and a part may even hold itself. The parts of a document are
therefore known by numbers.
-/
namespace Ripple

namespace ValueGraph

/-- What stands in a place of a document: a value without parts, or a part by its number. -/
inductive Cell where
  | atom (v : Value)
  | part (n : Nat)
  deriving DecidableEq, Repr

inductive Part where
  | list (items : List Cell)
  | set (members : List Value)
  | map (entries : List (Value × Cell))
  deriving DecidableEq, Repr

end ValueGraph

/-- A document: its parts by their numbers, and what stands at its top. -/
structure ValueGraph where
  parts : List ValueGraph.Part
  root : ValueGraph.Cell
  deriving DecidableEq, Repr

namespace ValueGraph

def items? (d : ValueGraph) : Cell → Option (List Cell)
  | .atom _ => none
  | .part n =>
    match d.parts[n]? with
    | some (.list items) => some items
    | _ => none

def entries? (d : ValueGraph) : Cell → Option (List (Value × Cell))
  | .atom _ => none
  | .part n =>
    match d.parts[n]? with
    | some (.map entries) => some entries
    | _ => none

def get? (d : ValueGraph) (c : Cell) (key : String) : Option Cell :=
  (d.entries? c).bind (Value.find? key)

def put (d : ValueGraph) (n : Nat) (key : String) (v : Value) : ValueGraph :=
  { d with
    parts := d.parts.modify n fun
      | .map entries => .map (Value.put (.text key) (.atom v) entries)
      | part => part }

/-- The value in a place down to a depth, below which collections are left out. -/
def value (d : ValueGraph) : Nat → Cell → Value
  | _, .atom v => v
  | 0, .part _ => .null
  | depth + 1, .part n =>
    match d.parts[n]? with
    | some (.list items) => .list (items.map (d.value depth))
    | some (.set members) => .set members
    | some (.map entries) => .map (entries.map fun e => (e.1, d.value depth e.2))
    | none => .null

def entries (d : ValueGraph) : List (Value × Cell) := (d.entries? d.root).getD []

def values (d : ValueGraph) (depth : Nat) : List (Value × Value) :=
  d.entries.map fun e => (e.1, d.value depth e.2)

mutual

def addValue (parts : List Part) : Value → List Part × Cell
  | .list vs =>
    let (parts, items) := addValues parts vs
    (parts ++ [.list items], .part parts.length)
  | .set vs => (parts ++ [.set vs], .part parts.length)
  | .map es =>
    let (parts, entries) := addEntries parts es
    (parts ++ [.map entries], .part parts.length)
  | v => (parts, .atom v)

def addValues (parts : List Part) : List Value → List Part × List Cell
  | [] => (parts, [])
  | v :: rest =>
    let (parts, c) := addValue parts v
    let (parts, cells) := addValues parts rest
    (parts, c :: cells)

def addEntries (parts : List Part) : List (Value × Value) → List Part × List (Value × Cell)
  | [] => (parts, [])
  | (k, v) :: rest =>
    let (parts, c) := addValue parts v
    let (parts, entries) := addEntries parts rest
    (parts, (k, c) :: entries)

end

/-- The document of a value, in which nothing is shared. -/
def ofValue (v : Value) : ValueGraph :=
  let (parts, root) := addValue [] v
  ⟨parts, root⟩

end ValueGraph

end Ripple
