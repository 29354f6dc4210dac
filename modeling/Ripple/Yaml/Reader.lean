import Ripple.Value.Graph
import Ripple.Yaml.Node

/-!
Reading YAML documents. Every collection becomes one part of the document, however many aliases it
has, and its content is put in after that of the collections that were met before it. A mapping
takes over the entries of the mappings that it merges, with its own entries on top; of several
entries with one key the last one counts, at the place of the first.
-/
namespace Ripple.Yaml

open ValueGraph (Cell Part)

/-- The nodes of a text by their numbers. -/
abbrev Nodes := Array Node

namespace Nodes

def tag (nodes : Nodes) (n : Nat) : Tag := (nodes[n]?.map Node.tag).getD .other

def entries? (nodes : Nodes) (n : Nat) : Option (List (Nat × Nat)) :=
  match nodes[n]? with
  | some ⟨_, .mapping es⟩ => some es
  | _ => none

def setEntries (nodes : Nodes) (n : Nat) (es : List (Nat × Nat)) : Nodes :=
  nodes.modify n fun node => { node with body := .mapping es }

/-- Makes a key whose kind is that of default values a text. -/
def plainKey (nodes : Nodes) (n : Nat) : Nodes :=
  nodes.modify n fun node => if node.tag = .value then { node with tag := .str } else node

/-- Puts the entries of all mappings that a mapping merges in front of its own. Of several mappings
that are merged at once the first one comes last and so counts most. A merge is taken out before it
is followed, so that a mapping may merge itself. -/
def flatten : Nat → List (Nat × Nat) → Nat → Nodes → Except Fault Nodes
  | 0, _, _, nodes => .ok nodes
  | fuel + 1, merged, n, nodes => do
    let own := (nodes.entries? n).getD []
    match own.find? fun e => nodes.tag e.1 == .merge with
    | none =>
      return (own.foldl (fun nodes e => nodes.plainKey e.1) nodes).setEntries n (merged ++ own)
    | some merge =>
      let sources ←
        match nodes[merge.2]?.map Node.body with
        | some (.mapping _) => pure [merge.2]
        | some (.sequence items) => pure items
        | _ => throw .malformed
      let (more, nodes) ← sources.foldlM
        (fun (more, nodes) source => do
          if (nodes.entries? source).isNone then throw .malformed
          let nodes ← flatten fuel [] source nodes
          return ((nodes.entries? source).getD [] ++ more, nodes))
        ([], nodes.setEntries n (own.erase merge))
      flatten fuel (merged ++ more) n nodes

/-- The number of entries of all mappings, which is no less than the number of merges. -/
def entryCount (nodes : Nodes) : Nat :=
  (nodes.toList.map fun node =>
    match node.body with
    | .mapping es => es.length
    | _ => 0).foldr (· + ·) 0

/-- The text of a node where a scalar is expected: a mapping may have a default value. -/
def content (nodes : Nodes) : Nat → Nat → Except Fault Content
  | 0, _ => .error .endless
  | fuel + 1, n =>
    match nodes[n]?.map Node.body with
    | some (.scalar c) => .ok c
    | some (.mapping es) =>
      match es.find? fun e => nodes.tag e.1 == .value with
      | some e => nodes.content fuel e.2
      | none => .error .malformed
    | _ => .error .malformed

end Nodes

/-- A document that is being built: the nodes, what has become of those that have been met, the
parts, and the collections that are still without content, each with its part. -/
structure Draft where
  nodes : Nodes
  met : List (Nat × Cell) := []
  parts : List Part := []
  pending : List (Nat × Nat) := []

namespace Draft

/-- The part that a collection of a kind starts as. -/
def blank? : Tag → Option Part
  | .seq | .omap | .pairs => some (.list [])
  | .map => some (.map [])
  | .set => some (.set [])
  | _ => none

/-- What a node becomes. A collection gets a part, whose content comes later. -/
def build (s : Draft) (n : Nat) : Except Fault (Cell × Draft) :=
  match s.met.lookup n with
  | some c => .ok (c, s)
  | none =>
    let tag := s.nodes.tag n
    match blank? tag with
    | some part =>
      let place := s.parts.length
      .ok (.part place,
        { s with
          met := (n, .part place) :: s.met
          parts := s.parts ++ [part]
          pending := s.pending ++ [(n, place)] })
    | none => do
      if [.merge, .value, .other].contains tag then throw .malformed
      let v ← Scalar.value tag (← s.nodes.content (s.nodes.size + 1) n)
      return (.atom v, { s with met := (n, .atom v) :: s.met })

def buildAll (s : Draft) : List Nat → Except Fault (List Cell × Draft)
  | [] => .ok ([], s)
  | n :: rest => do
    let (c, s) ← s.build n
    let (cells, s) ← s.buildAll rest
    return (c :: cells, s)

def buildPairs (s : Draft) : List Nat → Except Fault (List Cell × Draft)
  | [] => .ok ([], s)
  | n :: rest => do
    let some [(k, v)] := s.nodes.entries? n | throw .malformed
    let (pair, s) ← s.buildAll [k, v]
    let place := s.parts.length
    let (cells, s) ← { s with parts := s.parts ++ [Part.list pair] }.buildPairs rest
    return (.part place :: cells, s)

/-- What the entries of a mapping become, on top of those that are done. -/
def buildEntries (s : Draft) (done : List (Value × Cell)) :
    List (Nat × Nat) → Except Fault (List (Value × Cell) × Draft)
  | [] => .ok (done, s)
  | (k, v) :: rest => do
    match ← s.build k with
    | (.part _, _) => throw .malformed
    | (.atom key, s) =>
      let (c, s) ← s.build v
      s.buildEntries (Value.put key c done) rest

/-- What the entries of a mapping become once it has taken over those that it merges. -/
def buildMapping (s : Draft) (n : Nat) : Except Fault (List (Value × Cell) × Draft) := do
  let nodes ← s.nodes.flatten (s.nodes.entryCount + 1) [] n
  { s with nodes }.buildEntries [] ((nodes.entries? n).getD [])

def buildPart (s : Draft) (n : Nat) : Except Fault (Part × Draft) :=
  match s.nodes[n]? with
  | some ⟨.seq, .sequence items⟩ => do
    let (cells, s) ← s.buildAll items
    return (.list cells, s)
  | some ⟨.omap, .sequence items⟩ | some ⟨.pairs, .sequence items⟩ => do
    let (cells, s) ← s.buildPairs items
    return (.list cells, s)
  | some ⟨.map, .mapping _⟩ => do
    let (entries, s) ← s.buildMapping n
    return (.map entries, s)
  | some ⟨.set, .mapping _⟩ => do
    let (entries, s) ← s.buildMapping n
    return (.set (entries.map (·.1)), s)
  | _ => .error .malformed

/-- Puts the content into all parts, those first that were met first. No node is met twice, so there
are no more parts to fill than nodes. -/
def fill : Nat → Draft → Except Fault Draft
  | 0, s => .ok s
  | fuel + 1, s =>
    match s.pending with
    | [] => .ok s
    | (n, place) :: rest => do
      let (part, s) ← { s with pending := rest }.buildPart n
      fill fuel { s with parts := s.parts.set place part }

end Draft

/-- A fault in words; nothing for a document that is not well formed. -/
def Fault.message : Fault → String
  | .malformed => ""
  | .endless => "maximum recursion depth exceeded"
  | .escapeTooLarge n =>
    if n < Nat.pow 2 31 then "chr() arg not in range(0x110000)"
    else "Python int too large to convert to C int"
  | .badInteger text base =>
    "invalid literal for int() with base " ++ toString base ++ ": " ++ Text.quoted text
  | .longInteger digits =>
    "Exceeds the limit (" ++ toString Scalar.digitLimit ++
      " digits) for integer string conversion: value has " ++ toString digits ++
      " digits; use sys.set_int_max_str_digits() to increase the limit"
  | .badFloat text => "could not convert string to float: " ++ Text.quoted text
  | .emptyNumber => "string index out of range"
  | .badBoolean text => Text.quoted text
  | .badTimestamp => "'NoneType' object has no attribute 'groupdict'"
  | .badInstant description => description

/-- The document of a text; a text without a document stands for nothing. -/
def parse (s : List Char) : Except Fault ValueGraph := do
  let (root?, nodes) ← Node.parse s
  match root? with
  | none => return ⟨[], .atom .null⟩
  | some n =>
    let (root, s) ← Draft.build { nodes } n
    let s ← s.fill nodes.size
    return ⟨s.parts, root⟩

end Ripple.Yaml
