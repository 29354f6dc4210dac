import Ripple.Yaml.Scalar

/-!
The nodes of a document. Nodes are read from tokens and numbered in the order in which they start.
An alias is the number of the node that its anchor names, also inside of that node.
-/
namespace Ripple.Yaml

/-- What a node is made of; other nodes are known by their numbers. -/
inductive Body where
  | scalar (content : Content)
  | sequence (items : List Nat)
  | mapping (entries : List (Nat × Nat))
  deriving DecidableEq, Repr

structure Node where
  tag : Tag
  body : Body
  deriving DecidableEq, Repr

/-- What reading nodes knows: the tokens to come, the nodes so far, the numbers of those with
anchors, and what the handles of tags stand for. -/
structure Outlook where
  tokens : List Token
  nodes : Array Node := #[]
  anchors : List (String × Nat) := []
  handles : List (String × String) := []

abbrev NodeReader := StateT Outlook (Except Fault)

namespace NodeReader

def malformed {α : Type} : NodeReader α := throw .malformed

def peek : NodeReader Token := do
  match (← get).tokens with
  | .fault f :: _ => throw f
  | t :: _ => return t
  | [] => malformed

def advance : NodeReader Unit := modify fun s => { s with tokens := s.tokens.tail }

def accept (t : Token) : NodeReader Bool := do
  if (← peek) == t then
    advance
    return true
  return false

def expect (t : Token) : NodeReader Unit := do
  if !(← accept t) then malformed

def nextIs (ts : List Token) : NodeReader Bool := return ts.contains (← peek)

def tagText (handle? : Option String) (suffix : String) : NodeReader String := do
  match handle? with
  | none => return suffix
  | some handle =>
    match (← get).handles.lookup handle with
    | some head => return head ++ suffix
    | none => malformed

def properties : NodeReader (Option String × Option String) := do
  match ← peek with
  | .anchor name => do
    advance
    match ← peek with
    | .tag handle? suffix => do
      advance
      return (some name, some (← tagText handle? suffix))
    | _ => return (some name, none)
  | .tag handle? suffix => do
    advance
    match ← peek with
    | .anchor name => do
      advance
      return (some name, some (← tagText handle? suffix))
    | _ => return (none, some (← tagText handle? suffix))
  | _ => return (none, none)

/-- Gives a node the next number, under an anchor if there is one. -/
def add (anchor? : Option String) (node : Node) : NodeReader Nat := do
  let s ← get
  let n := s.nodes.size
  let anchors := anchor?.elim s.anchors fun name => (name, n) :: s.anchors
  set { s with nodes := s.nodes.push node, anchors }
  return n

def empty : NodeReader Nat := add none ⟨.null, .scalar (some [])⟩

def collectionTag (tag? : Option String) (standard : Tag) : Tag :=
  match tag? with
  | none | some "!" => standard
  | some s => .ofText s

/-- The kind of a scalar: without a tag, a plain one is looked at. -/
def scalarTag (tag? : Option String) (content : Content) (isPlain : Bool) : Tag :=
  let looked := (content.map Scalar.plainTag).getD .str
  match tag? with
  | none => if isPlain then looked else .str
  | some "!" => looked
  | some s => .ofText s

/-- A collection, which has its number and its anchor before its parts are read. -/
def collection {α : Type} (anchor? : Option String) (tag : Tag) (body : List α → Body)
    (read : NodeReader (List α)) : NodeReader Nat := do
  let n ← add anchor? ⟨tag, body []⟩
  let parts ← read
  modify fun s => { s with nodes := s.nodes.setIfInBounds n ⟨tag, body parts⟩ }
  return n

mutual

/-- A node. Blocks may start only where `block` says so, and a sequence without indentation of its
own only where `hanging` says so. -/
def node (block hanging : Bool) : Nat → NodeReader Nat
  | 0 => malformed
  | fuel + 1 => do
    if let .alias name ← peek then
      advance
      match (← get).anchors.lookup name with
      | none => malformed
      | some n => return n
    else
      let (anchor?, tag?) ← properties
      let known := (← get).anchors
      if anchor?.any fun name => (known.lookup name).isSome then malformed
      let sequence := collection anchor? (collectionTag tag? .seq) .sequence
      let mapping := collection anchor? (collectionTag tag? .map) .mapping
      match ← peek with
      | .scalar content isPlain => do
        advance
        add anchor? ⟨scalarTag tag? content isPlain, .scalar content⟩
      | .flowSequenceStart => do
        advance
        sequence (flowItems true fuel)
      | .flowMappingStart => do
        advance
        mapping (flowEntries true fuel)
      | .blockSequenceStart => do
        if !block then malformed
        advance
        sequence (blockItems fuel)
      | .blockMappingStart => do
        if !block then malformed
        advance
        mapping (blockEntries fuel)
      | t =>
        if hanging && t == .blockEntry then sequence (hangingItems fuel)
        else if anchor?.isSome || tag?.isSome then
          add anchor? ⟨scalarTag tag? (some []) (tag? == none), .scalar (some [])⟩
        else malformed

def blockItems : Nat → NodeReader (List Nat)
  | 0 => malformed
  | fuel + 1 => do
    if ← accept .blockEntry then
      let item ← if ← nextIs [.blockEntry, .blockEnd] then empty else node true false fuel
      return item :: (← blockItems fuel)
    expect .blockEnd
    return []

/-- The items of a sequence without indentation of its own. -/
def hangingItems : Nat → NodeReader (List Nat)
  | 0 => malformed
  | fuel + 1 => do
    if ← accept .blockEntry then
      let item ←
        if ← nextIs [.blockEntry, .key, .value, .blockEnd] then empty
        else node true false fuel
      return item :: (← hangingItems fuel)
    return []

def blockPart : Nat → NodeReader Nat
  | 0 => malformed
  | fuel + 1 => do
    if ← nextIs [.key, .value, .blockEnd] then empty else node true true fuel

def blockEntries : Nat → NodeReader (List (Nat × Nat))
  | 0 => malformed
  | fuel + 1 => do
    if ← accept .key then
      let key ← blockPart fuel
      let value ← if ← accept .value then blockPart fuel else empty
      return (key, value) :: (← blockEntries fuel)
    expect .blockEnd
    return []

/-- A part of an entry in brackets, which may be missing in front of the given tokens. -/
def flowPart (ends : List Token) : Nat → NodeReader Nat
  | 0 => malformed
  | fuel + 1 => do
    if ← nextIs ends then empty else node false false fuel

def flowItems (first : Bool) : Nat → NodeReader (List Nat)
  | 0 => malformed
  | fuel + 1 => do
    if ← accept .flowSequenceEnd then return []
    if !first then expect .flowEntry
    if ← accept .key then
      let key ← flowPart [.value, .flowEntry, .flowSequenceEnd] fuel
      let value ←
        if ← accept .value then flowPart [.flowEntry, .flowSequenceEnd] fuel else empty
      let pair ← add none ⟨.map, .mapping [(key, value)]⟩
      return pair :: (← flowItems false fuel)
    if ← accept .flowSequenceEnd then return []
    let item ← node false false fuel
    return item :: (← flowItems false fuel)

def flowEntries (first : Bool) : Nat → NodeReader (List (Nat × Nat))
  | 0 => malformed
  | fuel + 1 => do
    if ← accept .flowMappingEnd then return []
    if !first then expect .flowEntry
    if ← accept .key then
      let key ← flowPart [.value, .flowEntry, .flowMappingEnd] fuel
      let value ←
        if ← accept .value then flowPart [.flowEntry, .flowMappingEnd] fuel else empty
      return (key, value) :: (← flowEntries false fuel)
    if ← accept .flowMappingEnd then return []
    let key ← node false false fuel
    let value ← empty
    return (key, value) :: (← flowEntries false fuel)

end

/-- What the handles of tags stand for if no directive says otherwise. -/
def standardHandles : List (String × String) := [("!", "!"), ("!!", "tag:yaml.org,2002:")]

def directives : Nat → Bool → NodeReader Unit
  | 0, _ => malformed
  | fuel + 1, versioned => do
    match ← peek with
    | .versionDirective major => do
      if versioned || major != 1 then malformed
      advance
      directives fuel true
    | .tagDirective handle head => do
      if ((← get).handles.lookup handle).isSome then malformed
      modify fun s => { s with handles := (handle, head) :: s.handles }
      advance
      directives fuel versioned
    | .otherDirective => do
      advance
      directives fuel versioned
    | _ => modify fun s => { s with handles := s.handles ++ standardHandles }

/-- Goes behind the marks of finished documents. -/
def documentEnds : Nat → NodeReader Unit
  | 0 => return ()
  | fuel + 1 => do
    if ← accept .documentEnd then documentEnds fuel

/-- The only document of a text, if there is one. -/
def document : NodeReader (Option Nat) := do
  let fuel := 4 * (← get).tokens.length + 8
  let isMark : Token → Bool := fun
    | .versionDirective _ | .tagDirective .. | .otherDirective | .documentStart => true
    | _ => false
  if (← peek) == .streamEnd then return none
  let root ←
    if isMark (← peek) then do
      directives fuel false
      expect .documentStart
      let t ← peek
      if isMark t || t == .documentEnd || t == .streamEnd then empty
      else node true false fuel
    else do
      modify fun s => { s with handles := standardHandles }
      node true false fuel
  documentEnds fuel
  expect .streamEnd
  return some root

end NodeReader

/-- The nodes of a text with the number of the one at the top, if it has a document. -/
def Node.parse (s : List Char) : Except Fault (Option Nat × Array Node) :=
  (NodeReader.document.run { tokens := Yaml.tokens s }).map fun (root?, s) => (root?, s.nodes)

end Ripple.Yaml
