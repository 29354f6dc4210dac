import Ripple.Outline.Nesting
import Ripple.Outline.ScriptToken
import Ripple.Outline.Syntax
import Ripple.Text.Utf8

/-!
A parser of TypeScript source files that makes out as much as is read off a tree: the classes that
are declared by statements of their own, with their decorators and the objects that these are called
with. It serves the program where no complete parser is at hand.
-/
namespace Ripple.Outline.ScriptSource

/-- Marks that occur in types, besides angles. -/
def typeMarks : List String := [".", ",", "|", "&", "=>", "?", ":"]

/-- What is left behind the closing angle, if the items look like types up to it; `depth` counts the
open angles. -/
def behindAngles : Nat → List Item → Option (List Item)
  | _, [] => none
  | depth, i :: rest =>
    if i.isMark "<" then behindAngles (depth + 1) rest
    else if i.isMark ">" then if depth = 0 then some rest else behindAngles (depth - 1) rest
    else
      match i with
      | .group .. => behindAngles depth rest
      | .token t =>
        match t.shape with
        | .mark => if typeMarks.contains t.text then behindAngles depth rest else none
        | .pattern => none
        | _ => behindAngles depth rest

/-- Marks that may start an expression and so do not follow types. -/
def expressionMarks : List String := ["-", "+", "!", "~", "..."]

/-- Whether what follows a closing angle lets the angles stand around types. -/
def followsTypes : List Item → Bool
  | [] => true
  | i :: _ =>
    match i with
    | .group o _ _ => o.text != "\x7b" && o.text != "["
    | .token t =>
      t.shape == .template || t.shape == .mark && !expressionMarks.contains t.text

/-- The number of the items that are types in angles, if a list starts behind an opening angle of
such. -/
def typeArguments (items : List Item) : Nat :=
  match behindAngles 0 items with
  | some rest => if followsTypes rest then items.length - rest.length else 0
  | none => 0

/-- The pieces between the commas of a list, where commas between the angles of types do not count;
`inTypes` more items belong to such. -/
def piecesFrom : Nat → List Item → List (List Item)
  | _, [] => [[]]
  | inTypes, i :: rest =>
    let joined (pieces : List (List Item)) : List (List Item) :=
      match pieces with
      | [] => [[i]]
      | piece :: more => (i :: piece) :: more
    match inTypes with
    | n + 1 => joined (piecesFrom n rest)
    | 0 =>
      if i.isMark "," then [] :: piecesFrom 0 rest
      else joined (piecesFrom (if i.isMark "<" then typeArguments rest else 0) rest)

/-- The elements of a list between brackets; empty places have none. -/
def pieces (items : List Item) : List (List Item) :=
  (piecesFrom 0 items).filter fun piece => !piece.isEmpty

def branch (source : List Char) (kind : String) (items : List Item) (parts : List (Tree SyntaxNode))
    (field : Option String := none) : Tree SyntaxNode :=
  .node ⟨kind, field, true, sourceOf source items, (items.head?.map (·.line)).getD 0⟩ parts

def kindOf : List Item → String
  | [.token t] =>
    match t.shape with
    | .quoted => "string"
    | .template => "template_string"
    | .word => "identifier"
    | _ => "expression"
  | [.group o _ _] =>
    if o.text = "[" then "array"
    else if o.text = "\x7b" then "object"
    else if Text.startsWith o.text "\x60" then "template_string"
    else "expression"
  | _ => "expression"

/-- The value of an entry. Of the expressions inside only the elements of an array are told. -/
def valueTree (source : List Char) (items : List Item) : Tree SyntaxNode :=
  let elements :=
    match items with
    | [only] => ((only.inside? "[").map pieces).getD []
    | _ => []
  branch source (kindOf items) items (elements.map fun e => branch source (kindOf e) e [])
    (some "value")

/-- The entry that a piece between braces is, if it has a key and a value. -/
def pairTree? (source : List Char) (items : List Item) : Option (Tree SyntaxNode) :=
  match items with
  | key :: colon :: first :: rest =>
    if colon.isMark ":" then
      some (branch source "pair" items
        [branch source "property_identifier" [key] [] (some "key"),
          valueTree source (first :: rest)])
    else none
  | _ => none

/-- The first object among arguments. -/
def objectTree? (source : List Char) (arguments : List Item) : Option (Tree SyntaxNode) :=
  (pieces arguments).findSome? fun
    | [only] => (only.inside? "\x7b").map fun inner =>
        branch source "object" [only] ((pieces inner).filterMap (pairTree? source))
    | _ => none

def path : List Item → List Item
  | i :: point :: next :: rest =>
    if point.isMark "." && next.word?.isSome then i :: point :: path (next :: rest) else [i]
  | i :: _ => [i]
  | [] => []

/-- A list without the types in angles at its start, if brackets follow them. -/
def dropTypes (items : List Item) : List Item :=
  match items with
  | angle :: rest =>
    if angle.isMark "<" then
      match behindAngles 0 rest with
      | some (next :: more) => if (next.inside? "(").isSome then next :: more else items
      | _ => items
    else items
  | [] => []

def decoratorTree? (source : List Char) (items : List Item) :
    Option (Tree SyntaxNode × List Item) :=
  match items with
  | [] => none
  | first :: rest =>
    let mention (callee : List Item) : Tree SyntaxNode :=
      branch source "decorator" callee [branch source (kindOf callee) callee []]
    if first.word?.isSome then
      let callee := path items
      let left := items.drop callee.length
      match dropTypes left with
      | next :: more =>
        match next.inside? "(" with
        | some arguments =>
          let call := branch source "call_expression" (callee ++ [next])
            [branch source (kindOf callee) callee [] (some "function"),
              branch source "arguments" [next] (objectTree? source arguments).toList]
          some (branch source "decorator" (callee ++ [next]) [call], more)
        | none => some (mention callee, left)
      | [] => some (mention callee, left)
    else if (first.inside? "(").isSome then some (mention [first], rest)
    else none

def decoratorTrees (source : List Char) : Nat → List Item → List (Tree SyntaxNode) × List Item
  | 0, items => ([], items)
  | fuel + 1, items =>
    match items with
    | sign :: rest =>
      if sign.isMark "@" then
        match decoratorTree? source rest with
        | some (d, left) =>
          let (more, left) := decoratorTrees source fuel left
          (d :: more, left)
        | none => ([], items)
      else ([], items)
    | [] => ([], items)

/-- Words that name the bases of a class, so that a class without a name may go on with them. -/
def heritageWords : List String := ["extends", "implements"]

def classTree? (source : List Char) (items : List Item) : Option (Tree SyntaxNode) := do
  let (outer, left) := decoratorTrees source items.length items
  let isExported := (left.head?.map (·.isWord "export")).getD false
  let left := if isExported then left.tail else left
  let isDefault := isExported && (left.head?.map (·.isWord "default")).getD false
  let left := if isDefault then left.tail else left
  let (inner, left) := if isExported then decoratorTrees source left.length left else ([], left)
  match left with
  | keyword :: name :: _ =>
    if keyword.isWord "class" && name.word?.any fun word => !heritageWords.contains word then
      let named := branch source "type_identifier" [name] []
      let heading := items.take 1
      if isExported then
        let declaration := branch source "class_declaration" [keyword, name] (inner ++ [named])
        some (branch source "export_statement" heading (outer ++ [declaration]))
      else some (branch source "class_declaration" heading (outer ++ [named]))
    else none
  | _ => none

/-- Whether a statement can start behind an item; `isMember` says that it is behind a point. -/
def endsStatement (isMember : Bool) : Item → Bool
  | .group .. => true
  | .token t =>
    match t.shape with
    | .word => isMember || !operandWords.contains t.text
    | .mark => [";", ">", "++", "--", "!"].contains t.text
    | _ => true

structure Context where
  /-- Whether a class has been found whose keyword is still to come. -/
  inHeading : Bool
  last : Option Item
  /-- Whether the last item is a name behind a point. -/
  isMember : Bool

namespace Context

def start : Context := ⟨false, none, false⟩

def behind (c : Context) (i : Item) (inHeading : Bool) : Context :=
  ⟨inHeading, some i, i.word?.isSome && c.last.any fun p => p.isMark "." || p.isMark "?."⟩

/-- Whether a statement can start with an item. On a new line no word asks for more. -/
def canStart (c : Context) (inBlock : Bool) (i : Item) : Bool :=
  match c.last with
  | none => inBlock
  | some p => endsStatement c.isMember p || p.word?.isSome && decide (p.line < i.line)

end Context

def treesOf (source : List Char) (inBlock : Bool) :
    Context → List Item → List (Tree SyntaxNode)
  | _, [] => []
  | c, .group o inside closing :: rest =>
    let isBlock := o.text = "\x7b"
    branch source (if isBlock then "statement_block" else "expression") []
        (treesOf source isBlock .start inside) ::
      treesOf source inBlock (c.behind (.group o inside closing) c.inHeading) rest
  | c, .token t :: rest =>
    if c.inHeading then treesOf source inBlock (c.behind (.token t) (!t.isWord "class")) rest
    else
      let found :=
        if (t.isMark "@" || t.isWord "export") && c.canStart inBlock (.token t) then
          classTree? source (.token t :: rest)
        else none
      found.toList ++ treesOf source inBlock (c.behind (.token t) found.isSome) rest

def fileTree (source : List Char) : Tree SyntaxNode :=
  branch source "program" [] (treesOf source true .start (nest (tokens step .start source)))

instance parser : ScriptParser where
  parse octets := fileTree (Text.Utf8.decodeLossy octets)

end Ripple.Outline.ScriptSource
