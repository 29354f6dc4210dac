import Ripple.Outline.Tree
import Ripple.Text.Basic

/-!
Syntax trees of script files, and what is read off them: the declared classes, their decorators, and
the entries of the object that a decorator is called with. The parser comes from elsewhere, so it is
a parameter, and whatever tree it makes of a file, the classes are those in the tree.
-/
namespace Ripple.Outline

/-- What a parser tells of one piece of a text. -/
structure SyntaxNode where
  kind : String
  /-- The role of the piece in the one around it, if it has a name. -/
  field : Option String
  /-- Whether the grammar has a name for the piece, which single words and marks do not have. -/
  isNamed : Bool
  text : String
  /-- The line on which the piece starts, counted from one. -/
  line : Nat
  deriving DecidableEq, Repr

/-- The parser of script files. -/
class ScriptParser where
  parse : List UInt8 → Tree SyntaxNode

namespace Tree

mutual

/-- The tree in whose places the nodes themselves stand, each with the node it is a part of. -/
def withOuter {α : Type} (outer : Option (Tree α)) : Tree α → Tree (Option (Tree α) × Tree α)
  | node a ts => node (outer, node a ts) (partsWithOuter (node a ts) ts)

def partsWithOuter {α : Type} (outer : Tree α) :
    List (Tree α) → List (Tree (Option (Tree α) × Tree α))
  | [] => []
  | t :: rest => withOuter (some outer) t :: partsWithOuter outer rest

end

variable (t : Tree SyntaxNode)

def children (kind : String) : List (Tree SyntaxNode) := t.parts.filter (·.label.kind = kind)

def child? (kind : String) : Option (Tree SyntaxNode) := t.parts.find? (·.label.kind = kind)

def field? (name : String) : Option (Tree SyntaxNode) := t.parts.find? (·.label.field = some name)

def named : List (Tree SyntaxNode) := t.parts.filter (·.label.isNamed)

end Tree

/-- An expression as written, with what a reader of options asks about it. -/
structure Expression where
  text : String
  /-- The elements of an array. -/
  elements : Option (List String)
  /-- The elements of an array that are neither texts nor comments. -/
  names : Option (List String)
  deriving DecidableEq, Repr

/-- A call or a mention of a decorator. -/
structure Decorator where
  /-- The name behind the last point. -/
  name : String
  /-- The entries of the first object among the arguments, in order, by their keys without quotes.
  An entry may be without a value. -/
  options : Option (List (String × Option Expression))
  deriving DecidableEq, Repr

structure ClassDeclaration where
  name : String
  /-- The line on which the statement starts. -/
  line : Nat
  decorators : List Decorator
  deriving DecidableEq, Repr

def quotes : List Char := "'\"\x60".toList

def Expression.ofTree (t : Tree SyntaxNode) : Expression where
  text := t.label.text
  elements := if t.label.kind = "array" then some (t.named.map (·.label.text)) else none
  names :=
    if t.label.kind = "array" then
      let bare := t.named.filter fun e =>
        !(["string", "template_string", "comment"].contains e.label.kind)
      some (bare.map (·.label.text))
    else none

def entriesOf (object : Tree SyntaxNode) : List (String × Option Expression) :=
  (object.children "pair").filterMap fun pair => (pair.field? "key").map fun key =>
    (String.ofList (Text.stripBy quotes.contains key.label.text.toList),
      (pair.field? "value").map .ofTree)

def decoratorOf? (t : Tree SyntaxNode) : Option Decorator :=
  let call := t.child? "call_expression"
  ((call.bind (·.field? "function")).or t.named.head?).map fun target =>
    { name := String.ofList (Text.afterLast '.' target.label.text.toList)
      options := ((call.bind (·.child? "arguments")).bind (·.child? "object")).map entriesOf }

/-- The class that a node declares. Decorators may also stand before the word that exports it. -/
def classOf (outer : Option (Tree SyntaxNode)) (t : Tree SyntaxNode) : ClassDeclaration :=
  let exporting := outer.filter (·.label.kind = "export_statement")
  { name := ((t.child? "type_identifier").map (·.label.text)).getD "Anonymous"
    line := (exporting.getD t).label.line
    decorators :=
      ((exporting.toList ++ [t]).flatMap (·.children "decorator")).filterMap decoratorOf? }

def classesOf (t : Tree SyntaxNode) : List ClassDeclaration :=
  ((t.withOuter none).descendants fun place => place.2.label.kind = "class_declaration").map
    fun place => classOf place.label.1 place.label.2

/-- The classes that a file declares. -/
def classesIn [ScriptParser] (octets : List UInt8) : List ClassDeclaration :=
  classesOf (ScriptParser.parse octets)

end Ripple.Outline
