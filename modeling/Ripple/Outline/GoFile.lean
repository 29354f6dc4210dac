import Ripple.Outline.GoToken
import Ripple.Outline.Nesting
import Ripple.Outline.Tree
import Ripple.Text.Basic

/-!
The declarations of a Go source file: its package, functions and methods, structs and interfaces.
The tree that is searched has the declarations and the brackets around them, and nothing else.
-/
namespace Ripple.Outline

structure GoSymbol where
  name : String
  line : Nat
  deriving DecidableEq, Repr

structure GoStruct where
  name : String
  line : Nat
  /-- Whether a field says how it is called in JSON. -/
  hasJsonTags : Bool
  deriving DecidableEq, Repr

/-- The declarations of one file. Functions come before methods. -/
structure GoFile where
  package : String
  functions : List GoSymbol
  structs : List GoStruct
  interfaces : List GoSymbol
  deriving DecidableEq, Repr

namespace GoSource

/-- The form of a declared type, as far as it matters. -/
inductive TypeForm where
  | struct (text : String)
  | interface
  | other
  deriving DecidableEq, Repr

structure TypeDeclaration where
  name : String
  line : Nat
  form : TypeForm
  deriving DecidableEq, Repr

inductive Declaration where
  /-- brackets, or the whole file -/
  | scope
  | package (name : String)
  | function (s : GoSymbol)
  | method (s : GoSymbol)
  /-- the declaration of one type or of several in round brackets -/
  | types
  | type (d : TypeDeclaration)
  deriving DecidableEq, Repr

def name? (i : Item) : Option String :=
  match i.word? with
  | some w => if keywords.contains w then none else some w
  | none => none

def dropEndings (items : List Item) : List Item := items.dropWhile Item.isEnding

/-- Whether what stands behind a name in square brackets makes the name a type parameter, and not
the start of an array's length. Behind a star, a name goes on with the length. -/
def constrains (behindStar : Bool) : List Item → Bool
  | [] => false
  | i :: rest =>
    match i.inside? "[" with
    | some [] => true
    | some _ => constrains false rest
    | none =>
      if i.isMark "*" then constrains true rest
      else if behindStar then i.word?.isSome && (name? i).isNone
      else i.word?.isSome || i.isMark "~" || i.isMark "<-"

/-- Whether the items in the square brackets behind a type's name are type parameters. -/
def areParameters (items : List Item) : Bool :=
  items.any (·.isMark ",") ||
    match items with
    | first :: rest => (name? first).isSome && constrains false rest
    | [] => false

def formOf (source : List Char) (items : List Item) : TypeForm :=
  match dropEndings items with
  | first :: rest =>
    if first.isWord "struct" then
      match dropEndings rest with
      | fields :: _ => .struct (slice source first.start fields.stop)
      | [] => .other
    else if first.isWord "interface" then .interface
    else .other
  | [] => .other

/-- The declaration of a type that items start with, unless it only gives a type another name. -/
def type? (source : List Char) (items : List Item) : Option TypeDeclaration := do
  let first ← items.head?
  let name ← name? first
  let rest := dropEndings items.tail
  let next ← rest.head?
  let declared (form : TypeForm) : TypeDeclaration := ⟨name, first.line, form⟩
  match next.inside? "[" with
  | some bracketed =>
    if areParameters bracketed then
      let rest := dropEndings rest.tail
      if (rest.head?.map (·.isMark "=")).getD false then none
      else some (declared (formOf source rest))
    else some (declared .other)
  | none => if next.isMark "=" then none else some (declared (formOf source rest))

/-- The declarations in round brackets: each starts behind the end of a statement. -/
def typesIn (source : List Char) : Bool → List Item → List TypeDeclaration
  | _, [] => []
  | isStart, i :: rest =>
    let ends := i.isEnding || i.isMark ";"
    let declared := if isStart then (type? source (i :: rest)).toList else []
    declared ++ typesIn source ends rest

/-- The types that the items behind the word `type` declare. -/
def typesBehind (source : List Char) (items : List Item) : List TypeDeclaration :=
  let items := dropEndings items
  match items.head?.bind (·.inside? "(") with
  | some bracketed => typesIn source true bracketed
  | none => (type? source items).toList

def topLevel? (i : Item) (rest : List Item) : Option Declaration :=
  if i.isWord "package" then (rest.head?.bind Item.word?).map .package
  else if i.isWord "func" then
    match rest with
    | next :: after =>
      match name? next, next.inside? "(", after with
      | some name, _, _ => some (.function ⟨name, i.line⟩)
      | none, some _, named :: parameters :: _ =>
        match name? named, parameters.inside? "(" with
        | some name, some _ => some (.method ⟨name, i.line⟩)
        | _, _ => none
      | _, _, _ => none
    | [] => none
  else none

/-- The trees of a list of items. `isTop` says that they are in no brackets, and `isStart` that a
statement starts here. -/
def treesOf (source : List Char) : Bool → Bool → List Item → List (Tree Declaration)
  | _, _, [] => []
  | isTop, _, .group _ inside _ :: rest =>
    .node .scope (treesOf source false true inside) :: treesOf source isTop false rest
  | isTop, isStart, .token t :: rest =>
    let i := Item.token t
    let here : List (Tree Declaration) :=
      if i.isWord "type" then
        match typesBehind source rest with
        | [] => []
        | types => [.node .types (types.map fun d => .node (.type d) [])]
      else if isTop && isStart then (topLevel? i rest).toList.map fun d => .node d []
      else []
    here ++ treesOf source isTop (i.isEnding || i.isMark ";") rest

def fileTree (source : List Char) : Tree Declaration :=
  .node .scope (treesOf source true true (nest (tokens step () source)))

end GoSource

/-- The declarations of a source file. A file without a package is taken for a program. -/
def GoFile.read (source : String) : GoFile :=
  let tree := GoSource.fileTree source.toList
  let types := tree.collect fun | .type d => some d | _ => none
  { package := (tree.collect fun | .package name => some name | _ => none).headD "main"
    functions :=
      (tree.collect fun | .function s => some s | _ => none) ++
        tree.collect fun | .method s => some s | _ => none
    structs := types.filterMap fun d =>
      match d.form with
      | .struct text => some ⟨d.name, d.line, Text.has text "json:"⟩
      | _ => none
    interfaces := types.filterMap fun d =>
      match d.form with
      | .interface => some ⟨d.name, d.line⟩
      | _ => none }

end Ripple.Outline
