import Ripple.Graphql.Excerpt
import Ripple.Graphql.Reader
import Ripple.Graphql.Rules

/-!
Schemas. A schema has its own types, each with what its extensions add, and its directives, followed
by the built-in directives that it does not define itself. The standard types are left out.
-/
namespace Ripple.Graphql

structure Schema where
  types : List TypeDef
  directives : List DirectiveDef
  deriving DecidableEq, Repr

/-- A value that a built-in directive cannot take. -/
structure ArgumentFault where
  position : Nat
  description : String
  deriving DecidableEq, Repr

/-- Why a text gives no schema. -/
inductive SchemaFault where
  | malformed (fault : SyntaxFault)
  | invalid (complaints : List String)
  | badArgument (fault : ArgumentFault)
  /-- A bad argument inside the fields of a type. -/
  | badFields (type : String) (fault : ArgumentFault)
  deriving DecidableEq, Repr

namespace SchemaFault

/-- A fault in words; `document` is the text that has the fault. -/
def message (document : List Char) : SchemaFault → String
  | malformed f => "Syntax Error: " ++ f.description
  | invalid complaints => "\n\n".intercalate complaints
  | badArgument f => f.description
  | badFields type f =>
    type ++ " fields cannot be resolved. " ++ f.description ++ "\n\n" ++
      Excerpt.text document f.position

def locations (document : List Char) : SchemaFault → List (Nat × Nat)
  | malformed f => [location document f.position]
  | badArgument f => [location document f.position]
  | invalid _ | badFields .. => []

end SchemaFault

namespace Schema

/-- A definition with what the extensions of its name add. -/
def extended (doc : Document) (d : TypeDef) : TypeDef :=
  let parts := d :: doc.extensions.filter (·.name = d.name)
  { d with
    interfaces := parts.flatMap (·.interfaces)
    fields := parts.flatMap (·.fields)
    members := parts.flatMap (·.members)
    values := parts.flatMap (·.values)
    inputs := parts.flatMap (·.inputs) }

def ofDocument (doc : Document) : Schema :=
  let own := doc.directives
  { types := (doc.types.filter fun d => !Builtin.typeNames.contains d.name).map (extended doc)
    directives := own ++ Builtin.directives.filter fun d => !(own.map (·.name)).contains d.name }

def textFault? (directive argument : String) (type : TypeRef) (ds : List Directive) :
    Option ArgumentFault := do
  let d ← ds.find? (·.name = directive)
  match d.arguments.reverse.find? (·.name = argument) with
  | none =>
    if type.isNonNull then
      some ⟨d.position, "Argument '" ++ argument ++ "' of required type '" ++ type.text ++
        "' was not provided."⟩
    else none
  | some a =>
    let invalid (why : String) : Option ArgumentFault :=
      some ⟨a.position, "Argument '" ++ argument ++ "' has invalid value: " ++ why⟩
    match a.value with
    | .string .. => none
    | .null =>
      if type.isNonNull then
        invalid ("Expected value of non-null type '" ++ type.text ++ "' not to be null.")
      else none
    | other => invalid ("String cannot represent a non string value: " ++ other.text)

def reasonFault? (ds : List Directive) : Option ArgumentFault :=
  textFault? "deprecated" "reason" (.named "String") ds

def inputsFault? (ds : List InputDef) : Option ArgumentFault :=
  ds.findSome? fun d => reasonFault? d.directives

def ownFault? (d : TypeDef) : Option ArgumentFault :=
  match d.kind with
  | .scalar => textFault? "specifiedBy" "url" (.nonNull (.named "String")) d.directives
  | .enum => d.values.findSome? fun v => reasonFault? v.directives
  | _ => none

def fieldsFault? (d : TypeDef) : Option ArgumentFault :=
  (d.fields.findSome? fun f => (inputsFault? f.arguments).or (reasonFault? f.directives)).or
    (inputsFault? d.inputs)

/-- The first bad argument: types and directives come before the fields of types. -/
def fault? (s : Schema) : Option SchemaFault :=
  ((s.types.findSome? ownFault?).map .badArgument).or <|
  ((s.directives.findSome? fun d => inputsFault? d.arguments).map .badArgument).or <|
    s.types.findSome? fun d => (fieldsFault? d).map (.badFields d.name)

def parse (document : List Char) : Except SchemaFault Schema := do
  let doc ← (Document.parse document).mapError .malformed
  let complaints := doc.faults
  if !complaints.isEmpty then throw (.invalid complaints)
  let s := ofDocument doc
  match s.fault? with
  | some f => throw f
  | none => return s

end Schema

end Ripple.Graphql
