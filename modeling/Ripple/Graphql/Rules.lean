import Ripple.Gathering
import Ripple.Graphql.Document
import Ripple.Text.Nearest

/-!
The rules for documents that define a schema. Each rule says what it complains about at one place of
the document, given the whole document and the definitions before that place; the complaints of a
document come in the order of its places.
-/
namespace Ripple.Graphql.Rules

open Text.Nearest (question)

/-- The names that stand in the second list and also in the first or earlier in the second. -/
def repeats {α : Type} [BEq α] : List α → List α → List α
  | _, [] => []
  | seen, a :: rest => if seen.contains a then a :: repeats seen rest else repeats (a :: seen) rest

/-- The names that a list has more than once, each named once. -/
def duplicated (names : List String) : List String :=
  (distinct names).filter fun a => 1 < names.count a

/-- The directive of a name: the last one that the document defines, or a built-in one. -/
def directiveNamed? (doc : Document) (name : String) : Option DirectiveDef :=
  match doc.directives.reverse.find? (·.name = name) with
  | some d => some d
  | none => Builtin.directives.find? (·.name = name)

def typeNames (doc : Document) : List String := doc.types.map (·.name)

/-- Types have to be known; `defining` tells type system definitions from operations. -/
def unknownType (doc : Document) (defining : Bool) (name : String) : List String :=
  let standard := if defining then Builtin.typeNames else []
  if (typeNames doc).contains name ∨ standard.contains name then []
  else ["Unknown type '" ++ name ++ "'." ++ question name (standard ++ typeNames doc)]

/-- A directive that may stand only once at a place stands there again. -/
def repeatedDirectives (doc : Document) (before here : List Directive) : List String :=
  let single (ds : List Directive) : List String :=
    (ds.map (·.name)).filter fun name =>
      ((directiveNamed? doc name).map fun d => !d.repeatable).getD false
  (repeats (single before) (single here)).map fun name =>
    "The directive '@" ++ name ++ "' can only be used once at this location."

def repeatedArguments (args : List Argument) : List String :=
  (duplicated (args.map (·.name))).map fun name =>
    "There can be only one argument named '" ++ name ++ "'."

/-- Object literals name each field once. -/
def literalFaults : Literal → List String
  | .list items => itemFaults items
  | .object fields => fieldFaults [] fields
  | _ => []
where
  itemFaults : List Literal → List String
    | [] => []
    | l :: rest => literalFaults l ++ itemFaults rest
  fieldFaults (seen : List String) : List (String × Literal) → List String
    | [] => []
    | (key, l) :: rest =>
      (if seen.contains key then ["There can be only one input field named '" ++ key ++ "'."]
        else []) ++
        literalFaults l ++ fieldFaults (key :: seen) rest

def misplaced (d : DirectiveDef) (place : Location) : List String :=
  if d.locations.contains place then []
  else ["Directive '@" ++ d.name ++ "' may not be used on " ++ " ".intercalate place.words ++ "."]

def unknownArguments (d : DirectiveDef) (args : List Argument) : List String :=
  args.filterMap fun a =>
    let known := d.arguments.map (·.name)
    if known.contains a.name then none
    else some ("Unknown argument '" ++ a.name ++ "' on directive '@" ++ d.name ++ "'." ++
      question a.name known)

def missingArguments (d : DirectiveDef) (args : List Argument) : List String :=
  d.arguments.filterMap fun a =>
    if a.isRequired ∧ !(args.map (·.name)).contains a.name then
      some ("Argument '@" ++ d.name ++ "(" ++ a.name ++ ":)' of type '" ++ a.type.text ++
        "' is required, but it was not provided.")
    else none

def directiveFaults (doc : Document) (place : Location) (d : Directive) : List String :=
  let inside := repeatedArguments d.arguments ++ d.arguments.flatMap fun a => literalFaults a.value
  match directiveNamed? doc d.name with
  | none => ("Unknown directive '@" ++ d.name ++ "'.") :: inside
  | some def_ =>
    misplaced def_ place ++ unknownArguments def_ d.arguments ++ inside ++
      missingArguments def_ d.arguments

def directivesFaults (doc : Document) (place : Location) (ds : List Directive) : List String :=
  ds.flatMap (directiveFaults doc place)

def defaultFaults (literal? : Option Literal) : List String :=
  (literal?.map literalFaults).getD []

def inputFaults (doc : Document) (place : Location) (d : InputDef) : List String :=
  repeatedDirectives doc [] d.directives ++ unknownType doc true d.type.base ++
    defaultFaults d.default? ++ directivesFaults doc place d.directives

def fieldFaults (doc : Document) (d : FieldDef) : List String :=
  repeatedDirectives doc [] d.directives ++
    d.arguments.flatMap (inputFaults doc .argumentDefinition) ++
    unknownType doc true d.type.base ++ directivesFaults doc .fieldDefinition d.directives

def valueFaults (doc : Document) (d : EnumValueDef) : List String :=
  repeatedDirectives doc [] d.directives ++ directivesFaults doc .enumValue d.directives

def typePart? : Definition → Option TypeDef
  | .type d | .extension d => some d
  | _ => none

/-- The earlier parts of the type of this name. -/
def earlierParts (before : List Definition) (name : String) : List TypeDef :=
  (before.filterMap typePart?).filter (·.name = name)

def repeatedValues (before : List Definition) (d : TypeDef) : List String :=
  let seen := (earlierParts before d.name).flatMap fun e => e.values.map (·.name)
  (repeats seen (d.values.map (·.name))).map fun name =>
    "Enum value '" ++ d.name ++ "." ++ name ++ "' can only be defined once."

def fieldNames (d : TypeDef) : List String := d.fields.map (·.name) ++ d.inputs.map (·.name)

def repeatedFields (before : List Definition) (d : TypeDef) : List String :=
  let seen := (earlierParts before d.name).flatMap fieldNames
  (repeats seen (fieldNames d)).map fun name =>
    "Field '" ++ d.name ++ "." ++ name ++ "' can only be defined once."

def repeatedInputs (owner : String) (ds : List InputDef) : List String :=
  (duplicated (ds.map (·.name))).map fun name =>
    "Argument '" ++ owner ++ "(" ++ name ++ ":)' can only be defined once."

/-- What is wrong with a part of a type on its own and beside the earlier parts. -/
def partFaults (doc : Document) (before : List Definition) (d : TypeDef) : List String :=
  repeatedValues before d ++ repeatedFields before d ++
    d.fields.flatMap (fun f => repeatedInputs (d.name ++ "." ++ f.name) f.arguments) ++
    repeatedDirectives doc ((earlierParts before d.name).flatMap (·.directives)) d.directives

def insideFaults (doc : Document) (d : TypeDef) : List String :=
  d.interfaces.flatMap (unknownType doc true) ++
    directivesFaults doc d.kind.location d.directives ++
    d.fields.flatMap (fieldFaults doc) ++
    d.members.flatMap (unknownType doc true) ++
    d.values.flatMap (valueFaults doc) ++
    d.inputs.flatMap (inputFaults doc .inputFieldDefinition)

/-- Only a defined type can be extended, and only by the kind it has. -/
def extensionFaults (doc : Document) (d : TypeDef) : List String :=
  match doc.types.reverse.find? (·.name = d.name) with
  | some t =>
    if t.kind = d.kind then []
    else ["Cannot extend non-" ++ d.kind.text ++ " type '" ++ d.name ++ "'."]
  | none =>
    ["Cannot extend type '" ++ d.name ++ "' because it is not defined." ++
      question d.name (typeNames doc)]

def isSchema : Definition → Bool
  | .schema isExtension _ _ => !isExtension
  | _ => false

def roots : Definition → List OperationKind
  | .schema _ _ rs => rs.map (·.1)
  | _ => []

def schemaDirectives : Definition → List Directive
  | .schema _ ds _ => ds
  | _ => []

def selectionFaults (doc : Document) : Selection → List String
  | .field args ds inner =>
    repeatedDirectives doc [] ds ++ repeatedArguments args ++
      args.flatMap (fun a => literalFaults a.value) ++ directivesFaults doc .field ds ++ all inner
  | .spread ds => repeatedDirectives doc [] ds ++ directivesFaults doc .fragmentSpread ds
  | .inline condition? ds inner =>
    repeatedDirectives doc [] ds ++ condition?.toList.flatMap (unknownType doc false) ++
      directivesFaults doc .inlineFragment ds ++ all inner
where
  all : List Selection → List String
    | [] => []
    | s :: rest => selectionFaults doc s ++ all rest

def variableFaults (doc : Document) (d : VariableDef) : List String :=
  repeatedDirectives doc [] d.directives ++ unknownType doc false d.type.base ++
    defaultFaults d.default? ++ directivesFaults doc .variableDefinition d.directives

def definitionFaults (doc : Document) (before : List Definition) : Definition → List String
  | .operation kind _ vars ds selections =>
    repeatedDirectives doc [] ds ++ vars.flatMap (variableFaults doc) ++
      directivesFaults doc kind.location ds ++ selections.flatMap (selectionFaults doc)
  | .fragment condition ds selections =>
    repeatedDirectives doc [] ds ++ unknownType doc false condition ++
      directivesFaults doc .fragmentDefinition ds ++ selections.flatMap (selectionFaults doc)
  | .schema isExtension ds rs =>
    (if !isExtension ∧ before.any isSchema then ["Must provide only one schema definition."]
      else []) ++
      ((repeats (before.flatMap roots) (rs.map (·.1))).map fun kind =>
        "There can be only one " ++ kind.text ++ " type in schema.") ++
      repeatedDirectives doc (before.flatMap schemaDirectives) ds ++
      directivesFaults doc .schema ds ++ rs.flatMap (fun r => unknownType doc true r.2)
  | .type d =>
    (if (Document.types before).any (·.name = d.name) then
        ["There can be only one type named '" ++ d.name ++ "'."]
      else []) ++
      partFaults doc before d ++ insideFaults doc d
  | .extension d => partFaults doc before d ++ extensionFaults doc d ++ insideFaults doc d
  | .directive d =>
    repeatedInputs ("@" ++ d.name) d.arguments ++
      (if (Document.directives before).any (·.name = d.name) then
        ["There can be only one directive named '@" ++ d.name ++ "'."]
      else []) ++
      d.arguments.flatMap (inputFaults doc .argumentDefinition)

def faultsFrom (doc : Document) (before : List Definition) : List Definition → List String
  | [] => []
  | d :: rest => definitionFaults doc before d ++ faultsFrom doc (before ++ [d]) rest

end Rules

/-- What the rules complain about in a document; nothing if it may define a schema. -/
def Document.faults (doc : Document) : List String := Rules.faultsFrom doc [] doc

end Ripple.Graphql
