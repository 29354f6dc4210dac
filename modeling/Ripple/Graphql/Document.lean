/-!
GraphQL documents as data: type references, literals, directives and definitions. Definitions carry
what comparing two schemas and checking one document need; descriptions are left out. Every schema
holds some definitions without saying so: the standard scalars, the types that describe a schema,
and five directives.
-/
namespace Ripple.Graphql

inductive TypeRef where
  | named (name : String)
  | list (item : TypeRef)
  | nonNull (inner : TypeRef)
  deriving DecidableEq, Repr

namespace TypeRef

def text : TypeRef → String
  | named name => name
  | list item => "[" ++ item.text ++ "]"
  | nonNull inner => inner.text ++ "!"

def base : TypeRef → String
  | named name => name
  | list item => item.base
  | nonNull inner => inner.base

def isNonNull : TypeRef → Bool
  | nonNull _ => true
  | _ => false

end TypeRef

/-- A literal as written; numbers keep their text. -/
inductive Literal where
  | reference (variableName : String)
  | int (text : String)
  | float (text : String)
  | string (text : String) (isBlock : Bool)
  | boolean (b : Bool)
  | null
  | enum (name : String)
  | list (items : List Literal)
  | object (fields : List (String × Literal))
  deriving Repr

namespace Literal

mutual

def same : Literal → Literal → Bool
  | .reference x, .reference y | .int x, .int y | .float x, .float y | .enum x, .enum y => x = y
  | .string x isBlock, .string y isBlock' => x = y && isBlock = isBlock'
  | .boolean b, .boolean c => b = c
  | .null, .null => true
  | .list xs, .list ys => sameItems xs ys
  | .object es, .object fs => sameFields es fs
  | _, _ => false

def sameItems : List Literal → List Literal → Bool
  | [], [] => true
  | x :: xs, y :: ys => same x y && sameItems xs ys
  | _, _ => false

def sameFields : List (String × Literal) → List (String × Literal) → Bool
  | [], [] => true
  | (k, x) :: es, (l, y) :: fs => k = l && same x y && sameFields es fs
  | _, _ => false

end

mutual

theorem same_iff : ∀ x y : Literal, same x y = true ↔ x = y
  | .list xs, y => by cases y <;> simp [same, sameItems_iff xs]
  | .object es, y => by cases y <;> simp [same, sameFields_iff es]
  | .reference _, y | .int _, y | .float _, y | .string _ _, y | .boolean _, y | .null, y
  | .enum _, y => by cases y <;> simp [same]

theorem sameItems_iff : ∀ xs ys : List Literal, sameItems xs ys = true ↔ xs = ys
  | [], ys => by cases ys <;> simp [sameItems]
  | x :: xs, ys => by cases ys <;> simp [sameItems, same_iff x, sameItems_iff xs]

theorem sameFields_iff : ∀ es fs : List (String × Literal), sameFields es fs = true ↔ es = fs
  | [], fs => by cases fs <;> simp [sameFields]
  | (k, x) :: es, fs => by
    cases fs <;> simp [sameFields, same_iff x, sameFields_iff es, Prod.ext_iff]

end

instance : DecidableEq Literal := fun x y => decidable_of_iff _ (same_iff x y)

end Literal

structure Argument where
  name : String
  value : Literal
  /-- The place of the value in the text. -/
  position : Nat
  deriving DecidableEq, Repr

structure Directive where
  name : String
  arguments : List Argument
  /-- The place of the directive in the text. -/
  position : Nat
  deriving DecidableEq, Repr

structure InputDef where
  name : String
  type : TypeRef
  default? : Option Literal
  directives : List Directive
  deriving DecidableEq, Repr

/-- Whether a value has to be given. -/
def InputDef.isRequired (d : InputDef) : Bool := d.type.isNonNull && d.default?.isNone

structure FieldDef where
  name : String
  arguments : List InputDef
  type : TypeRef
  directives : List Directive
  deriving DecidableEq, Repr

structure EnumValueDef where
  name : String
  directives : List Directive
  deriving DecidableEq, Repr

inductive TypeKind where
  | scalar | object | interface | union | enum | input
  deriving DecidableEq, Repr

namespace TypeKind

def text : TypeKind → String
  | scalar => "scalar"
  | object => "object"
  | interface => "interface"
  | union => "union"
  | enum => "enum"
  | input => "input object"

/-- A kind in a sentence, with its article. -/
def phrase : TypeKind → String
  | scalar => "a Scalar type"
  | object => "an Object type"
  | interface => "an Interface type"
  | union => "a Union type"
  | enum => "an Enum type"
  | input => "an Input type"

end TypeKind

/-- What a type definition or extension says; what its kind has no room for is empty. -/
structure TypeDef where
  name : String
  kind : TypeKind
  directives : List Directive
  interfaces : List String := []
  fields : List FieldDef := []
  members : List String := []
  values : List EnumValueDef := []
  inputs : List InputDef := []
  deriving DecidableEq, Repr

inductive OperationKind where
  | query | mutation | subscription
  deriving DecidableEq, Repr

namespace OperationKind

def text : OperationKind → String
  | query => "query"
  | mutation => "mutation"
  | subscription => "subscription"

def ofText? (s : String) : Option OperationKind :=
  [query, mutation, subscription].find? (·.text = s)

end OperationKind

inductive Location where
  | query | mutation | subscription | field | fragmentDefinition | fragmentSpread | inlineFragment
  | variableDefinition | fragmentVariableDefinition
  | schema | scalar | object | fieldDefinition | argumentDefinition | interface | union | enum
  | enumValue | inputObject | inputFieldDefinition | directiveDefinition
  deriving DecidableEq, Repr

namespace Location

def all : List Location :=
  [query, mutation, subscription, field, fragmentDefinition, fragmentSpread, inlineFragment,
    variableDefinition, fragmentVariableDefinition, schema, scalar, object, fieldDefinition,
    argumentDefinition, interface, union, enum, enumValue, inputObject, inputFieldDefinition,
    directiveDefinition]

def words : Location → List String
  | query => ["query"]
  | mutation => ["mutation"]
  | subscription => ["subscription"]
  | field => ["field"]
  | fragmentDefinition => ["fragment", "definition"]
  | fragmentSpread => ["fragment", "spread"]
  | inlineFragment => ["inline", "fragment"]
  | variableDefinition => ["variable", "definition"]
  | fragmentVariableDefinition => ["fragment", "variable", "definition"]
  | schema => ["schema"]
  | scalar => ["scalar"]
  | object => ["object"]
  | fieldDefinition => ["field", "definition"]
  | argumentDefinition => ["argument", "definition"]
  | interface => ["interface"]
  | union => ["union"]
  | enum => ["enum"]
  | enumValue => ["enum", "value"]
  | inputObject => ["input", "object"]
  | inputFieldDefinition => ["input", "field", "definition"]
  | directiveDefinition => ["directive", "definition"]

def text (l : Location) : String :=
  "_".intercalate (l.words.map fun w => String.ofList (w.toList.map Char.toUpper))

def ofText? (s : String) : Option Location := all.find? (·.text = s)

end Location

def TypeKind.location : TypeKind → Location
  | .scalar => .scalar
  | .object => .object
  | .interface => .interface
  | .union => .union
  | .enum => .enum
  | .input => .inputObject

def OperationKind.location : OperationKind → Location
  | .query => .query
  | .mutation => .mutation
  | .subscription => .subscription

structure DirectiveDef where
  name : String
  arguments : List InputDef
  repeatable : Bool
  locations : List Location
  deriving DecidableEq, Repr

structure VariableDef where
  type : TypeRef
  default? : Option Literal
  directives : List Directive
  deriving DecidableEq, Repr

inductive Selection where
  | field (arguments : List Argument) (directives : List Directive) (inner : List Selection)
  | spread (directives : List Directive)
  | inline (condition? : Option String) (directives : List Directive) (inner : List Selection)
  deriving Repr

namespace Selection

mutual

def same : Selection → Selection → Bool
  | .field as ds xs, .field bs es ys => as = bs && ds = es && sameAll xs ys
  | .spread ds, .spread es => ds = es
  | .inline c ds xs, .inline d es ys => c = d && ds = es && sameAll xs ys
  | _, _ => false

def sameAll : List Selection → List Selection → Bool
  | [], [] => true
  | x :: xs, y :: ys => same x y && sameAll xs ys
  | _, _ => false

end

mutual

theorem same_iff : ∀ x y : Selection, same x y = true ↔ x = y
  | .field _ _ xs, y | .inline _ _ xs, y => by
    cases y <;> simp [same, sameAll_iff xs, and_assoc]
  | .spread _, y => by cases y <;> simp [same]

theorem sameAll_iff : ∀ xs ys : List Selection, sameAll xs ys = true ↔ xs = ys
  | [], ys => by cases ys <;> simp [sameAll]
  | x :: xs, ys => by cases ys <;> simp [sameAll, same_iff x, sameAll_iff xs]

end

instance : DecidableEq Selection := fun x y => decidable_of_iff _ (same_iff x y)

end Selection

inductive Definition where
  | operation (kind : OperationKind) (name? : Option String) (inputs : List VariableDef)
      (directives : List Directive) (selections : List Selection)
  | fragment (condition : String) (directives : List Directive) (selections : List Selection)
  | schema (isExtension : Bool) (directives : List Directive)
      (roots : List (OperationKind × String))
  | type (d : TypeDef)
  | extension (d : TypeDef)
  | directive (d : DirectiveDef)
  deriving DecidableEq, Repr

abbrev Document := List Definition

namespace Document

def types (doc : Document) : List TypeDef :=
  doc.filterMap fun
    | .type d => some d
    | _ => none

def extensions (doc : Document) : List TypeDef :=
  doc.filterMap fun
    | .extension d => some d
    | _ => none

def directives (doc : Document) : List DirectiveDef :=
  doc.filterMap fun
    | .directive d => some d
    | _ => none

end Document

namespace Builtin

def scalars : List String := ["Int", "Float", "String", "Boolean", "ID"]

def introspection : List String :=
  ["__Schema", "__Directive", "__DirectiveLocation", "__Type", "__Field", "__InputValue",
    "__EnumValue", "__TypeKind"]

/-- The types that no document defines; a definition of one of these names is ignored. -/
def typeNames : List String := scalars ++ introspection

def deprecationReason : String := "No longer supported"

def condition : List InputDef := [⟨"if", .nonNull (.named "Boolean"), none, []⟩]

def directives : List DirectiveDef :=
  [⟨"include", condition, false, [.field, .fragmentSpread, .inlineFragment]⟩,
    ⟨"skip", condition, false, [.field, .fragmentSpread, .inlineFragment]⟩,
    ⟨"deprecated", [⟨"reason", .named "String", some (.string deprecationReason false), []⟩], false,
      [.fieldDefinition, .argumentDefinition, .inputFieldDefinition, .enumValue,
        .directiveDefinition]⟩,
    ⟨"specifiedBy", [⟨"url", .nonNull (.named "String"), none, []⟩], false, [.scalar]⟩,
    ⟨"oneOf", [], false, [.inputObject]⟩]

end Builtin

end Ripple.Graphql
