import Ripple.Graphql.ChangePath
import Ripple.Graphql.Printer

/-!
Single differences between two schemas: what they are called, how grave they are, and how they are
described.
-/
namespace Ripple.Graphql

inductive Criticality where
  | breaking | dangerous | nonBreaking
  deriving DecidableEq, Repr

def Criticality.text : Criticality → String
  | breaking => "BREAKING"
  | dangerous => "DANGEROUS"
  | nonBreaking => "NON_BREAKING"

/-- Something that takes input: an argument of a field or of a directive, or an input field. -/
inductive InputPlace where
  | field (type field : String)
  | argument (type field name : String)
  | directiveArgument (directive name : String)
  deriving DecidableEq, Repr

def InputPlace.text : InputPlace → String
  | field t f => t ++ "." ++ f
  | argument t f a => t ++ "." ++ f ++ "(" ++ a ++ ":)"
  | directiveArgument d a => "@" ++ d ++ "(" ++ a ++ ":)"

/-- How a schema differs from an older one. -/
inductive Difference where
  | typeRemoved (type : String)
  | typeAdded (type : String)
  | kindChanged (type : String) (old new : TypeKind)
  | memberRemoved (union member : String)
  | memberAdded (union member : String)
  | valueRemoved (enum value : String)
  | valueAdded (enum value : String)
  | interfaceRemoved (type interface : String)
  | interfaceAdded (type interface : String)
  | fieldRemoved (type field : String)
  | fieldAdded (type field : String)
  | fieldRetyped (type field : String) (old new : TypeRef)
  | requiredInputAdded (place : InputPlace)
  | optionalInputAdded (place : InputPlace)
  | argumentRemoved (place : InputPlace)
  | argumentRetyped (place : InputPlace) (old new : TypeRef)
  | defaultRemoved (place : InputPlace)
  | defaultChanged (place : InputPlace) (old new : String)
  | directiveRemoved (directive : String)
  | repeatableRemoved (directive : String)
  | locationRemoved (directive : String) (place : Location)
  deriving DecidableEq, Repr

namespace Difference

def kind : Difference → String
  | typeRemoved _ => "TYPE_REMOVED"
  | typeAdded _ => "TYPE_ADDED"
  | kindChanged .. => "TYPE_CHANGED_KIND"
  | memberRemoved .. => "TYPE_REMOVED_FROM_UNION"
  | memberAdded .. => "TYPE_ADDED_TO_UNION"
  | valueRemoved .. => "VALUE_REMOVED_FROM_ENUM"
  | valueAdded .. => "VALUE_ADDED_TO_ENUM"
  | interfaceRemoved .. => "IMPLEMENTED_INTERFACE_REMOVED"
  | interfaceAdded .. => "IMPLEMENTED_INTERFACE_ADDED"
  | fieldRemoved .. => "FIELD_REMOVED"
  | fieldAdded .. => "FIELD_ADDED"
  | fieldRetyped .. => "FIELD_CHANGED_KIND"
  | requiredInputAdded (.field ..) => "REQUIRED_INPUT_FIELD_ADDED"
  | requiredInputAdded (.argument ..) => "REQUIRED_ARG_ADDED"
  | requiredInputAdded (.directiveArgument ..) => "REQUIRED_DIRECTIVE_ARG_ADDED"
  | optionalInputAdded (.field ..) => "OPTIONAL_INPUT_FIELD_ADDED"
  | optionalInputAdded _ => "OPTIONAL_ARG_ADDED"
  | argumentRemoved (.directiveArgument ..) => "DIRECTIVE_ARG_REMOVED"
  | argumentRemoved _ => "ARG_REMOVED"
  | argumentRetyped .. => "ARG_CHANGED_KIND"
  | defaultRemoved (.field ..) | defaultChanged (.field ..) _ _ =>
    "INPUT_FIELD_DEFAULT_VALUE_CHANGE"
  | defaultRemoved _ | defaultChanged .. => "ARG_DEFAULT_VALUE_CHANGE"
  | directiveRemoved _ => "DIRECTIVE_REMOVED"
  | repeatableRemoved _ => "DIRECTIVE_REPEATABLE_REMOVED"
  | locationRemoved .. => "DIRECTIVE_LOCATION_REMOVED"

/-- New types and output fields break nothing. New values, members, interfaces, optional inputs and
changed defaults may surprise. All else breaks. -/
def criticality : Difference → Criticality
  | typeAdded _ | fieldAdded .. => .nonBreaking
  | memberAdded .. | valueAdded .. | interfaceAdded .. | optionalInputAdded _ | defaultRemoved _
  | defaultChanged .. => .dangerous
  | _ => .breaking

def inputNoun : InputPlace → String
  | .field .. => "field "
  | _ => "argument "

def description : Difference → String
  | typeRemoved t => t ++ " was removed."
  | typeAdded t => "Type '" ++ t ++ "' was added"
  | kindChanged t old new => t ++ " changed from " ++ old.phrase ++ " to " ++ new.phrase ++ "."
  | memberRemoved u m => m ++ " was removed from union type " ++ u ++ "."
  | memberAdded u m => m ++ " was added to union type " ++ u ++ "."
  | valueRemoved e v => "Enum value " ++ e ++ "." ++ v ++ " was removed."
  | valueAdded e v => "Enum value " ++ e ++ "." ++ v ++ " was added."
  | interfaceRemoved t i => t ++ " no longer implements interface " ++ i ++ "."
  | interfaceAdded t i => i ++ " added to interfaces implemented by " ++ t ++ "."
  | fieldRemoved t f => "Field " ++ t ++ "." ++ f ++ " was removed."
  | fieldAdded t f => "Field '" ++ f ++ "' was added to '" ++ t ++ "'"
  | fieldRetyped t f old new =>
    "Field " ++ t ++ "." ++ f ++ " changed type from " ++ old.text ++ " to " ++ new.text ++ "."
  | requiredInputAdded p => "A required " ++ inputNoun p ++ p.text ++ " was added."
  | optionalInputAdded p => "An optional " ++ inputNoun p ++ p.text ++ " was added."
  | argumentRemoved p => "Argument " ++ p.text ++ " was removed."
  | argumentRetyped p old new =>
    "Argument " ++ p.text ++ " has changed type from " ++ old.text ++ " to " ++ new.text ++ "."
  | defaultRemoved p => p.text ++ " defaultValue was removed."
  | defaultChanged p old new =>
    p.text ++ " has changed defaultValue from " ++ old ++ " to " ++ new ++ "."
  | directiveRemoved d => "Directive @" ++ d ++ " was removed."
  | repeatableRemoved d => "Repeatable flag was removed from @" ++ d ++ "."
  | locationRemoved d l => l.text ++ " was removed from @" ++ d ++ "."

/-- The part of the schema that differs: additions name it themselves, other differences are
looked up by their description. -/
def path : Difference → String
  | typeAdded t => t
  | fieldAdded t f => t ++ "." ++ f
  | d => changePath d.description

end Difference

/-- A difference as it is reported. -/
structure SchemaChange where
  kind : String
  path : String
  criticality : Criticality
  message : String
  deriving DecidableEq, Repr

def Difference.change (d : Difference) : SchemaChange :=
  ⟨d.kind, d.path, d.criticality, d.description⟩

end Ripple.Graphql
