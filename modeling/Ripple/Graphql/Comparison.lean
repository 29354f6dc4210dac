import Ripple.Graphql.Difference
import Ripple.Graphql.Schema

/-!
Comparing two schemas: all differences of their types and directives, and the changes reported for
them in the order of paths and kinds.
-/
namespace Ripple.Graphql.Comparison

def missing {α : Type} (key : α → String) (items others : List α) : List α :=
  items.filter fun a => !(others.map key).contains (key a)

/-- The items of the first list with the items of the second one that have the same key. -/
def common {α : Type} (key : α → String) (old new : List α) : List (α × α) :=
  old.filterMap fun a => (new.reverse.find? fun b => key b = key a).map (a, ·)

/-- Whether what is read as the new type can be used as the old one. -/
def outputSafe : TypeRef → TypeRef → Bool
  | old, .nonNull new =>
    match old with
    | .nonNull o => outputSafe o new
    | _ => outputSafe old new
  | .list old, .list new => outputSafe old new
  | .named old, .named new => old = new
  | _, _ => false

/-- Whether what was written for the old type can be written for the new one. -/
def inputSafe : TypeRef → TypeRef → Bool
  | .nonNull old, .nonNull new => inputSafe old new
  | .nonNull old, new => inputSafe old new
  | .list old, .list new => inputSafe old new
  | .named old, .named new => old = new
  | _, _ => false

def defaultText? (d : InputDef) : Option String := d.default?.map fun l => l.sorted.text

/-- The difference of two default values; a new one where there was none is none. -/
def defaultDifference (place : InputPlace) (old new : InputDef) : List Difference :=
  match defaultText? old, defaultText? new with
  | some _, none => [.defaultRemoved place]
  | some a, some b => if a = b then [] else [.defaultChanged place a b]
  | none, _ => []

def argumentDifference (place : InputPlace) (old new : InputDef) : List Difference :=
  if inputSafe old.type new.type then defaultDifference place old new
  else [.argumentRetyped place old.type new.type]

def inputAdded (place : InputPlace) (d : InputDef) : Difference :=
  if d.isRequired then .requiredInputAdded place else .optionalInputAdded place

def argumentDifferences (type field : String) (old new : List InputDef) : List Difference :=
  (missing (·.name) old new).map (fun a => .argumentRemoved (.argument type field a.name)) ++
    (common (·.name) old new).flatMap (fun (a, b) =>
      argumentDifference (.argument type field a.name) a b) ++
    (missing (·.name) new old).map fun a => inputAdded (.argument type field a.name) a

def fieldDifferences (type : String) (old new : List FieldDef) : List Difference :=
  (missing (·.name) old new).map (fun f => .fieldRemoved type f.name) ++
    (common (·.name) old new).flatMap fun (f, g) =>
      argumentDifferences type f.name f.arguments g.arguments ++
        if outputSafe f.type g.type then [] else [.fieldRetyped type f.name f.type g.type]

def interfaceDifferences (type : String) (old new : List String) : List Difference :=
  (missing id new old).map (.interfaceAdded type) ++
    (missing id old new).map (.interfaceRemoved type)

def inputDifferences (type : String) (old new : List InputDef) : List Difference :=
  (missing (·.name) new old).map (fun f => inputAdded (.field type f.name) f) ++
    (missing (·.name) old new).map (fun f => .fieldRemoved type f.name) ++
    (common (·.name) old new).flatMap fun (f, g) =>
      if inputSafe f.type g.type then defaultDifference (.field type f.name) f g
      else [.fieldRetyped type f.name f.type g.type]

def typeDifferences (old new : TypeDef) : List Difference :=
  if old.kind ≠ new.kind then [.kindChanged old.name old.kind new.kind]
  else
    match old.kind with
    | .scalar => []
    | .object | .interface =>
      fieldDifferences old.name old.fields new.fields ++
        interfaceDifferences old.name old.interfaces new.interfaces
    | .union =>
      (missing id new.members old.members).map (.memberAdded old.name) ++
        (missing id old.members new.members).map (.memberRemoved old.name)
    | .enum =>
      (missing (·.name) new.values old.values).map (fun v => .valueAdded old.name v.name) ++
        (missing (·.name) old.values new.values).map fun v => .valueRemoved old.name v.name
    | .input => inputDifferences old.name old.inputs new.inputs

def directiveDifferences (old new : DirectiveDef) : List Difference :=
  let added := (missing (·.name) new.arguments old.arguments).filter (·.isRequired)
  added.map (fun a => .requiredInputAdded (.directiveArgument old.name a.name)) ++
    (missing (·.name) old.arguments new.arguments).map (fun a =>
      .argumentRemoved (.directiveArgument old.name a.name)) ++
    (common (·.name) old.arguments new.arguments).flatMap (fun (a, b) =>
      argumentDifference (.directiveArgument old.name a.name) a b) ++
    (if old.repeatable ∧ !new.repeatable then [.repeatableRemoved old.name] else []) ++
    (old.locations.filter fun l => !new.locations.contains l).map (.locationRemoved old.name)

/-- The differences that are no additions of types or output fields. -/
def losses (old new : Schema) : List Difference :=
  (missing (·.name) old.types new.types).map (fun t => .typeRemoved t.name) ++
    (common (·.name) old.types new.types).flatMap (fun (a, b) => typeDifferences a b) ++
    (missing (·.name) old.directives new.directives).map (fun d => .directiveRemoved d.name) ++
    (common (·.name) old.directives new.directives).flatMap fun (a, b) => directiveDifferences a b

/-- The new types, and the new fields of types with output fields. -/
def additions (old new : Schema) : List Difference :=
  (new.types.filter fun t => !Text.startsWith t.name "__").flatMap fun t =>
    match old.types.find? (·.name = t.name) with
    | none => [.typeAdded t.name]
    | some o =>
      if (t.kind = .object ∨ t.kind = .interface) ∧ o.kind = t.kind then
        (missing (·.name) t.fields o.fields).map fun f => .fieldAdded t.name f.name
      else []

def differences (old new : Schema) : List Difference :=
  let all := losses old new
  all.filter (·.criticality = .breaking) ++ all.filter (·.criticality = .dangerous) ++
    additions old new

/-- The order of reported changes: by path, then by kind. -/
def inOrder (a b : SchemaChange) : Bool := a.path < b.path ∨ a.path = b.path ∧ a.kind ≤ b.kind

def sorted (found : List Difference) : List SchemaChange := (found.map (·.change)).mergeSort inOrder

end Comparison

structure ComparisonFault where
  document : List Char
  fault : SchemaFault

def schemaDifferences (old new : String) : Except ComparisonFault (List Difference) := do
  let read (s : String) : Except ComparisonFault Schema :=
    (Schema.parse s.toList).mapError fun f => ⟨s.toList, f⟩
  return Comparison.differences (← read old) (← read new)

def schemaChanges (old new : String) : Except ComparisonFault (List SchemaChange) :=
  (schemaDifferences old new).map Comparison.sorted

/-- Differences that come in the order of the report stay in it. -/
theorem schemaChanges_of_sorted {old new : String} {found : List Difference}
    (h : schemaDifferences old new = .ok found)
    (hsorted : (found.map (·.change)).Pairwise fun a b => Comparison.inOrder a b = true) :
    schemaChanges old new = .ok (found.map (·.change)) := by
  rw [schemaChanges, h]
  change Except.ok (Comparison.sorted found) = _
  rw [Comparison.sorted, List.mergeSort_of_pairwise hsorted]

end Ripple.Graphql
