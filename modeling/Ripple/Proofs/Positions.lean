import Mathlib.Tactic.Simps.Basic
import Ripple.Graphql.Comparison

/-! # Documents apart from positions

A document keeps where directives and the values of arguments stand in its text, to point at them.
The rules, the schema and its differences do not depend on that: two texts that are read as the same
definitions at different places are both refused or both read, and as schemas with no differences.
-/
namespace Ripple.Graphql

@[simps] def Argument.unplaced (a : Argument) : Argument := { a with position := 0 }

@[simps] def Directive.unplaced (d : Directive) : Directive :=
  { d with arguments := d.arguments.map Argument.unplaced, position := 0 }

@[simps] def InputDef.unplaced (d : InputDef) : InputDef :=
  { d with directives := d.directives.map Directive.unplaced }

@[simps] def FieldDef.unplaced (d : FieldDef) : FieldDef :=
  { d with
    arguments := d.arguments.map InputDef.unplaced
    directives := d.directives.map Directive.unplaced }

@[simps] def EnumValueDef.unplaced (d : EnumValueDef) : EnumValueDef :=
  { d with directives := d.directives.map Directive.unplaced }

@[simps] def TypeDef.unplaced (d : TypeDef) : TypeDef :=
  { d with
    directives := d.directives.map Directive.unplaced
    fields := d.fields.map FieldDef.unplaced
    values := d.values.map EnumValueDef.unplaced
    inputs := d.inputs.map InputDef.unplaced }

@[simps] def DirectiveDef.unplaced (d : DirectiveDef) : DirectiveDef :=
  { d with arguments := d.arguments.map InputDef.unplaced }

@[simps] def VariableDef.unplaced (d : VariableDef) : VariableDef :=
  { d with directives := d.directives.map Directive.unplaced }

def Selection.unplaced : Selection → Selection
  | field args ds inner =>
    .field (args.map Argument.unplaced) (ds.map Directive.unplaced) (all inner)
  | spread ds => .spread (ds.map Directive.unplaced)
  | inline condition? ds inner => .inline condition? (ds.map Directive.unplaced) (all inner)
where
  all : List Selection → List Selection
    | [] => []
    | s :: rest => s.unplaced :: all rest

def Definition.unplaced : Definition → Definition
  | operation kind name? inputs ds selections =>
    .operation kind name? (inputs.map VariableDef.unplaced) (ds.map Directive.unplaced)
      (selections.map Selection.unplaced)
  | fragment condition ds selections =>
    .fragment condition (ds.map Directive.unplaced) (selections.map Selection.unplaced)
  | schema isExtension ds roots => .schema isExtension (ds.map Directive.unplaced) roots
  | type d => .type d.unplaced
  | extension d => .extension d.unplaced
  | directive d => .directive d.unplaced

def Document.unplaced (doc : Document) : Document := doc.map Definition.unplaced

@[simps] def Schema.unplaced (s : Schema) : Schema :=
  ⟨s.types.map TypeDef.unplaced, s.directives.map DirectiveDef.unplaced⟩

@[simp] theorem InputDef.unplaced_isRequired (d : InputDef) :
    d.unplaced.isRequired = d.isRequired := rfl

section Documents

variable (doc : Document)

@[simp] theorem Document.types_unplaced : doc.unplaced.types = doc.types.map TypeDef.unplaced := by
  rw [types, types, unplaced, List.filterMap_map, List.map_filterMap]
  exact congrArg (List.filterMap · doc) (funext fun d => by cases d <;> rfl)

@[simp] theorem Document.extensions_unplaced :
    doc.unplaced.extensions = doc.extensions.map TypeDef.unplaced := by
  rw [extensions, extensions, unplaced, List.filterMap_map, List.map_filterMap]
  exact congrArg (List.filterMap · doc) (funext fun d => by cases d <;> rfl)

@[simp] theorem Document.directives_unplaced :
    doc.unplaced.directives = doc.directives.map DirectiveDef.unplaced := by
  rw [directives, directives, unplaced, List.filterMap_map, List.map_filterMap]
  exact congrArg (List.filterMap · doc) (funext fun d => by cases d <;> rfl)

end Documents

namespace Rules

variable (doc : Document)

theorem directiveNamed?_unplaced (name : String) :
    directiveNamed? doc.unplaced name = (directiveNamed? doc name).map DirectiveDef.unplaced := by
  have hbuiltin : Builtin.directives.map DirectiveDef.unplaced = Builtin.directives := rfl
  rw [directiveNamed?, directiveNamed?, Document.directives_unplaced, ← List.map_reverse,
    List.find?_map]
  simp only [Function.comp_def, DirectiveDef.unplaced_name]
  cases doc.directives.reverse.find? (·.name = name) with
  | some d => rfl
  | none =>
    have hfind : (Builtin.directives.map DirectiveDef.unplaced).find? (·.name = name) =
        (Builtin.directives.find? (·.name = name)).map DirectiveDef.unplaced := List.find?_map
    rwa [hbuiltin] at hfind

@[simp] theorem typeNames_unplaced : typeNames doc.unplaced = typeNames doc := by
  simp [typeNames]

@[simp] theorem unknownType_unplaced : unknownType doc.unplaced = unknownType doc := by
  funext defining name
  simp [unknownType]

@[simp] theorem repeatedDirectives_unplaced (before here : List Directive) :
    repeatedDirectives doc.unplaced (before.map Directive.unplaced) (here.map Directive.unplaced) =
      repeatedDirectives doc before here := by
  simp [repeatedDirectives, directiveNamed?_unplaced, Function.comp_def]

@[simp] theorem repeatedArguments_unplaced (args : List Argument) :
    repeatedArguments (args.map Argument.unplaced) = repeatedArguments args := by
  simp [repeatedArguments, Function.comp_def]

@[simp] theorem directiveFaults_unplaced (place : Location) (d : Directive) :
    directiveFaults doc.unplaced place d.unplaced = directiveFaults doc place d := by
  simp only [directiveFaults, Directive.unplaced_name, directiveNamed?_unplaced]
  cases directiveNamed? doc d.name <;>
    simp [misplaced, unknownArguments, missingArguments, List.flatMap_map, Function.comp_def]

@[simp] theorem directivesFaults_unplaced (place : Location) (ds : List Directive) :
    directivesFaults doc.unplaced place (ds.map Directive.unplaced) =
      directivesFaults doc place ds := by
  simp [directivesFaults, List.flatMap_map]

@[simp] theorem inputFaults_unplaced (place : Location) (d : InputDef) :
    inputFaults doc.unplaced place d.unplaced = inputFaults doc place d := by
  have hsingle := repeatedDirectives_unplaced doc [] d.directives
  simp_all [inputFaults]

@[simp] theorem fieldFaults_unplaced (d : FieldDef) :
    fieldFaults doc.unplaced d.unplaced = fieldFaults doc d := by
  have hsingle := repeatedDirectives_unplaced doc [] d.directives
  simp_all [fieldFaults, List.flatMap_map]

@[simp] theorem valueFaults_unplaced (d : EnumValueDef) :
    valueFaults doc.unplaced d.unplaced = valueFaults doc d := by
  have hsingle := repeatedDirectives_unplaced doc [] d.directives
  simp_all [valueFaults]

theorem typePart?_unplaced (d : Definition) :
    typePart? d.unplaced = (typePart? d).map TypeDef.unplaced := by
  cases d <;> rfl

variable (before : List Definition)

theorem earlierParts_unplaced (name : String) :
    earlierParts (before.map Definition.unplaced) name =
      (earlierParts before name).map TypeDef.unplaced := by
  rw [earlierParts, earlierParts, List.filterMap_map]
  simp only [Function.comp_def, typePart?_unplaced, ← List.map_filterMap, List.filter_map,
    TypeDef.unplaced_name]

@[simp] theorem fieldNames_unplaced (d : TypeDef) : fieldNames d.unplaced = fieldNames d := by
  simp [fieldNames, Function.comp_def]

@[simp] theorem partFaults_unplaced (d : TypeDef) :
    partFaults doc.unplaced (before.map Definition.unplaced) d.unplaced =
      partFaults doc before d := by
  have hdirectives := repeatedDirectives_unplaced doc
    ((earlierParts before d.name).flatMap (·.directives)) d.directives
  simp_all [partFaults, repeatedValues, repeatedFields, repeatedInputs,
    earlierParts_unplaced, List.flatMap_map, List.map_flatMap, Function.comp_def]

@[simp] theorem insideFaults_unplaced (d : TypeDef) :
    insideFaults doc.unplaced d.unplaced = insideFaults doc d := by
  simp [insideFaults, List.flatMap_map]

@[simp] theorem extensionFaults_unplaced (d : TypeDef) :
    extensionFaults doc.unplaced d.unplaced = extensionFaults doc d := by
  simp only [extensionFaults, Document.types_unplaced, ← List.map_reverse, List.find?_map,
    Function.comp_def, TypeDef.unplaced_name, TypeDef.unplaced_kind, typeNames_unplaced]
  cases doc.types.reverse.find? (·.name = d.name) <;> rfl

mutual

@[simp] theorem selectionFaults_unplaced (s : Selection) :
    selectionFaults doc.unplaced s.unplaced = selectionFaults doc s := by
  cases s with
  | field args ds inner =>
    have hsingle := repeatedDirectives_unplaced doc [] ds
    have hinner := selectionFaults_all_unplaced inner
    simp_all [selectionFaults, Selection.unplaced, List.flatMap_map]
  | spread ds =>
    have hsingle := repeatedDirectives_unplaced doc [] ds
    simp_all [selectionFaults, Selection.unplaced]
  | inline condition? ds inner =>
    have hsingle := repeatedDirectives_unplaced doc [] ds
    have hinner := selectionFaults_all_unplaced inner
    simp_all [selectionFaults, Selection.unplaced]

theorem selectionFaults_all_unplaced (selections : List Selection) :
    selectionFaults.all doc.unplaced (Selection.unplaced.all selections) =
      selectionFaults.all doc selections := by
  cases selections with
  | nil => rfl
  | cons s rest =>
    rw [Selection.unplaced.all, selectionFaults.all, selectionFaults.all,
      selectionFaults_unplaced s, selectionFaults_all_unplaced rest]

end

@[simp] theorem variableFaults_unplaced (d : VariableDef) :
    variableFaults doc.unplaced d.unplaced = variableFaults doc d := by
  have hsingle := repeatedDirectives_unplaced doc [] d.directives
  simp_all [variableFaults]

theorem flatMap_schemaDirectives_unplaced :
    (before.map Definition.unplaced).flatMap schemaDirectives =
      (before.flatMap schemaDirectives).map Directive.unplaced := by
  rw [List.flatMap_map, List.map_flatMap]
  exact congrArg before.flatMap (funext fun d => by cases d <;> rfl)

theorem flatMap_roots_unplaced :
    (before.map Definition.unplaced).flatMap roots = before.flatMap roots := by
  rw [List.flatMap_map]
  exact congrArg before.flatMap (funext fun d => by cases d <;> rfl)

theorem any_isSchema_unplaced :
    (before.map Definition.unplaced).any isSchema = before.any isSchema := by
  rw [List.any_map]
  exact congrArg before.any (funext fun d => by cases d <;> rfl)

@[simp] theorem definitionFaults_unplaced (d : Definition) :
    definitionFaults doc.unplaced (before.map Definition.unplaced) d.unplaced =
      definitionFaults doc before d := by
  have htypes := Document.types_unplaced before
  have hdirectives := Document.directives_unplaced before
  cases d with
  | operation kind name? inputs ds selections =>
    have hsingle := repeatedDirectives_unplaced doc [] ds
    simp_all [definitionFaults, Definition.unplaced, List.flatMap_map]
  | fragment condition ds selections =>
    have hsingle := repeatedDirectives_unplaced doc [] ds
    simp_all [definitionFaults, Definition.unplaced, List.flatMap_map]
  | schema isExtension ds roots =>
    simp only [definitionFaults, Definition.unplaced, any_isSchema_unplaced,
      flatMap_roots_unplaced, flatMap_schemaDirectives_unplaced, repeatedDirectives_unplaced,
      directivesFaults_unplaced, unknownType_unplaced]
  | type d =>
    rw [Document.unplaced] at htypes
    simp [definitionFaults, Definition.unplaced, htypes, List.any_map, Function.comp_def]
  | extension d => simp [definitionFaults, Definition.unplaced]
  | directive d =>
    rw [Document.unplaced] at hdirectives
    simp [definitionFaults, Definition.unplaced, hdirectives, repeatedInputs, List.any_map,
      List.flatMap_map, Function.comp_def]

theorem faultsFrom_unplaced (rest : List Definition) :
    faultsFrom doc.unplaced (before.map Definition.unplaced) (rest.map Definition.unplaced) =
      faultsFrom doc before rest := by
  induction rest generalizing before with
  | nil => rfl
  | cons d rest ih =>
    have hrest := ih (before ++ [d])
    rw [List.map_append] at hrest
    rw [List.map_cons, faultsFrom, faultsFrom, definitionFaults_unplaced]
    exact congrArg _ hrest

end Rules

/-- The rules have the same complaints wherever the definitions stand in the text. -/
theorem Document.faults_unplaced (doc : Document) : doc.unplaced.faults = doc.faults :=
  Rules.faultsFrom_unplaced doc [] doc

namespace Schema

theorem extended_unplaced (doc : Document) (d : TypeDef) :
    extended doc.unplaced d.unplaced = (extended doc d).unplaced := by
  have hextensions : doc.unplaced.extensions.filter (·.name = d.name) =
      (doc.extensions.filter (·.name = d.name)).map TypeDef.unplaced := by
    rw [Document.extensions_unplaced, List.filter_map]
    rfl
  simp only [extended, TypeDef.unplaced_name, hextensions]
  simp [TypeDef.unplaced, List.flatMap_map, List.map_flatMap]

theorem ofDocument_unplaced (doc : Document) :
    ofDocument doc.unplaced = (ofDocument doc).unplaced := by
  have htypes : doc.unplaced.types.filter (fun d => !Builtin.typeNames.contains d.name) =
      (doc.types.filter fun d => !Builtin.typeNames.contains d.name).map TypeDef.unplaced := by
    rw [Document.types_unplaced, List.filter_map]
    rfl
  have hbuiltin : Builtin.directives.map DirectiveDef.unplaced = Builtin.directives := rfl
  have hmissing : ∀ names : List String,
      (Builtin.directives.filter fun d => !names.contains d.name).map DirectiveDef.unplaced =
        Builtin.directives.filter fun d => !names.contains d.name := by
    intro names
    have hfilter := congrArg (List.filter fun d => !names.contains d.name) hbuiltin
    rwa [List.filter_map] at hfilter
  simp only [ofDocument, unplaced, htypes, Document.directives_unplaced, List.map_map,
    List.map_append, hmissing]
  simp only [Function.comp_def, extended_unplaced, DirectiveDef.unplaced_name]

/-- A schema has no bad argument if none of its types and directives has. -/
theorem fault?_eq_none_iff {s : Schema} : s.fault? = none ↔
    (∀ t ∈ s.types, ownFault? t = none ∧ fieldsFault? t = none) ∧
      ∀ d ∈ s.directives, inputsFault? d.arguments = none := by
  simp only [fault?, Option.or_eq_none_iff, Option.map_eq_none_iff, List.findSome?_eq_none_iff]
  grind

theorem textFault?_unplaced {directive argument : String} {type : TypeRef} {ds : List Directive} :
    textFault? directive argument type (ds.map Directive.unplaced) = none ↔
      textFault? directive argument type ds = none := by
  simp only [textFault?, List.find?_map, Function.comp_def, Directive.unplaced_name]
  cases ds.find? (·.name = directive) with
  | none => rfl
  | some d =>
    simp only [Option.map_some, Option.bind_eq_bind, Option.bind_some, Directive.unplaced_arguments,
      ← List.map_reverse, List.find?_map, Function.comp_def, Argument.unplaced_name]
    cases d.arguments.reverse.find? (·.name = argument) with
    | none =>
      cases type.isNonNull <;> simp
    | some a =>
      simp only [Option.map_some, Argument.unplaced_value]
      cases a.value <;> simp

@[simp] theorem inputsFault?_unplaced {ds : List InputDef} :
    inputsFault? (ds.map InputDef.unplaced) = none ↔ inputsFault? ds = none := by
  simp [inputsFault?, reasonFault?, List.findSome?_eq_none_iff, textFault?_unplaced]

theorem ownFault?_unplaced {d : TypeDef} : ownFault? d.unplaced = none ↔ ownFault? d = none := by
  rw [ownFault?, ownFault?, TypeDef.unplaced_kind]
  cases d.kind <;>
    simp [reasonFault?, List.findSome?_eq_none_iff, textFault?_unplaced]

theorem fieldsFault?_unplaced {d : TypeDef} :
    fieldsFault? d.unplaced = none ↔ fieldsFault? d = none := by
  simp [fieldsFault?, reasonFault?, List.findSome?_eq_none_iff, textFault?_unplaced]

theorem fault?_unplaced {s : Schema} : s.unplaced.fault? = none ↔ s.fault? = none := by
  simp [fault?_eq_none_iff, ownFault?_unplaced, fieldsFault?_unplaced]

end Schema

namespace Comparison

section Keys

variable {α : Type} {key : α → String} {f : α → α} (hkey : ∀ a, key (f a) = key a)
  (old new : List α)

include hkey

theorem missing_map : missing key (old.map f) (new.map f) = (missing key old new).map f := by
  simp [missing, List.filter_map, Function.comp_def, hkey]

theorem common_map :
    common key (old.map f) (new.map f) = (common key old new).map (Prod.map f f) := by
  simp [common, List.filterMap_map, List.map_filterMap, Function.comp_def, hkey,
    ← List.map_reverse, List.find?_map]

end Keys

@[simp] theorem defaultDifference_unplaced (place : InputPlace) (a b : InputDef) :
    defaultDifference place a.unplaced b.unplaced = defaultDifference place a b := rfl

@[simp] theorem argumentDifference_unplaced (place : InputPlace) (a b : InputDef) :
    argumentDifference place a.unplaced b.unplaced = argumentDifference place a b := rfl

@[simp] theorem inputAdded_unplaced (place : InputPlace) (a : InputDef) :
    inputAdded place a.unplaced = inputAdded place a := rfl

@[simp] theorem argumentDifferences_unplaced (type field : String) (old new : List InputDef) :
    argumentDifferences type field (old.map InputDef.unplaced) (new.map InputDef.unplaced) =
      argumentDifferences type field old new := by
  have hname : ∀ a : InputDef, a.unplaced.name = a.name := fun _ => rfl
  simp [argumentDifferences, missing_map hname, common_map hname, List.flatMap_map,
    Function.comp_def]

@[simp] theorem fieldDifferences_unplaced (type : String) (old new : List FieldDef) :
    fieldDifferences type (old.map FieldDef.unplaced) (new.map FieldDef.unplaced) =
      fieldDifferences type old new := by
  have hname : ∀ a : FieldDef, a.unplaced.name = a.name := fun _ => rfl
  simp [fieldDifferences, missing_map hname, common_map hname, List.flatMap_map,
    Function.comp_def]

@[simp] theorem inputDifferences_unplaced (type : String) (old new : List InputDef) :
    inputDifferences type (old.map InputDef.unplaced) (new.map InputDef.unplaced) =
      inputDifferences type old new := by
  have hname : ∀ a : InputDef, a.unplaced.name = a.name := fun _ => rfl
  simp [inputDifferences, missing_map hname, common_map hname, List.flatMap_map,
    Function.comp_def]

@[simp] theorem typeDifferences_unplaced (old new : TypeDef) :
    typeDifferences old.unplaced new.unplaced = typeDifferences old new := by
  have hname : ∀ a : EnumValueDef, a.unplaced.name = a.name := fun _ => rfl
  simp [typeDifferences, missing_map hname, Function.comp_def]

@[simp] theorem directiveDifferences_unplaced (old new : DirectiveDef) :
    directiveDifferences old.unplaced new.unplaced = directiveDifferences old new := by
  have hname : ∀ a : InputDef, a.unplaced.name = a.name := fun _ => rfl
  simp [directiveDifferences, missing_map hname, common_map hname, List.filter_map,
    List.flatMap_map, Function.comp_def]

theorem losses_unplaced (old new : Schema) : losses old.unplaced new.unplaced = losses old new := by
  have htype : ∀ a : TypeDef, a.unplaced.name = a.name := fun _ => rfl
  have hdirective : ∀ a : DirectiveDef, a.unplaced.name = a.name := fun _ => rfl
  simp [losses, missing_map htype, common_map htype, missing_map hdirective,
    common_map hdirective, List.flatMap_map, Function.comp_def]

theorem additions_unplaced (old new : Schema) :
    additions old.unplaced new.unplaced = additions old new := by
  have hname : ∀ a : FieldDef, a.unplaced.name = a.name := fun _ => rfl
  simp only [additions, Schema.unplaced_types, List.filter_map, List.flatMap_map,
    Function.comp_def, TypeDef.unplaced_name, TypeDef.unplaced_kind, List.find?_map]
  refine congrArg (List.flatMap · _) (funext fun t => ?_)
  cases old.types.find? (·.name = t.name) with
  | none => rfl
  | some o => simp [missing_map hname, Function.comp_def]

/-- The differences of two schemas are the same wherever their parts stand in the texts. -/
theorem differences_unplaced (old new : Schema) :
    differences old.unplaced new.unplaced = differences old new := by
  rw [differences, differences, losses_unplaced, additions_unplaced]

end Comparison

end Ripple.Graphql
