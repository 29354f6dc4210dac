import Mathlib.Data.List.Flatten
import Mathlib.Data.List.Nodup
import Ripple.Proofs.Distinct
import Ripple.Proofs.SchemaNames

/-! # The order of definitions does not matter

Some things can be held by one definition of a document only: the name of a type or of a directive,
a field or a value of a type, the schema itself, the roots of it, and a directive that is not
repeatable where all definitions of a type together have it once. A document has no complaints if
no definition has any on its own and nothing is held twice. So there is no first and no second
definition, and a document without complaints has none in another order either.
-/
namespace Ripple.Graphql

namespace Rules

theorem repeats_eq_nil_iff {α : Type} [BEq α] [LawfulBEq α] {seen names : List α} :
    repeats seen names = [] ↔ names.Nodup ∧ ∀ a ∈ names, a ∉ seen := by
  induction names generalizing seen with
  | nil => simp [repeats]
  | cons a rest ih =>
    rw [repeats]
    split_ifs with hseen
    · have hmem := List.contains_iff_mem.mp hseen
      exact iff_of_false nofun fun h => h.2 a List.mem_cons_self hmem
    · rw [Bool.not_eq_true, ← Bool.not_eq_true, List.contains_iff_mem] at hseen
      rw [ih, List.nodup_cons, List.forall_mem_cons]
      simp only [List.mem_cons, not_or]
      constructor
      · rintro ⟨hnodup, hfresh⟩
        exact ⟨⟨fun ha => (hfresh a ha).1 rfl, hnodup⟩, hseen, fun b hb => (hfresh b hb).2⟩
      · rintro ⟨⟨ha, hnodup⟩, -, hfresh⟩
        exact ⟨hnodup, fun b hb => ⟨fun h => ha (h ▸ hb), hfresh b hb⟩⟩

theorem duplicated_eq_nil_iff {names : List String} : duplicated names = [] ↔ names.Nodup := by
  simp only [duplicated, List.filter_eq_nil_iff, mem_distinct, decide_eq_true_eq, not_lt,
    List.nodup_iff_count_le_one]
  refine ⟨fun h a => ?_, fun h a _ => h a⟩
  by_cases ha : a ∈ names
  · exact h a ha
  · rw [List.count_eq_zero_of_not_mem ha]
    exact Nat.zero_le 1

def single (doc : Document) (ds : List Directive) : List String :=
  (ds.map (·.name)).filter fun name =>
    ((directiveNamed? doc name).map fun d => !d.repeatable).getD false

theorem repeatedDirectives_eq_nil_iff {doc : Document} {before here : List Directive} :
    repeatedDirectives doc before here = [] ↔
      (single doc here).Nodup ∧ ∀ name ∈ single doc here, name ∉ single doc before := by
  rw [repeatedDirectives, List.map_eq_nil_iff, repeats_eq_nil_iff]
  rfl

/-- Something that one definition of a document can hold. -/
inductive Slot where
  | type (name : String)
  | value (type value : String)
  | field (type field : String)
  | typeDirective (type directive : String)
  | schema
  | root (kind : OperationKind)
  | schemaDirective (directive : String)
  | directive (name : String)
  deriving DecidableEq

def partSlots (doc : Document) (d : TypeDef) : List Slot :=
  (d.values.map (·.name)).map (.value d.name) ++ (fieldNames d).map (.field d.name) ++
    (single doc d.directives).map (.typeDirective d.name)

def slots (doc : Document) : Definition → List Slot
  | .type d => .type d.name :: partSlots doc d
  | .extension d => partSlots doc d
  | .schema isExtension ds roots =>
    (if isExtension then [] else [.schema]) ++ (roots.map (·.1)).map .root ++
      (single doc ds).map .schemaDirective
  | .directive d => [.directive d.name]
  | _ => []

section Slots

attribute [local simp] slots partSlots

variable {doc : Document} {d : Definition} {before : List Definition}

theorem type_mem_slots {name : String} :
    .type name ∈ slots doc d ↔ ∃ t, d = .type t ∧ t.name = name := by
  cases d <;> simp [eq_comm]

theorem value_mem_slots {type value : String} : .value type value ∈ slots doc d ↔
    ∃ t, typePart? d = some t ∧ t.name = type ∧ value ∈ t.values.map (·.name) := by
  cases d <;> simp [typePart?] <;> grind

theorem field_mem_slots {type field : String} : .field type field ∈ slots doc d ↔
    ∃ t, typePart? d = some t ∧ t.name = type ∧ field ∈ fieldNames t := by
  cases d <;> simp [typePart?] <;> grind

theorem typeDirective_mem_slots {type directive : String} :
    .typeDirective type directive ∈ slots doc d ↔
      ∃ t, typePart? d = some t ∧ t.name = type ∧ directive ∈ single doc t.directives := by
  cases d <;> simp [typePart?] <;> grind

theorem schema_mem_slots : .schema ∈ slots doc d ↔ isSchema d = true := by
  cases d <;> simp [isSchema]

theorem root_mem_slots {kind : OperationKind} : .root kind ∈ slots doc d ↔ kind ∈ roots d := by
  cases d <;> simp [roots]

theorem schemaDirective_mem_slots {directive : String} :
    .schemaDirective directive ∈ slots doc d ↔ directive ∈ single doc (schemaDirectives d) := by
  cases d <;> simp [schemaDirectives, single]

theorem directive_mem_slots {name : String} :
    .directive name ∈ slots doc d ↔ ∃ t, d = .directive t ∧ t.name = name := by
  cases d <;> simp [eq_comm]

theorem type_mem_flatMap_slots {name : String} : .type name ∈ before.flatMap (slots doc) ↔
    (Document.types before).any (·.name = name) = true := by
  simp only [List.mem_flatMap, type_mem_slots, List.any_eq_true, decide_eq_true_eq,
    Document.mem_types]
  grind

theorem mem_earlierParts {t : TypeDef} {name : String} :
    t ∈ earlierParts before name ↔ ∃ d ∈ before, typePart? d = some t ∧ t.name = name := by
  simp only [earlierParts, List.mem_filter, List.mem_filterMap, decide_eq_true_eq]
  grind

theorem value_mem_flatMap_slots {type value : String} :
    .value type value ∈ before.flatMap (slots doc) ↔
      value ∈ (earlierParts before type).flatMap fun t => t.values.map (·.name) := by
  simp only [List.mem_flatMap, value_mem_slots, mem_earlierParts]
  grind

theorem field_mem_flatMap_slots {type field : String} :
    .field type field ∈ before.flatMap (slots doc) ↔
      field ∈ (earlierParts before type).flatMap fieldNames := by
  simp only [List.mem_flatMap, field_mem_slots, mem_earlierParts]
  grind

theorem mem_single_flatMap {α : Type} {f : α → List Directive} {l : List α} {name : String} :
    name ∈ single doc (l.flatMap f) ↔ ∃ a ∈ l, name ∈ single doc (f a) := by
  simp only [single, List.mem_filter, List.mem_map, List.mem_flatMap]
  grind

theorem typeDirective_mem_flatMap_slots {type directive : String} :
    .typeDirective type directive ∈ before.flatMap (slots doc) ↔
      directive ∈ single doc ((earlierParts before type).flatMap (·.directives)) := by
  simp only [List.mem_flatMap, typeDirective_mem_slots, mem_single_flatMap, mem_earlierParts]
  grind

theorem schema_mem_flatMap_slots :
    .schema ∈ before.flatMap (slots doc) ↔ before.any isSchema = true := by
  simp only [List.mem_flatMap, schema_mem_slots, List.any_eq_true]

theorem root_mem_flatMap_slots {kind : OperationKind} :
    .root kind ∈ before.flatMap (slots doc) ↔ kind ∈ before.flatMap roots := by
  simp only [List.mem_flatMap, root_mem_slots]

theorem schemaDirective_mem_flatMap_slots {directive : String} :
    .schemaDirective directive ∈ before.flatMap (slots doc) ↔
      directive ∈ single doc (before.flatMap schemaDirectives) := by
  simp only [List.mem_flatMap, schemaDirective_mem_slots, mem_single_flatMap]

theorem directive_mem_flatMap_slots {name : String} :
    .directive name ∈ before.flatMap (slots doc) ↔
      (Document.directives before).any (·.name = name) = true := by
  simp only [List.mem_flatMap, directive_mem_slots, List.any_eq_true, decide_eq_true_eq,
    Document.mem_directives]
  grind

theorem partFaults_eq_nil_iff {t : TypeDef} : partFaults doc before t = [] ↔
    partFaults doc [] t = [] ∧ ∀ s ∈ partSlots doc t, s ∉ before.flatMap (slots doc) := by
  simp only [partFaults, repeatedValues, repeatedFields, partSlots, List.append_eq_nil_iff,
    List.map_eq_nil_iff, repeats_eq_nil_iff, repeatedDirectives_eq_nil_iff, List.forall_mem_append,
    List.forall_mem_map, value_mem_flatMap_slots, field_mem_flatMap_slots,
    typeDirective_mem_flatMap_slots]
  simp only [earlierParts, List.filterMap_nil, List.filter_nil, List.flatMap_nil, single,
    List.map_nil, List.not_mem_nil, not_false_eq_true, implies_true, and_true]
  grind

theorem nodup_partSlots {t : TypeDef} (h : partFaults doc [] t = []) :
    (partSlots doc t).Nodup := by
  simp only [partFaults, repeatedValues, repeatedFields, List.append_eq_nil_iff,
    List.map_eq_nil_iff, repeats_eq_nil_iff, repeatedDirectives_eq_nil_iff] at h
  obtain ⟨⟨⟨⟨hvalues, -⟩, hfields, -⟩, -⟩, hdirectives, -⟩ := h
  rw [partSlots, List.nodup_append', List.nodup_append']
  refine ⟨⟨hvalues.map ?_, hfields.map ?_, ?_⟩, hdirectives.map ?_, ?_⟩
  · exact fun _ _ h => (Slot.value.inj h).2
  · exact fun _ _ h => (Slot.field.inj h).2
  · simp [List.disjoint_left]
  · exact fun _ _ h => (Slot.typeDirective.inj h).2
  · simp only [List.disjoint_left, List.mem_append, List.mem_map]
    rintro _ (⟨_, -, rfl⟩ | ⟨_, -, rfl⟩) <;> simp

theorem single_complaint_eq_nil_iff {p : Prop} [Decidable p] {complaint : String} :
    (if p then [complaint] else []) = [] ↔ ¬p := by
  simp

/-- A definition has no complaints behind others if it has none on its own and holds nothing that
they hold. -/
theorem definitionFaults_eq_nil_iff : definitionFaults doc before d = [] ↔
    definitionFaults doc [] d = [] ∧ ∀ s ∈ slots doc d, s ∉ before.flatMap (slots doc) := by
  cases d with
  | operation => simp [definitionFaults, slots]
  | fragment => simp [definitionFaults, slots]
  | schema isExtension ds rs =>
    have hschema : (∀ s ∈ if isExtension then [] else [Slot.schema],
        s ∉ before.flatMap (slots doc)) ↔ ¬(!isExtension ∧ before.any isSchema) := by
      cases isExtension with
      | true => simp
      | false =>
        rw [if_neg Bool.false_ne_true, List.forall_mem_singleton, schema_mem_flatMap_slots]
        simp
    simp only [definitionFaults, slots, List.append_eq_nil_iff, single_complaint_eq_nil_iff,
      List.map_eq_nil_iff, repeats_eq_nil_iff, repeatedDirectives_eq_nil_iff,
      List.forall_mem_append, hschema, List.forall_mem_map, root_mem_flatMap_slots,
      schemaDirective_mem_flatMap_slots]
    simp only [List.any_nil, Bool.false_eq_true, and_false, not_false_eq_true, List.flatMap_nil,
      single, List.map_nil, List.filter_nil, List.not_mem_nil, implies_true, and_true]
    tauto
  | type t =>
    simp only [definitionFaults, slots, List.append_eq_nil_iff, List.forall_mem_cons,
      type_mem_flatMap_slots, single_complaint_eq_nil_iff]
    rw [partFaults_eq_nil_iff]
    have hnone : ¬(Document.types []).any (·.name = t.name) = true := nofun
    tauto
  | extension t =>
    simp only [definitionFaults, slots, List.append_eq_nil_iff]
    rw [partFaults_eq_nil_iff]
    tauto
  | directive t =>
    simp only [definitionFaults, slots, List.append_eq_nil_iff, List.forall_mem_singleton,
      directive_mem_flatMap_slots, single_complaint_eq_nil_iff]
    have hnone : ¬(Document.directives []).any (·.name = t.name) = true := nofun
    tauto

theorem nodup_slots (h : definitionFaults doc [] d = []) : (slots doc d).Nodup := by
  cases d with
  | operation => exact List.nodup_nil
  | fragment => exact List.nodup_nil
  | schema isExtension ds rs =>
    simp only [definitionFaults, List.append_eq_nil_iff, List.map_eq_nil_iff, repeats_eq_nil_iff,
      repeatedDirectives_eq_nil_iff] at h
    obtain ⟨⟨⟨⟨-, hroots, -⟩, hdirectives, -⟩, -⟩, -⟩ := h
    rw [slots, List.nodup_append', List.nodup_append']
    refine ⟨⟨?_, hroots.map fun _ _ h => Slot.root.inj h, ?_⟩,
      hdirectives.map fun _ _ h => Slot.schemaDirective.inj h, ?_⟩
    · cases isExtension <;> simp
    · cases isExtension <;> simp [List.disjoint_left]
    · simp only [List.disjoint_left, List.mem_append, List.mem_map]
      rintro _ (h | ⟨_, -, rfl⟩)
      · cases isExtension <;> simp at h
        simp [h]
      · simp
  | type t =>
    simp only [definitionFaults, List.append_eq_nil_iff] at h
    rw [slots, List.nodup_cons]
    exact ⟨by simp [partSlots], nodup_partSlots h.1.2⟩
  | extension t =>
    simp only [definitionFaults, List.append_eq_nil_iff] at h
    exact nodup_partSlots h.1.1
  | directive t => exact List.nodup_singleton _

theorem faultsFrom_eq_nil_iff {rest : List Definition} : faultsFrom doc before rest = [] ↔
    (∀ d ∈ rest, definitionFaults doc [] d = []) ∧ (rest.flatMap (slots doc)).Nodup ∧
      (rest.flatMap (slots doc)).Disjoint (before.flatMap (slots doc)) := by
  induction rest generalizing before with
  | nil => simp [faultsFrom]
  | cons d rest ih =>
    rw [faultsFrom, List.append_eq_nil_iff, definitionFaults_eq_nil_iff, ih, List.forall_mem_cons,
      List.flatMap_cons, List.flatMap_append, List.flatMap_singleton, List.nodup_append',
      List.disjoint_append_left, List.disjoint_append_right]
    have hnodup : definitionFaults doc [] d = [] → (slots doc d).Nodup := nodup_slots
    have hsymm : (rest.flatMap (slots doc)).Disjoint (slots doc d) ↔
        (slots doc d).Disjoint (rest.flatMap (slots doc)) := List.disjoint_comm
    rw [← List.disjoint_left]
    tauto

/-- A document has no complaints if no definition has any on its own, and nothing is held twice. -/
theorem faults_eq_nil_iff : Document.faults doc = [] ↔
    (∀ d ∈ doc, definitionFaults doc [] d = []) ∧ (doc.flatMap (slots doc)).Nodup := by
  rw [Document.faults, faultsFrom_eq_nil_iff, List.flatMap_nil]
  simp

end Slots

/-- The documents define the same types and directives, as far as rules look them up. -/
structure Agree (doc' doc : Document) : Prop where
  typeNames : ∀ name, name ∈ typeNames doc' ↔ name ∈ typeNames doc
  type : ∀ name : String, doc'.types.reverse.find? (·.name = name) =
    doc.types.reverse.find? (·.name = name)
  directive : directiveNamed? doc' = directiveNamed? doc

namespace Agree

variable {doc doc' : Document}

section Places

variable (h : Agree doc' doc)

include h

theorem unknownType_eq_nil_iff {defining : Bool} {name : String} :
    unknownType doc' defining name = [] ↔ unknownType doc defining name = [] := by
  simp only [unknownType, List.contains_iff_mem, h.typeNames, ite_eq_left_iff, reduceCtorEq]

theorem single_eq (ds : List Directive) : single doc' ds = single doc ds := by
  rw [single, single, h.directive]

theorem repeatedDirectives_eq (before here : List Directive) :
    repeatedDirectives doc' before here = repeatedDirectives doc before here := by
  rw [repeatedDirectives, repeatedDirectives, h.directive]

theorem directivesFaults_eq (place : Location) (ds : List Directive) :
    directivesFaults doc' place ds = directivesFaults doc place ds := by
  rw [directivesFaults, directivesFaults]
  refine congrArg (List.flatMap · ds) (funext fun d => ?_)
  rw [directiveFaults, directiveFaults, h.directive]

theorem inputFaults_eq_nil_iff {place : Location} {d : InputDef} :
    inputFaults doc' place d = [] ↔ inputFaults doc place d = [] := by
  simp only [inputFaults, List.append_eq_nil_iff, h.repeatedDirectives_eq,
    h.unknownType_eq_nil_iff, h.directivesFaults_eq]

theorem fieldFaults_eq_nil_iff {d : FieldDef} :
    fieldFaults doc' d = [] ↔ fieldFaults doc d = [] := by
  simp only [fieldFaults, List.append_eq_nil_iff, List.flatMap_eq_nil_iff,
    h.repeatedDirectives_eq, h.inputFaults_eq_nil_iff, h.unknownType_eq_nil_iff,
    h.directivesFaults_eq]

theorem valueFaults_eq (d : EnumValueDef) : valueFaults doc' d = valueFaults doc d := by
  rw [valueFaults, valueFaults, h.repeatedDirectives_eq, h.directivesFaults_eq]

theorem insideFaults_eq_nil_iff {d : TypeDef} :
    insideFaults doc' d = [] ↔ insideFaults doc d = [] := by
  simp only [insideFaults, List.append_eq_nil_iff, List.flatMap_eq_nil_iff,
    h.unknownType_eq_nil_iff, h.directivesFaults_eq, h.fieldFaults_eq_nil_iff, h.valueFaults_eq,
    h.inputFaults_eq_nil_iff]

theorem partFaults_eq (before : List Definition) (d : TypeDef) :
    partFaults doc' before d = partFaults doc before d := by
  rw [partFaults, partFaults, h.repeatedDirectives_eq]

theorem extensionFaults_eq_nil_iff {d : TypeDef} :
    extensionFaults doc' d = [] ↔ extensionFaults doc d = [] := by
  rw [extensionFaults, extensionFaults, h.type]
  cases doc.types.reverse.find? (·.name = d.name) <;> simp

end Places

mutual

theorem selectionFaults_eq_nil_iff (h : Agree doc' doc) (s : Selection) :
    selectionFaults doc' s = [] ↔ selectionFaults doc s = [] := by
  cases s with
  | field args ds inner =>
    simp only [selectionFaults, List.append_eq_nil_iff, h.repeatedDirectives_eq,
      h.directivesFaults_eq, h.selectionFaults_all_eq_nil_iff inner]
  | spread ds => simp only [selectionFaults, h.repeatedDirectives_eq, h.directivesFaults_eq]
  | inline condition? ds inner =>
    simp only [selectionFaults, List.append_eq_nil_iff, List.flatMap_eq_nil_iff,
      h.repeatedDirectives_eq, h.unknownType_eq_nil_iff, h.directivesFaults_eq,
      h.selectionFaults_all_eq_nil_iff inner]

theorem selectionFaults_all_eq_nil_iff (h : Agree doc' doc) (selections : List Selection) :
    selectionFaults.all doc' selections = [] ↔ selectionFaults.all doc selections = [] := by
  cases selections with
  | nil => rfl
  | cons s rest =>
    simp only [selectionFaults.all, List.append_eq_nil_iff, h.selectionFaults_eq_nil_iff s,
      h.selectionFaults_all_eq_nil_iff rest]

end

variable (h : Agree doc' doc)

include h

theorem variableFaults_eq_nil_iff {d : VariableDef} :
    variableFaults doc' d = [] ↔ variableFaults doc d = [] := by
  simp only [variableFaults, List.append_eq_nil_iff, h.repeatedDirectives_eq,
    h.unknownType_eq_nil_iff, h.directivesFaults_eq]

theorem definitionFaults_eq_nil_iff {before : List Definition} {d : Definition} :
    definitionFaults doc' before d = [] ↔ definitionFaults doc before d = [] := by
  cases d <;>
    simp only [definitionFaults, List.append_eq_nil_iff, List.flatMap_eq_nil_iff,
      h.repeatedDirectives_eq, h.unknownType_eq_nil_iff, h.directivesFaults_eq,
      h.inputFaults_eq_nil_iff, h.insideFaults_eq_nil_iff, h.partFaults_eq,
      h.extensionFaults_eq_nil_iff, h.selectionFaults_eq_nil_iff, h.variableFaults_eq_nil_iff]

theorem slots_eq : slots doc' = slots doc := by
  funext d
  cases d <;> simp only [slots, partSlots, h.single_eq]

end Agree

end Rules

namespace Document

open Rules

variable {doc doc' : Document}

theorem sublist_directives (doc doc' : Document) :
    ((doc.directives.map (·.name)).map Slot.directive).Sublist (doc.flatMap (slots doc')) := by
  induction doc with
  | nil => exact .slnil
  | cons d rest ih =>
    rw [List.flatMap_cons]
    cases d with
    | directive d => exact ih.cons_cons _
    | _ => exact ih.trans (List.sublist_append_right _ _)

theorem sublist_fieldNames (doc doc' : Document) (type : String) :
    (((earlierParts doc type).flatMap fieldNames).map (Slot.field type)).Sublist
      (doc.flatMap (slots doc')) := by
  induction doc with
  | nil => exact .slnil
  | cons d rest ih =>
    have hpart : ∀ t, typePart? d = some t → t.name = type →
        ((fieldNames t).map (Slot.field type)).Sublist (slots doc' d) := by
      rintro t ht rfl
      have hslots : ((fieldNames t).map (Slot.field t.name)).Sublist (partSlots doc' t) :=
        (List.sublist_append_right _ _).trans (List.sublist_append_left _ _)
      cases d with
      | type t => cases ht; exact hslots.cons _
      | extension t => cases ht; exact hslots
      | _ => cases ht
    rw [List.flatMap_cons, earlierParts, List.filterMap_cons]
    cases ht : typePart? d with
    | none => exact ih.trans (List.sublist_append_right _ _)
    | some t =>
      dsimp only
      rw [List.filter_cons]
      split_ifs with hname
      · rw [List.flatMap_cons, List.map_append]
        exact (hpart t ht (of_decide_eq_true hname)).append ih
      · exact ih.trans (List.sublist_append_right _ _)

theorem nodup_directives (h : doc.faults = []) : (doc.directives.map (·.name)).Nodup :=
  ((sublist_directives doc doc).nodup (faults_eq_nil_iff.mp h).2).of_map _

/-- The parts of a type have fields of different names. -/
theorem nodup_fieldNames (h : doc.faults = []) (type : String) :
    ((earlierParts doc type).flatMap fieldNames).Nodup :=
  ((sublist_fieldNames doc doc type).nodup (faults_eq_nil_iff.mp h).2).of_map _

theorem perm_typePart? (doc : Document) :
    (doc.types ++ doc.extensions).Perm (doc.filterMap typePart?) := by
  induction doc with
  | nil => exact .nil
  | cons d rest ih =>
    cases d with
    | type t => exact ih.cons t
    | extension t => exact List.perm_middle.trans (ih.cons t)
    | _ => exact ih

/-- A type with its extensions has fields of different names. -/
theorem nodup_extended_fieldNames (h : doc.faults = []) {d : TypeDef} (hd : d ∈ doc.types) :
    ((d :: doc.extensions.filter (·.name = d.name)).flatMap fieldNames).Nodup := by
  have hparts : ((doc.types ++ doc.extensions).filter (·.name = d.name)).Perm
      (earlierParts doc d.name) := (perm_typePart? doc).filter _
  have hall := (hparts.flatMap_right fieldNames).nodup_iff.mpr (nodup_fieldNames h d.name)
  rw [List.filter_append] at hall
  have hsole : [d].Sublist (doc.types.filter (·.name = d.name)) :=
    List.singleton_sublist.mpr (List.mem_filter.mpr ⟨hd, decide_eq_true rfl⟩)
  exact hall.sublist ((hsole.append_right _).flatMap _)

/-- No field of a part of a type has two arguments of one name. -/
theorem nodup_arguments (h : doc.faults = []) {d : Definition} (hd : d ∈ doc) {t : TypeDef}
    (ht : typePart? d = some t) : ∀ f ∈ t.fields, (f.arguments.map (·.name)).Nodup := by
  have hpart : partFaults doc [] t = [] := by
    have hnone := (faults_eq_nil_iff.mp h).1 d hd
    cases d with
    | type _ =>
      cases ht
      exact (List.append_eq_nil_iff.mp (List.append_eq_nil_iff.mp hnone).1).2
    | extension _ =>
      cases ht
      exact (List.append_eq_nil_iff.mp (List.append_eq_nil_iff.mp hnone).1).1
    | _ => cases ht
  simp only [partFaults, repeatedInputs, List.append_eq_nil_iff, List.flatMap_eq_nil_iff,
    List.map_eq_nil_iff, duplicated_eq_nil_iff] at hpart
  exact hpart.1.2

theorem nodup_directive_arguments (h : doc.faults = []) {d : DirectiveDef}
    (hd : d ∈ doc.directives) : (d.arguments.map (·.name)).Nodup := by
  have hnone := (faults_eq_nil_iff.mp h).1 _ (mem_directives.mp hd)
  simp only [definitionFaults, repeatedInputs, List.append_eq_nil_iff, List.map_eq_nil_iff,
    duplicated_eq_nil_iff] at hnone
  exact hnone.1.1

theorem agree_of_perm (h : doc'.Perm doc) (hfaults : doc.faults = []) : Agree doc' doc := by
  have htypes : doc'.types.Perm doc.types := h.filterMap _
  have hdirectives : doc'.directives.Perm doc.directives := h.filterMap _
  refine ⟨fun name => (htypes.map _).mem_iff, fun name => ?_, funext fun name => ?_⟩
  · refine find?_key_of_perm TypeDef.name ?_ ?_ name
    · exact (List.reverse_perm _).trans (htypes.trans (List.reverse_perm _).symm)
    · rw [List.map_reverse, List.nodup_reverse]
      exact nodup_types hfaults
  · rw [directiveNamed?, directiveNamed?, find?_key_of_perm DirectiveDef.name ?_ ?_ name]
    · exact (List.reverse_perm _).trans (hdirectives.trans (List.reverse_perm _).symm)
    · rw [List.map_reverse, List.nodup_reverse]
      exact nodup_directives hfaults

/-- A document without complaints has none in another order. -/
theorem faults_eq_nil_of_perm (h : doc'.Perm doc) (hfaults : doc.faults = []) :
    doc'.faults = [] := by
  have hagree := agree_of_perm h hfaults
  obtain ⟨hnone, hnodup⟩ := Rules.faults_eq_nil_iff.mp hfaults
  refine Rules.faults_eq_nil_iff.mpr ⟨fun d hd => ?_, ?_⟩
  · exact hagree.definitionFaults_eq_nil_iff.mpr (hnone d (h.subset hd))
  · rw [hagree.slots_eq]
    exact (h.flatMap_right _).nodup_iff.mpr hnodup

end Document

end Ripple.Graphql
