import Ripple.Graphql.Comparison
import Ripple.Proofs.ChangedParts
import Ripple.Proofs.Distinct
import Ripple.Proofs.SchemaNames

/-! # What comparing two schemas finds

The comparison calls a part lost if and only if the new schema lacks it, and new if and only if
the old schema lacks it. Fields and values count where both schemas have their type and it is of the
same kind in both. Types with two underscores in front of their names make the one exception: they
are not looked at for what is new.
-/
namespace Ripple.Graphql

def TypeDef.outputNames (t : TypeDef) : List String :=
  if t.kind = .object ∨ t.kind = .interface then t.fields.map (·.name) else []

def TypeDef.inputNames (t : TypeDef) : List String :=
  if t.kind = .input then t.inputs.map (·.name) else []

theorem TypeDef.mem_inputNames {t : TypeDef} {f : String} :
    f ∈ t.inputNames ↔ t.kind = .input ∧ ∃ g ∈ t.inputs, g.name = f := by
  rw [inputNames]
  split_ifs with hkind <;> simp [hkind]

def TypeDef.fieldNames (t : TypeDef) : List String := t.outputNames ++ t.inputNames

def TypeDef.valueNames (t : TypeDef) : List String :=
  if t.kind = .enum then t.values.map (·.name) else []

theorem TypeDef.Named.fieldNames {t : TypeDef} (h : t.Named) : ∀ f ∈ t.fieldNames, IsName f := by
  rw [TypeDef.fieldNames, List.forall_mem_append, TypeDef.outputNames, TypeDef.inputNames]
  constructor
  · split
    · exact List.forall_mem_map.mpr h.fields
    · exact List.forall_mem_nil _
  · split
    · exact List.forall_mem_map.mpr h.inputs
    · exact List.forall_mem_nil _

theorem TypeDef.Named.valueNames {t : TypeDef} (h : t.Named) : ∀ v ∈ t.valueNames, IsName v := by
  rw [TypeDef.valueNames]
  split
  · exact List.forall_mem_map.mpr h.values
  · exact List.forall_mem_nil _

/-- The second schema lacks a type of the first. -/
def Schema.LosesType (s s' : Schema) (type : String) : Prop :=
  type ∈ s.types.map (·.name) ∧ type ∉ s'.types.map (·.name)

/-- Both schemas have a type of one name and kind, and in the second it lacks a part. -/
def Schema.LosesIn (parts : TypeDef → List String) (s s' : Schema) (type part : String) : Prop :=
  ∃ t ∈ s.types, ∃ t' ∈ s'.types, t.name = type ∧ t'.name = type ∧ t.kind = t'.kind ∧
    part ∈ parts t ∧ part ∉ parts t'

/-- The second schema lacks a part of the first. -/
def Schema.Loses (s s' : Schema) : Part → Prop
  | .type t => s.LosesType s' t
  | .field t f => s.LosesIn TypeDef.fieldNames s' t f
  | .value e v => s.LosesIn TypeDef.valueNames s' e v

theorem Schema.Loses.named {s s' : Schema} (hs : s.Named) {p : Part} (h : s.Loses s' p) :
    p.Named := by
  cases p with
  | type t =>
    obtain ⟨d, hd, rfl⟩ := List.mem_map.mp h.1
    exact (hs.named d hd).name
  | field t f =>
    obtain ⟨d, hd, -, -, rfl, -, -, hf, -⟩ := h
    exact ⟨(hs.named d hd).name, (hs.named d hd).fieldNames f hf⟩
  | value e v =>
    obtain ⟨d, hd, -, -, rfl, -, -, hv, -⟩ := h
    exact ⟨(hs.named d hd).name, (hs.named d hd).valueNames v hv⟩

theorem Schema.losesIn_fieldNames {s s' : Schema} {t f : String} :
    s.LosesIn TypeDef.fieldNames s' t f ↔
      s.LosesIn TypeDef.outputNames s' t f ∨ s.LosesIn TypeDef.inputNames s' t f := by
  simp only [LosesIn, TypeDef.fieldNames, TypeDef.outputNames, TypeDef.inputNames,
    List.mem_append]
  grind

namespace Comparison

section Keys

variable {α : Type} {key : α → String} {a b : α} {old new : List α}

theorem mem_missing : a ∈ missing key old new ↔ a ∈ old ∧ key a ∉ new.map key := by
  simp [missing]

theorem mem_common (hnodup : (new.map key).Nodup) :
    (a, b) ∈ common key old new ↔ a ∈ old ∧ b ∈ new ∧ key a = key b := by
  have hreverse : (new.reverse.map key).Nodup := by
    rwa [List.map_reverse, List.nodup_reverse]
  simp only [common, List.mem_filterMap, Option.map_eq_some_iff, find?_key_iff key hreverse,
    List.mem_reverse]
  constructor
  · rintro ⟨a', ha, b', ⟨hb, hkey⟩, heq⟩
    cases heq
    exact ⟨ha, hb, hkey.symm⟩
  · rintro ⟨ha, hb, hkey⟩
    exact ⟨a, ha, b, ⟨hb, hkey.symm⟩, rfl⟩

end Keys

variable {d : Difference}

theorem part?_of_mem_defaultDifference {place : InputPlace} {old new : InputDef}
    (h : d ∈ defaultDifference place old new) : d.part? = none := by
  rw [defaultDifference] at h
  split at h
  · rw [List.mem_singleton.mp h]
    rfl
  · split at h
    · cases h
    · rw [List.mem_singleton.mp h]
      rfl
  · cases h

theorem part?_of_mem_argumentDifference {place : InputPlace} {old new : InputDef}
    (h : d ∈ argumentDifference place old new) : d.part? = none := by
  rw [argumentDifference] at h
  split at h
  · exact part?_of_mem_defaultDifference h
  · rw [List.mem_singleton.mp h]
    rfl

theorem part?_of_mem_argumentDifferences {type field : String} {old new : List InputDef}
    (h : d ∈ argumentDifferences type field old new) : d.part? = none := by
  rw [argumentDifferences, List.mem_append, List.mem_append] at h
  rcases h with (h | h) | h
  · obtain ⟨a, -, rfl⟩ := List.mem_map.mp h
    rfl
  · obtain ⟨⟨a, b⟩, -, h⟩ := List.mem_flatMap.mp h
    exact part?_of_mem_argumentDifference h
  · obtain ⟨a, -, rfl⟩ := List.mem_map.mp h
    rw [inputAdded]
    split <;> rfl

theorem part?_of_mem_directiveDifferences {old new : DirectiveDef}
    (h : d ∈ directiveDifferences old new) : d.part? = none := by
  simp only [directiveDifferences, List.mem_append] at h
  rcases h with (((h | h) | h) | h) | h
  · obtain ⟨a, -, rfl⟩ := List.mem_map.mp h
    rfl
  · obtain ⟨a, -, rfl⟩ := List.mem_map.mp h
    rfl
  · obtain ⟨⟨a, b⟩, -, h⟩ := List.mem_flatMap.mp h
    exact part?_of_mem_argumentDifference h
  · split at h
    · rw [List.mem_singleton.mp h]
      rfl
    · cases h
  · obtain ⟨l, -, rfl⟩ := List.mem_map.mp h
    rfl

theorem part?_of_mem_memberDifferences {type : String} {old new : List String}
    (h : d ∈ (missing id new old).map (.memberAdded type) ++
      (missing id old new).map (.memberRemoved type)) : d.part? = none := by
  rcases List.mem_append.mp h with h | h
  all_goals
    obtain ⟨m, -, rfl⟩ := List.mem_map.mp h
    rfl

theorem part?_of_mem_interfaceDifferences {type : String} {old new : List String}
    (h : d ∈ interfaceDifferences type old new) : d.part? = none := by
  rcases List.mem_append.mp h with h | h
  all_goals
    obtain ⟨i, -, rfl⟩ := List.mem_map.mp h
    rfl

theorem mem_fieldDifferences (hd : d.part? ≠ none) {type : String} {old new : List FieldDef} :
    d ∈ fieldDifferences type old new ↔
      ∃ f ∈ old, f.name ∉ new.map (·.name) ∧ .fieldRemoved type f.name = d := by
  rw [fieldDifferences, List.mem_append, or_iff_left, List.mem_map]
  · simp only [mem_missing, and_assoc]
  · intro h
    obtain ⟨⟨f, g⟩, -, h⟩ := List.mem_flatMap.mp h
    rcases List.mem_append.mp h with h | h
    · exact hd (part?_of_mem_argumentDifferences h)
    · split at h
      · cases h
      · rw [List.mem_singleton.mp h] at hd
        exact hd rfl

theorem mem_inputDifferences (hd : d.part? ≠ none) {type : String} {old new : List InputDef} :
    d ∈ inputDifferences type old new ↔
      (∃ f ∈ new, f.name ∉ old.map (·.name) ∧ inputAdded (.field type f.name) f = d) ∨
        ∃ f ∈ old, f.name ∉ new.map (·.name) ∧ .fieldRemoved type f.name = d := by
  rw [inputDifferences, List.mem_append, or_iff_left, List.mem_append, List.mem_map, List.mem_map]
  · simp only [mem_missing, and_assoc]
  · intro h
    obtain ⟨⟨f, g⟩, -, h⟩ := List.mem_flatMap.mp h
    dsimp only at h
    split at h
    · exact hd (part?_of_mem_defaultDifference h)
    · rw [List.mem_singleton.mp h] at hd
      exact hd rfl

/-- Of two types of one name and kind, the names of fields and values are compared. -/
theorem mem_typeDifferences (hd : d.part? ≠ none) {old new : TypeDef} :
    d ∈ typeDifferences old new ↔ old.kind = new.kind ∧
      ((∃ f ∈ old.fieldNames, f ∉ new.fieldNames ∧ .fieldRemoved old.name f = d) ∨
        (∃ f ∈ new.inputs, new.kind = .input ∧ f.name ∉ old.inputNames ∧
          inputAdded (.field old.name f.name) f = d) ∨
        (∃ v ∈ old.valueNames, v ∉ new.valueNames ∧ .valueRemoved old.name v = d) ∨
        ∃ v ∈ new.valueNames, v ∉ old.valueNames ∧ .valueAdded old.name v = d) := by
  rw [typeDifferences]
  split_ifs with hkinds
  · rw [List.mem_singleton]
    refine iff_of_false ?_ fun h => hkinds h.1
    rintro rfl
    exact hd rfl
  · rw [not_not] at hkinds
    have hinterfaces : d ∉ interfaceDifferences old.name old.interfaces new.interfaces :=
      fun h => hd (part?_of_mem_interfaceDifferences h)
    have hmembers : d ∉ (missing id new.members old.members).map (.memberAdded old.name) ++
        (missing id old.members new.members).map (.memberRemoved old.name) :=
      fun h => hd (part?_of_mem_memberDifferences h)
    simp only [TypeDef.fieldNames, TypeDef.outputNames, TypeDef.inputNames, TypeDef.valueNames,
      ← hkinds]
    cases old.kind with
    | scalar => simp
    | object => simp [hinterfaces, mem_fieldDifferences hd]
    | interface => simp [hinterfaces, mem_fieldDifferences hd]
    | union => simpa using hmembers
    | enum => simp [mem_missing, and_assoc, or_comm]
    | input => simp [mem_inputDifferences hd, or_comm]

/-- The two types of one name are compared, and so are the two directives. -/
theorem mem_losses_iff_exists (hd : d.part? ≠ none) {old new : Schema} (hnew : new.Named) :
    d ∈ losses old new ↔
      (∃ t, old.LosesType new t ∧ .typeRemoved t = d) ∨
        ∃ a ∈ old.types, ∃ b ∈ new.types, a.name = b.name ∧ d ∈ typeDifferences a b := by
  rw [losses, List.mem_append, or_iff_left, List.mem_append, or_iff_left, List.mem_append,
    List.mem_map, List.mem_flatMap]
  · refine or_congr ?_ ?_
    · simp only [mem_missing, Schema.LosesType, List.mem_map]
      grind
    · simp only [Prod.exists, mem_common hnew.nodup]
      grind
  · intro h
    obtain ⟨x, -, rfl⟩ := List.mem_map.mp h
    exact hd rfl
  · intro h
    obtain ⟨⟨a, b⟩, -, h⟩ := List.mem_flatMap.mp h
    exact hd (part?_of_mem_directiveDifferences h)

/-- The parts of both schemas that are lost, with the input fields and values that are new. -/
theorem mem_losses (hd : d.part? ≠ none) {old new : Schema} (hnew : new.Named) :
    d ∈ losses old new ↔
      (∃ t, old.LosesType new t ∧ .typeRemoved t = d) ∨
        (∃ t f, old.LosesIn TypeDef.fieldNames new t f ∧ .fieldRemoved t f = d) ∨
        (∃ a ∈ old.types, ∃ b ∈ new.types, a.name = b.name ∧ a.kind = b.kind ∧
          ∃ f ∈ b.inputs, b.kind = .input ∧ f.name ∉ a.inputNames ∧
            inputAdded (.field a.name f.name) f = d) ∨
        (∃ t v, old.LosesIn TypeDef.valueNames new t v ∧ .valueRemoved t v = d) ∨
        ∃ t v, new.LosesIn TypeDef.valueNames old t v ∧ .valueAdded t v = d := by
  rw [mem_losses_iff_exists hd hnew]
  simp only [mem_typeDifferences hd, Schema.LosesIn]
  grind

/-- Every new type is looked up in the old schema, and the fields of the two are compared. -/
theorem mem_additions_iff_exists {old new : Schema} (hold : old.Named) :
    d ∈ additions old new ↔ ∃ t ∈ new.types, Text.startsWith t.name "__" = false ∧
      (t.name ∉ old.types.map (·.name) ∧ .typeAdded t.name = d ∨
        ∃ o ∈ old.types, o.name = t.name ∧ t.kind = o.kind ∧
          ∃ f ∈ t.outputNames, f ∉ o.outputNames ∧ .fieldAdded t.name f = d) := by
  rw [additions, List.mem_flatMap]
  simp only [List.mem_filter, Bool.not_eq_true', and_assoc]
  refine exists_congr fun t => and_congr_right fun ht => and_congr_right fun hname => ?_
  by_cases hin : t.name ∈ old.types.map (·.name)
  · obtain ⟨o, ho, hkey⟩ := List.mem_map.mp hin
    have hsole : ∀ o' ∈ old.types, o'.name = t.name → o' = o := fun o' ho' h =>
      List.inj_on_of_nodup_map hold.nodup ho' ho (h.trans hkey.symm)
    rw [(find?_key_iff (·.name) hold.nodup _ _).mpr ⟨ho, hkey⟩]
    dsimp only
    by_cases hkinds : (t.kind = .object ∨ t.kind = .interface) ∧ o.kind = t.kind
    · have ht : t.outputNames = t.fields.map (·.name) := if_pos hkinds.1
      have ho : o.outputNames = o.fields.map (·.name) := if_pos (hkinds.2 ▸ hkinds.1)
      rw [if_pos hkinds, List.mem_map]
      simp only [mem_missing, ← ho]
      grind
    · rw [if_neg hkinds]
      grind [TypeDef.outputNames]
  · have hfind : old.types.find? (·.name = t.name) = none := by simpa using hin
    rw [hfind, List.mem_singleton]
    grind

theorem mem_additions {old new : Schema} (hold : old.Named) :
    d ∈ additions old new ↔
      (∃ t, new.LosesType old t ∧ Text.startsWith t "__" = false ∧ .typeAdded t = d) ∨
        ∃ t f, new.LosesIn TypeDef.outputNames old t f ∧ Text.startsWith t "__" = false ∧
          .fieldAdded t f = d := by
  rw [mem_additions_iff_exists hold]
  simp only [Schema.LosesType, Schema.LosesIn]
  grind

@[simp] theorem inputAdded_eq_iff {place : InputPlace} {a : InputDef} :
    inputAdded place a = d ↔
      (a.isRequired = true ∧ .requiredInputAdded place = d ∨
        a.isRequired = false ∧ .optionalInputAdded place = d) := by
  rw [inputAdded]
  split <;> simp_all

/-- What is listed as a loss breaks something or may surprise. -/
theorem criticality_of_mem_losses {old new : Schema} (hnew : new.Named) (h : d ∈ losses old new) :
    d.criticality ≠ .nonBreaking := by
  intro hnone
  cases d with
  | typeAdded t => simp [mem_losses (d := .typeAdded t) nofun hnew] at h
  | fieldAdded t f => simp [mem_losses (d := .fieldAdded t f) nofun hnew] at h
  | _ => cases hnone

theorem mem_differences {old new : Schema} (hnew : new.Named) :
    d ∈ differences old new ↔ d ∈ losses old new ∨ d ∈ additions old new := by
  rw [differences, List.mem_append, List.mem_append, List.mem_filter, List.mem_filter,
    ← and_or_left]
  refine or_congr_left (and_iff_left_of_imp fun h => ?_)
  have hne := criticality_of_mem_losses hnew h
  cases hc : d.criticality with
  | breaking => simp
  | dangerous => simp
  | nonBreaking => exact absurd hc hne

section Parts

variable {old new : Schema} {p : Part} {t f : String}

theorem loss_mem_differences (hold : old.Named) (hnew : new.Named) :
    p.loss ∈ differences old new ↔ old.Loses new p := by
  have hpart : p.loss.part? ≠ none := by
    cases p <;> nofun
  rw [mem_differences hnew, mem_losses hpart hnew, mem_additions hold]
  cases p <;> simp [Part.loss, Schema.Loses]

theorem typeAdded_mem_differences (hold : old.Named) (hnew : new.Named) :
    .typeAdded t ∈ differences old new ↔
      new.LosesType old t ∧ Text.startsWith t "__" = false := by
  rw [mem_differences hnew, mem_losses (d := .typeAdded t) nofun hnew, mem_additions hold]
  simp

theorem valueAdded_mem_differences (hold : old.Named) (hnew : new.Named) :
    .valueAdded t f ∈ differences old new ↔ new.LosesIn TypeDef.valueNames old t f := by
  rw [mem_differences hnew, mem_losses (d := .valueAdded t f) nofun hnew, mem_additions hold]
  simp

theorem fieldAdded_mem_differences (hold : old.Named) (hnew : new.Named) :
    .fieldAdded t f ∈ differences old new ↔
      new.LosesIn TypeDef.outputNames old t f ∧ Text.startsWith t "__" = false := by
  rw [mem_differences hnew, mem_losses (d := .fieldAdded t f) nofun hnew, mem_additions hold]
  simp

theorem inputAdded_mem_differences (hold : old.Named) (hnew : new.Named) :
    .requiredInputAdded (.field t f) ∈ differences old new ∨
        .optionalInputAdded (.field t f) ∈ differences old new ↔
      new.LosesIn TypeDef.inputNames old t f := by
  rw [mem_differences hnew, mem_losses (d := .requiredInputAdded (.field t f)) nofun hnew,
    mem_differences hnew, mem_losses (d := .optionalInputAdded (.field t f)) nofun hnew,
    mem_additions hold, mem_additions hold]
  simp only [inputAdded_eq_iff, reduceCtorEq, and_false, exists_false, false_or, or_false,
    Difference.requiredInputAdded.injEq, Difference.optionalInputAdded.injEq,
    InputPlace.field.injEq]
  constructor
  · rintro (h | h)
    all_goals
      obtain ⟨a, ha, b, hb, hname, hkind, g, hg, hinput, hnot, -, rfl, rfl⟩ := h
      exact ⟨b, hb, a, ha, hname.symm, rfl, hkind.symm,
        TypeDef.mem_inputNames.mpr ⟨hinput, g, hg, rfl⟩, hnot⟩
  · rintro ⟨b, hb, a, ha, hname, rfl, hkind, hmem, hnot⟩
    obtain ⟨hinput, g, hg, rfl⟩ := TypeDef.mem_inputNames.mp hmem
    cases hreq : g.isRequired with
    | true =>
      exact .inl ⟨a, ha, b, hb, hname.symm, hkind.symm, g, hg, hinput, hnot, hreq, rfl, rfl⟩
    | false =>
      exact .inr ⟨a, ha, b, hb, hname.symm, hkind.symm, g, hg, hinput, hnot, hreq, rfl, rfl⟩

/-- A part is called lost if and only if the new schema lacks it. -/
theorem exists_lost_iff (hold : old.Named) (hnew : new.Named) :
    (∃ d ∈ differences old new, d.lost? = some p) ↔ old.Loses new p := by
  simp only [Difference.lost?_eq_some_iff, exists_eq_right']
  exact loss_mem_differences hold hnew

/-- A part is called new only if the old schema lacks it. -/
theorem loses_of_gained? (hold : old.Named) (hnew : new.Named) (hd : d ∈ differences old new)
    (h : d.gained? = some p) : new.Loses old p := by
  cases p with
  | type t =>
    rw [← Difference.gained?_eq_type_iff.mp h] at hd
    exact ((typeAdded_mem_differences hold hnew).mp hd).1
  | field t f =>
    rw [Schema.Loses, Schema.losesIn_fieldNames, ← inputAdded_mem_differences hold hnew]
    rcases Difference.gained?_eq_field_iff.mp h with rfl | rfl | rfl
    · exact .inl ((fieldAdded_mem_differences hold hnew).mp hd).1
    · exact .inr (.inl hd)
    · exact .inr (.inr hd)
  | value e v =>
    rw [← Difference.gained?_eq_value_iff.mp h] at hd
    exact (valueAdded_mem_differences hold hnew).mp hd

/-- A new part that is always looked for. Neither new types nor new fields that are read are
looked for where the name of the type starts with two underscores. -/
def Sought : Part → Prop
  | .type t | .field t _ => Text.startsWith t "__" = false
  | .value .. => True

/-- A part that the old schema lacks is called new if it is looked for. -/
theorem exists_gained (hold : old.Named) (hnew : new.Named) (hp : Sought p)
    (h : new.Loses old p) : ∃ d ∈ differences old new, d.gained? = some p := by
  cases p with
  | type t =>
    exact ⟨.typeAdded t, (typeAdded_mem_differences hold hnew).mpr ⟨h, hp⟩, rfl⟩
  | field t f =>
    rw [Schema.Loses, Schema.losesIn_fieldNames, ← inputAdded_mem_differences hold hnew] at h
    rcases h with h | h | h
    · exact ⟨.fieldAdded t f, (fieldAdded_mem_differences hold hnew).mpr ⟨h, hp⟩, rfl⟩
    · exact ⟨_, h, rfl⟩
    · exact ⟨_, h, rfl⟩
  | value e v =>
    exact ⟨.valueAdded e v, (valueAdded_mem_differences hold hnew).mpr h, rfl⟩

end Parts

end Comparison

/-- Two texts that both build are compared. -/
theorem schemaChanges_of_parse {old new : String} {s s' : Schema}
    (hold : Schema.parse old.toList = .ok s) (hnew : Schema.parse new.toList = .ok s') :
    schemaChanges old new = .ok (Comparison.sorted (Comparison.differences s s')) := by
  rw [schemaChanges, schemaDifferences]
  dsimp only
  rw [hold, hnew]
  rfl

end Ripple.Graphql
