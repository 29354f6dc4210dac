import Mathlib.Data.List.Nodup
import Ripple.Graphql.Schema
import Ripple.Proofs.ReaderNames

/-! # The types of a schema

A schema that was read has types of different names, because a document with two types of one name
has complaints. The extensions of a type add parts to it, and all of them have names.
-/
namespace Ripple.Graphql

open Outcome

theorem Document.mem_types {doc : Document} {d : TypeDef} : d ∈ doc.types ↔ .type d ∈ doc := by
  rw [types, List.mem_filterMap]
  constructor
  · rintro ⟨definition, hmem, hd⟩
    split at hd <;> cases hd
    exact hmem
  · exact fun hmem => ⟨_, hmem, rfl⟩

theorem Document.mem_extensions {doc : Document} {d : TypeDef} :
    d ∈ doc.extensions ↔ .extension d ∈ doc := by
  rw [extensions, List.mem_filterMap]
  constructor
  · rintro ⟨definition, hmem, hd⟩
    split at hd <;> cases hd
    exact hmem
  · exact fun hmem => ⟨_, hmem, rfl⟩

theorem Document.mem_directives {doc : Document} {d : DirectiveDef} :
    d ∈ doc.directives ↔ .directive d ∈ doc := by
  rw [directives, List.mem_filterMap]
  constructor
  · rintro ⟨definition, hmem, hd⟩
    split at hd <;> cases hd
    exact hmem
  · exact fun hmem => ⟨_, hmem, rfl⟩

theorem Document.types_append (before rest : Document) :
    Document.types (before ++ rest) = before.types ++ rest.types :=
  List.filterMap_append

theorem Rules.nodup_types_of_faultsFrom {doc before rest : Document}
    (h : faultsFrom doc before rest = []) (hbefore : (before.types.map (·.name)).Nodup) :
    ((Document.types (before ++ rest)).map (·.name)).Nodup := by
  induction rest generalizing before with
  | nil => rwa [List.append_nil]
  | cons d rest ih =>
    rw [faultsFrom, List.append_eq_nil_iff] at h
    rw [← List.singleton_append, ← List.append_assoc]
    refine ih h.2 ?_
    rw [Document.types_append]
    cases d with
    | type t =>
      obtain ⟨⟨hnew, -⟩, -⟩ := (List.append_eq_nil_iff.mp h.1).imp_left List.append_eq_nil_iff.mp
      have hfresh : t.name ∉ before.types.map (·.name) := by
        intro hmem
        obtain ⟨other, hother, hname⟩ := List.mem_map.mp hmem
        rw [if_pos (List.any_eq_true.mpr ⟨other, hother, decide_eq_true hname⟩)] at hnew
        cases hnew
      rw [List.map_append, List.nodup_append_comm]
      exact List.nodup_cons.mpr ⟨hfresh, hbefore⟩
    | _ => simpa [Document.types] using hbefore

/-- In a document without complaints no two types have the same name. -/
theorem Document.nodup_types {doc : Document} (h : doc.faults = []) :
    (doc.types.map (·.name)).Nodup :=
  Rules.nodup_types_of_faultsFrom h List.nodup_nil

theorem Rules.exists_definitionFaults {doc before rest : Document}
    (h : faultsFrom doc before rest = []) {d : Definition} (hd : d ∈ rest) :
    ∃ earlier, definitionFaults doc earlier d = [] := by
  induction rest generalizing before with
  | nil => cases hd
  | cons e rest ih =>
    rw [faultsFrom, List.append_eq_nil_iff] at h
    rcases List.mem_cons.mp hd with rfl | hd
    · exact ⟨before, h.1⟩
    · exact ih h.2 hd

theorem Rules.insideFaults_eq_nil {doc : Document} (h : doc.faults = []) {d : Definition}
    (hd : d ∈ doc) {part : TypeDef} (hpart : typePart? d = some part) :
    insideFaults doc part = [] := by
  obtain ⟨earlier, hnone⟩ := exists_definitionFaults h hd
  cases d with
  | type t =>
    cases hpart
    exact (List.append_eq_nil_iff.mp hnone).2
  | extension t =>
    cases hpart
    exact (List.append_eq_nil_iff.mp hnone).2
  | _ => cases hpart

/-- The document defines the type, or it is a standard type. -/
def Document.Knows (doc : Document) (type : String) : Prop :=
  type ∈ doc.types.map (·.name) ∨ type ∈ Builtin.typeNames

theorem Rules.knows_of_unknownType {doc : Document} {type : String}
    (h : unknownType doc true type = []) : doc.Knows type := by
  by_contra hnot
  rw [Document.Knows, ← List.contains_iff_mem, ← List.contains_iff_mem] at hnot
  rw [unknownType, if_neg (by simpa [typeNames] using hnot)] at h
  cases h

theorem Document.Knows.isName {doc : Document} (hdoc : ∀ d ∈ doc, d.Named) {type : String}
    (h : doc.Knows type) : IsName type := by
  rcases h with h | h
  · obtain ⟨d, hd, rfl⟩ := List.mem_map.mp h
    exact (hdoc _ (mem_types.mp hd)).name
  · exact (show ∀ t ∈ Builtin.typeNames, IsName t by decide) type h

/-- All types, fields and values have names, and no two types have the same name. -/
structure Schema.Named (s : Schema) : Prop where
  named : ∀ t ∈ s.types, t.Named
  nodup : (s.types.map (·.name)).Nodup

theorem Schema.named_extended {doc : Document} (h : ∀ d ∈ doc, d.Named) {d : TypeDef}
    (hd : d ∈ doc.types) : (extended doc d).Named := by
  have hparts : ∀ part ∈ d :: doc.extensions.filter (·.name = d.name), part.Named := by
    rw [List.forall_mem_cons]
    refine ⟨h _ (Document.mem_types.mp hd), fun part hpart => ?_⟩
    exact h _ (Document.mem_extensions.mp (List.mem_of_mem_filter hpart))
  refine ⟨(hparts d List.mem_cons_self).name, ?_, ?_, ?_⟩
  · exact List.forall_mem_flatMap.mpr fun part hpart => (hparts part hpart).fields
  · exact List.forall_mem_flatMap.mpr fun part hpart => (hparts part hpart).inputs
  · exact List.forall_mem_flatMap.mpr fun part hpart => (hparts part hpart).values

theorem Schema.nodup_types_ofDocument {doc : Document} (h : doc.faults = []) :
    ((ofDocument doc).types.map (·.name)).Nodup := by
  have hnames : ((ofDocument doc).types.map (·.name)) =
      (doc.types.filter fun d => !Builtin.typeNames.contains d.name).map (·.name) := by
    rw [ofDocument, List.map_map]
    rfl
  rw [hnames]
  exact (Document.nodup_types h).sublist (List.filter_sublist.map _)

theorem Schema.named_ofDocument {doc : Document} (h : ∀ d ∈ doc, d.Named)
    (hfaults : doc.faults = []) : (ofDocument doc).Named := by
  constructor
  · intro t ht
    obtain ⟨d, hd, rfl⟩ := List.mem_map.mp ht
    exact named_extended h (List.mem_of_mem_filter hd)
  · exact nodup_types_ofDocument hfaults

/-- A schema is read from a document without complaints and without bad arguments. -/
theorem Schema.parse_eq_ok_iff {text : List Char} {s : Schema} : parse text = .ok s ↔
    ∃ doc, Document.parse text = .ok doc ∧ doc.faults = [] ∧ (ofDocument doc).fault? = none ∧
      ofDocument doc = s := by
  rw [parse, bind_eq_ok_iff]
  refine exists_congr fun doc => ?_
  rw [mapError_eq_ok_iff]
  refine and_congr_right fun _ => ?_
  dsimp only
  cases hfaults : doc.faults with
  | cons complaint more => exact iff_of_false nofun nofun
  | nil =>
    cases hfault : (ofDocument doc).fault? with
    | some f => exact iff_of_false nofun nofun
    | none => simp [pure, Except.pure]

/-- A schema that was read has names, and no two of its types have the same. -/
theorem Schema.named_of_parse {text : List Char} {s : Schema} (h : Schema.parse text = .ok s) :
    s.Named := by
  obtain ⟨doc, hdoc, hfaults, -, rfl⟩ := parse_eq_ok_iff.mp h
  exact named_ofDocument (Document.named_of_parse hdoc) hfaults

end Ripple.Graphql
