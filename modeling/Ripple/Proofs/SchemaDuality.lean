import Ripple.Proofs.SchemaComparison

/-! # Comparing two schemas in both directions

What is new from one schema to another is gone on the way back. The comparison looks for new types
and new fields that are read in its own way, and the paths of all other changes are found in their
descriptions, so this says that two searches agree. Each of them lists a part if and only if one of
the schemas has it and the other lacks it.
-/
namespace Ripple.Graphql

open Comparison Difference

/-- A change of one of the kinds is listed for the path. -/
def Lists (changes : List SchemaChange) (kinds : List String) (path : String) : Prop :=
  ∃ c ∈ changes, c.kind ∈ kinds ∧ c.path = path

theorem lists_sorted {found : List Difference} {kinds : List String} {path : String} :
    Lists (sorted found) kinds path ↔ ∃ d ∈ found, d.kind ∈ kinds ∧ d.path = path := by
  simp [Lists, sorted, change]

section Schemas

variable {old new : Schema} {p : Part}

/-- A loss is listed if and only if the new schema lacks the part. -/
theorem lists_lost (hold : old.Named) (hnew : new.Named) :
    Lists (sorted (differences old new)) p.sort.lostKinds p.path ↔ old.Loses new p := by
  rw [lists_sorted, ← exists_lost_iff hold hnew]
  constructor
  · rintro ⟨d, hd, hkind, hpath⟩
    obtain ⟨q, hq, hsort⟩ := kind_mem_lostKinds.mp hkind
    have hnamed := ((exists_lost_iff hold hnew).mp ⟨d, hd, hq⟩).named hold
    rw [path_of_lost? hnamed hq] at hpath
    exact ⟨d, hd, Part.eq_of_path hnamed hsort hpath ▸ hq⟩
  · rintro ⟨d, hd, hp⟩
    have hnamed := ((exists_lost_iff hold hnew).mp ⟨d, hd, hp⟩).named hold
    exact ⟨d, hd, kind_mem_lostKinds.mpr ⟨p, hp, rfl⟩, path_of_lost? hnamed hp⟩

/-- A new part is listed if and only if the old schema lacks it. -/
theorem lists_gained (hold : old.Named) (hnew : new.Named) (hp : Sought p) :
    Lists (sorted (differences old new)) p.sort.gainedKinds p.path ↔ new.Loses old p := by
  rw [lists_sorted]
  constructor
  · rintro ⟨d, hd, hkind, hpath⟩
    obtain ⟨q, hq, hsort⟩ := kind_mem_gainedKinds.mp hkind
    have hloses := loses_of_gained? hold hnew hd hq
    rw [path_of_gained? (hloses.named hnew) hq] at hpath
    exact Part.eq_of_path (hloses.named hnew) hsort hpath ▸ hloses
  · intro hloses
    obtain ⟨d, hd, hq⟩ := exists_gained hold hnew hp hloses
    exact ⟨d, hd, kind_mem_gainedKinds.mpr ⟨p, hq, rfl⟩, path_of_gained? (hloses.named hnew) hq⟩

/-- What is listed as new in one direction is listed as lost in the other. -/
theorem lists_gained_iff_lists_lost (hold : old.Named) (hnew : new.Named) (hp : Sought p) :
    Lists (sorted (differences old new)) p.sort.gainedKinds p.path ↔
      Lists (sorted (differences new old)) p.sort.lostKinds p.path := by
  rw [lists_gained hold hnew hp, lists_lost hnew hold]

end Schemas

/-- Two schema texts are compared in both directions. New types, new fields and new enum values in
one direction are those that are gone in the other. -/
theorem schemaChanges_reversed {old new : String} (hold : (Schema.parse old.toList).isOk = true)
    (hnew : (Schema.parse new.toList).isOk = true) :
    ∃ forth back, schemaChanges old new = .ok forth ∧ schemaChanges new old = .ok back ∧
      (∀ t, Text.startsWith t "__" = false →
        (Lists forth ["TYPE_ADDED"] t ↔ Lists back ["TYPE_REMOVED"] t)) ∧
      (∀ t f, Text.startsWith t "__" = false →
        (Lists forth ["FIELD_ADDED", "REQUIRED_INPUT_FIELD_ADDED", "OPTIONAL_INPUT_FIELD_ADDED"]
            (t ++ "." ++ f) ↔
          Lists back ["FIELD_REMOVED"] (t ++ "." ++ f))) ∧
      ∀ e v, Lists forth ["VALUE_ADDED_TO_ENUM"] (e ++ "." ++ v) ↔
        Lists back ["VALUE_REMOVED_FROM_ENUM"] (e ++ "." ++ v) := by
  obtain ⟨s, hs⟩ := Outcome.isOk_iff.mp hold
  obtain ⟨s', hs'⟩ := Outcome.isOk_iff.mp hnew
  have hnamed := Schema.named_of_parse hs
  have hnamed' := Schema.named_of_parse hs'
  refine ⟨_, _, schemaChanges_of_parse hs hs', schemaChanges_of_parse hs' hs, ?_, ?_, ?_⟩
  · intro t ht
    exact lists_gained_iff_lists_lost (p := .type t) hnamed hnamed' ht
  · intro t f ht
    exact lists_gained_iff_lists_lost (p := .field t f) hnamed hnamed' ht
  · intro e v
    exact lists_gained_iff_lists_lost (p := .value e v) hnamed hnamed' trivial

/-- A schema with a type, an input type and an enum. -/
def smallLibrary : String :=
  "type Book{title:Int}input Order{title:Int}enum Shelf{A}"

def largeLibrary : String :=
  "type Book{title:Int year:Int}input Order{title:Int year:Int}enum Shelf{A B}type Author{name:Int}"

theorem schemaDifferences_library :
    schemaDifferences smallLibrary largeLibrary =
      .ok [.optionalInputAdded (.field "Order" "year"), .valueAdded "Shelf" "B",
        .fieldAdded "Book" "year", .typeAdded "Author"] := by
  rw [Outcome.eq_ok_iff_toOption]
  decide +kernel

theorem schemaChanges_reversed_library :
    ∃ forth back, schemaChanges smallLibrary largeLibrary = .ok forth ∧
      schemaChanges largeLibrary smallLibrary = .ok back ∧
      (Lists forth ["TYPE_ADDED"] "Author" ∧ Lists back ["TYPE_REMOVED"] "Author") ∧
      (∀ t ∈ ["Book", "Order"],
        Lists forth ["FIELD_ADDED", "REQUIRED_INPUT_FIELD_ADDED", "OPTIONAL_INPUT_FIELD_ADDED"]
            (t ++ "." ++ "year") ∧
          Lists back ["FIELD_REMOVED"] (t ++ "." ++ "year")) ∧
      Lists forth ["VALUE_ADDED_TO_ENUM"] "Shelf.B" ∧
        Lists back ["VALUE_REMOVED_FROM_ENUM"] "Shelf.B" := by
  have hsmall : (Schema.parse smallLibrary.toList).isOk = true := by decide +kernel
  have hlarge : (Schema.parse largeLibrary.toList).isOk = true := by decide +kernel
  obtain ⟨forth, back, hforth, hback, htype, hfield, hvalue⟩ := schemaChanges_reversed hsmall hlarge
  have hlists : ∀ {kinds : List String} {path : String}, Lists forth kinds path ↔
      ∃ d ∈ [Difference.optionalInputAdded (.field "Order" "year"), .valueAdded "Shelf" "B",
        .fieldAdded "Book" "year", .typeAdded "Author"], d.kind ∈ kinds ∧ d.path = path := by
    intro kinds path
    rw [schemaChanges, schemaDifferences_library] at hforth
    cases hforth
    exact lists_sorted
  have hauthor : Lists forth ["TYPE_ADDED"] "Author" := hlists.mpr (by decide +kernel)
  have hshelf : Lists forth ["VALUE_ADDED_TO_ENUM"] "Shelf.B" := hlists.mpr (by decide +kernel)
  refine ⟨forth, back, hforth, hback, ⟨hauthor, (htype "Author" (by decide)).mp hauthor⟩, ?_,
    hshelf, (hvalue "Shelf" "B").mp hshelf⟩
  intro t ht
  have hname : Text.startsWith t "__" = false := by
    revert t
    decide
  have hyear : Lists forth ["FIELD_ADDED", "REQUIRED_INPUT_FIELD_ADDED",
      "OPTIONAL_INPUT_FIELD_ADDED"] (t ++ "." ++ "year") := by
    rw [hlists]
    revert t
    decide +kernel
  exact ⟨hyear, (hfield t "year" hname).mp hyear⟩

end Ripple.Graphql
