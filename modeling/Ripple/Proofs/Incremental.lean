import Ripple.Proofs.Outcome
import Ripple.Proofs.Record
import Ripple.Relation.Correlation

/-! # Correlation in portions

The records of a list of relations are united from those of its portions, which may have been united
before. A relation that occurs again finds only what it has found already, so the first occurrence
of each relation counts. A portion that fails makes the whole fail, with the same fault.
-/
namespace Ripple

namespace Record

theorem unite_append (records others : List Record) :
    unite (records ++ others) = unite (unite records ++ unite others) := by
  rw [unite, unite, unite, unite, gathering.gather_append_gather, gathering.gather_gather_append]

theorem unite_unite (records : List Record) : unite (unite records) = unite records :=
  gathering.gather_gather records

theorem unite_append_of_subset {records others : List Record} (h : others ⊆ records) :
    unite (records ++ others) = unite records :=
  gathering.gather_append_of_subset h

end Record

namespace Correlation

open Outcome

variable [Regex.Names] (registry : MatcherRegistry) (repos : List RepoImpacts)

theorem relateAll_append (relations others : List Relation) :
    relateAll registry repos (relations ++ others) = do
      let first ← relateAll registry repos relations
      let second ← relateAll registry repos others
      return first ++ second := by
  induction relations with
  | nil =>
    rw [List.nil_append, relateAll]
    cases relateAll registry repos others <;> rfl
  | cons r rest ih =>
    rw [List.cons_append, relateAll, relateAll, ih]
    cases relate registry repos r with
    | error f => rfl
    | ok first =>
      cases relateAll registry repos rest with
      | error f => rfl
      | ok second =>
        cases relateAll registry repos others with
        | error f => rfl
        | ok third => exact congrArg Except.ok (List.append_assoc first second third).symm

/-- The relations of two lists are correlated apart, and what they find is united. -/
theorem correlate_append (relations others : List Relation) :
    correlate registry repos (relations ++ others) = do
      let records ← correlate registry repos relations
      let more ← correlate registry repos others
      return Record.unite (records ++ more) := by
  rw [correlate, correlate, correlate, relateAll_append]
  cases relateAll registry repos relations with
  | error f => rfl
  | ok records =>
    cases relateAll registry repos others with
    | error f => rfl
    | ok more => exact congrArg Except.ok (Record.unite_append records more)

variable {registry repos}

theorem relate_of_mem {relations : List Relation} {records : List Record}
    (h : relateAll registry repos relations = .ok records) {r : Relation} (hr : r ∈ relations) :
    ∃ found, relate registry repos r = .ok found ∧ found ⊆ records := by
  induction relations generalizing records with
  | nil => cases hr
  | cons s rest ih =>
    rw [relateAll] at h
    obtain ⟨first, hfirst, h⟩ := bind_eq_ok_iff.mp h
    obtain ⟨others, hothers, h⟩ := bind_eq_ok_iff.mp h
    cases h
    rcases List.mem_cons.mp hr with rfl | hr
    · exact ⟨first, hfirst, List.subset_append_left first others⟩
    · obtain ⟨found, hfound, hsubset⟩ := ih hothers hr
      exact ⟨found, hfound, List.subset_append_of_subset_right first hsubset⟩

/-- Relations that occur already find what is found already. -/
theorem relateAll_of_subset {relations repeats : List Relation} {records : List Record}
    (h : relateAll registry repos relations = .ok records) (hsubset : repeats ⊆ relations) :
    ∃ again, relateAll registry repos repeats = .ok again ∧ again ⊆ records := by
  induction repeats with
  | nil => exact ⟨[], rfl, List.nil_subset records⟩
  | cons r rest ih =>
    obtain ⟨hr, hrest⟩ := List.cons_subset.mp hsubset
    obtain ⟨found, hfound, hfoundSubset⟩ := relate_of_mem h hr
    obtain ⟨again, hagain, hagainSubset⟩ := ih hrest
    exact ⟨found ++ again, by rw [relateAll, hfound, hagain]; rfl,
      List.append_subset.mpr ⟨hfoundSubset, hagainSubset⟩⟩

variable (registry repos)

theorem correlate_append_of_subset {relations repeats : List Relation}
    (hsubset : repeats ⊆ relations) :
    correlate registry repos (relations ++ repeats) = correlate registry repos relations := by
  rw [correlate, correlate, relateAll_append]
  cases h : relateAll registry repos relations with
  | error f => rfl
  | ok records =>
    obtain ⟨again, hagain, hagainSubset⟩ := relateAll_of_subset h hsubset
    rw [hagain]
    exact congrArg Except.ok (Record.unite_append_of_subset hagainSubset)

theorem correlate_repeats {relations repeats : List Relation} (hsubset : repeats ⊆ relations)
    (others : List Relation) :
    correlate registry repos (relations ++ repeats ++ others) =
      correlate registry repos (relations ++ others) := by
  rw [correlate_append, correlate_append_of_subset registry repos hsubset, ← correlate_append]

theorem correlate_distinct (relations : List Relation) :
    correlate registry repos (distinct relations) = correlate registry repos relations := by
  -- from the right end, where the last relation has occurred before or is new
  induction relations using List.reverseRecOn with
  | nil => rfl
  | append_singleton relations r ih =>
    by_cases hr : r ∈ relations
    · have hsubset : [r] ⊆ relations := by simpa using hr
      have hold : distinct (relations ++ [r]) = distinct relations :=
        distinctBy_append_of_subset id (List.map_subset id hsubset)
      rw [hold, ih, correlate_append_of_subset registry repos hsubset]
    · have hnew : distinct (relations ++ [r]) = distinct relations ++ [r] := by
        rw [distinct, distinctBy_append, ← distinct]
        simp [distinctBy, hr]
      rw [hnew, correlate_append, ih, ← correlate_append]

/-- Correlating two lists of relations apart and uniting what they find is correlating them
together, as uniting records in portions is uniting them at once. So to unite again changes nothing,
and neither do relations that occur already. -/
theorem correlate_incremental (registry : MatcherRegistry) (repos : List RepoImpacts) :
    (∀ relations others : List Relation,
      correlate registry repos (relations ++ others) = do
        let records ← correlate registry repos relations
        let more ← correlate registry repos others
        return Record.unite (records ++ more)) ∧
    (∀ records others : List Record,
      Record.unite (records ++ others) =
        Record.unite (Record.unite records ++ Record.unite others)) ∧
    (∀ records : List Record, Record.unite (Record.unite records) = Record.unite records) ∧
    (∀ relations repeats others : List Relation, repeats ⊆ relations →
      correlate registry repos (relations ++ repeats ++ others) =
        correlate registry repos (relations ++ others)) ∧
    ∀ relations : List Relation,
      correlate registry repos (distinct relations) = correlate registry repos relations :=
  ⟨correlate_append registry repos, Record.unite_append, Record.unite_unite,
    fun _ _ others hsubset => correlate_repeats registry repos hsubset others,
    correlate_distinct registry repos⟩

end Correlation

end Ripple
