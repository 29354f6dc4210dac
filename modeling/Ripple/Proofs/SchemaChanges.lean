import Ripple.Analysis.GraphqlApi
import Ripple.Proofs.Gathering
import Ripple.Proofs.Outcome

/-! # What becomes of the changes of a schema

The impacts on the schema file come from the changes of the schema and from nothing else. They all
have the same source, and merging keeps one reason of a kind for a source. So of the changes of one
component that give reasons of one kind, the first is reported and the others are not.
-/
namespace Ripple.Analysis.GraphqlApi

open Graphql (SchemaChange Criticality)
open Outcome

/-- What identifies a change among the reasons of the schema file. -/
def changeKey (c : SchemaChange) : String × ReasonKind :=
  (changedComponent c, reasonOf c.criticality)

/-- The changes that are the first of their component and kind of reason. -/
def reported (changes : List SchemaChange) : List SchemaChange := distinctBy changeKey changes

def schemaReason (c : SchemaChange) : Reason :=
  ⟨reasonOf c.criticality, "schema-diff", describe c⟩

theorem schemaImpacts_eq (s : Setting) (schemaPath : String) (changes : List SchemaChange) :
    schemaImpacts s schemaPath changes =
      changes.map fun c =>
        ⟨changedComponent c, s.repo.name, schemaPath, none, [schemaReason c], none⟩ :=
  rfl

section Merged

variable {s : Setting} {schemaPath : String} {changes : List SchemaChange} {others : List Impact}

theorem partsOf_schemaImpacts (component : String) :
    Impact.gathering.partsOf (schemaImpacts s schemaPath changes) (component, schemaPath) =
      (changes.filter fun c => changedComponent c = component).map schemaReason := by
  rw [schemaImpacts_eq, Gathering.partsOf]
  induction changes with
  | nil => rfl
  | cons c rest ih =>
    rw [List.map_cons]
    by_cases hc : changedComponent c = component
    · rw [List.filter_cons_of_pos (by simpa [Impact.gathering, Impact.key] using hc),
        List.filter_cons_of_pos (by simpa using hc), List.flatMap_cons, ih]
      rfl
    · rw [List.filter_cons_of_neg (by simpa [Impact.gathering, Impact.key] using hc),
        List.filter_cons_of_neg (by simpa using hc), ih]

theorem partsOf_others (h : ∀ i ∈ others, i.file ≠ schemaPath) (component : String) :
    Impact.gathering.partsOf others (component, schemaPath) = [] := by
  apply Impact.gathering.partsOf_eq_nil
  intro hmem
  obtain ⟨i, hi, hkey⟩ := List.mem_map.mp hmem
  exact h i hi (congrArg Prod.snd hkey)

/-- On the schema file, the reasons of a component are those of its reported changes. -/
theorem reasons_of_mem_merge (hothers : ∀ i ∈ others, i.file ≠ schemaPath) {i : Impact}
    (hi : i ∈ Impact.merge (schemaImpacts s schemaPath changes ++ others))
    (hfile : i.file = schemaPath) :
    i.reasons =
      ((reported changes).filter fun c => changedComponent c = i.component).map schemaReason := by
  have hparts : i.reasons =
      distinctBy Reason.key
        (Impact.gathering.partsOf (schemaImpacts s schemaPath changes ++ others) i.key) :=
    Impact.gathering.parts_of_mem_gather hi
  have hkey : i.key = (i.component, schemaPath) := by rw [Impact.key, hfile]
  rw [hparts, hkey, Gathering.partsOf_append, partsOf_schemaImpacts, partsOf_others hothers,
    List.append_nil, distinctBy_map, reported, ← distinctBy_filter]
  · -- within one component the keys of the reasons are as good as those of the changes
    congr 1
    apply distinctBy_congr
    intro a ha b hb
    have ha' : changedComponent a = i.component := by simpa using (List.mem_filter.mp ha).2
    have hb' : changedComponent b = i.component := by simpa using (List.mem_filter.mp hb).2
    simp [changeKey, schemaReason, Reason.key, ha', hb']
  · intro a b hab
    rw [show changedComponent a = changedComponent b from congrArg Prod.fst hab]

theorem mem_reasons_of_mem_merge (hothers : ∀ i ∈ others, i.file ≠ schemaPath) {i : Impact}
    (hi : i ∈ Impact.merge (schemaImpacts s schemaPath changes ++ others))
    (hfile : i.file = schemaPath) (reason : Reason) :
    reason ∈ i.reasons ↔
      ∃ c ∈ reported changes, changedComponent c = i.component ∧ schemaReason c = reason := by
  simp [reasons_of_mem_merge hothers hi hfile, and_assoc]

theorem file_of_mem_merge_schemaImpacts {i : Impact}
    (hi : i ∈ Impact.merge (schemaImpacts s schemaPath changes)) : i.file = schemaPath := by
  have hkey := (Impact.gathering.mem_map_key_gather _ _).mp (List.mem_map_of_mem hi)
  rw [schemaImpacts_eq, List.map_map, List.mem_map] at hkey
  obtain ⟨c, _, hkey⟩ := hkey
  exact (congrArg Prod.snd hkey).symm

/-- Every change has its component on the schema file. -/
theorem exists_mem_merge (s : Setting) (schemaPath : String) (others : List Impact)
    {c : SchemaChange} (hc : c ∈ changes) :
    ∃ i ∈ Impact.merge (schemaImpacts s schemaPath changes ++ others),
      i.component = changedComponent c ∧ i.file = schemaPath := by
  have hkey : (changedComponent c, schemaPath) ∈
      (schemaImpacts s schemaPath changes ++ others).map Impact.gathering.key := by
    rw [schemaImpacts_eq, List.map_append, List.map_map]
    exact List.mem_append_left _ (List.mem_map_of_mem hc)
  rw [← Gathering.mem_map_key_gather, List.mem_map] at hkey
  obtain ⟨i, hi, hikey⟩ := hkey
  exact ⟨i, hi, congrArg Prod.fst hikey, congrArg Prod.snd hikey⟩

end Merged

theorem mem_of_findSchema {files : FileTree} {directory : Path} {candidates : List String}
    {schemaPath : String} (h : findSchema files directory candidates = .ok schemaPath) :
    schemaPath ∈ "schema.graphql" :: candidates := by
  induction candidates with
  | nil =>
    cases h
    exact List.mem_cons_self
  | cons candidate rest ih =>
    rw [findSchema] at h
    cases hx : files.exists? (directory.join (Path.ofString candidate)) with
    | error f =>
      rw [hx] at h
      cases h
    | ok found =>
      rw [hx] at h
      cases found with
      | true =>
        cases h
        simp
      | false =>
        have hmem := ih h
        rw [List.mem_cons] at hmem ⊢
        exact hmem.imp_right (List.mem_cons_of_mem candidate)

/-- Wherever the schema is found, the file is told apart from resolvers and operations by name. -/
theorem schemaPath_name {files : FileTree} {directory : Path} {schemaPath : String}
    (h : findSchema files directory schemaCandidates = .ok schemaPath) :
    Text.has schemaPath "schema" = true ∧ isResolverFile schemaPath = false := by
  have hall : ∀ p ∈ "schema.graphql" :: schemaCandidates,
      Text.has p "schema" = true ∧ isResolverFile p = false := by
    decide +kernel
  exact hall schemaPath (mem_of_findSchema h)

theorem exists_of_mem_operationImpacts {s : Setting} {file content : String} {i : Impact}
    (hi : i ∈ operationImpacts s file content) :
    ∃ component description, i = s.impact component file .direct file description := by
  rw [operationImpacts] at hi
  split_ifs at hi
  · cases hi
  · exact ⟨_, _, List.mem_singleton.mp hi⟩
  · obtain ⟨operation, _, rfl⟩ := List.mem_map.mp hi
    exact ⟨_, _, rfl⟩

theorem mem_operationsIn_iff {s : Setting} {h : Host} {files : List String}
    {found : List Impact} (hfound : operationsIn s h files = .ok found) {i : Impact} :
    i ∈ found ↔ ∃ file ∈ files, Text.has file "schema" = false ∧
      ∃ text?, s.fileText h file = .ok text? ∧ i ∈ operationImpacts s file (text?.getD "") := by
  induction files generalizing found with
  | nil =>
    cases hfound
    simp
  | cons file rest ih =>
    rw [operationsIn] at hfound
    rw [List.exists_mem_cons_iff]
    cases hname : Text.has file "schema" with
    | true =>
      rw [hname, if_pos rfl] at hfound
      rw [ih hfound]
      simp
    | false =>
      rw [hname, if_neg Bool.false_ne_true] at hfound
      obtain ⟨text?, htext, hfound⟩ := bind_eq_ok_iff.mp hfound
      obtain ⟨others, hothers, hfound⟩ := bind_eq_ok_iff.mp hfound
      cases hfound
      rw [List.mem_append, ih hothers]
      simp [htext]

theorem file_of_mem_operationsIn {s : Setting} {h : Host} {files : List String}
    {found : List Impact} (hfound : operationsIn s h files = .ok found) {i : Impact}
    (hi : i ∈ found) : Text.has i.file "schema" = false := by
  obtain ⟨file, _, hname, _, _, hi⟩ := (mem_operationsIn_iff hfound).mp hi
  obtain ⟨component, description, rfl⟩ := exists_of_mem_operationImpacts hi
  exact hname

theorem operationsIn_ok_iff (s : Setting) (h : Host) (files : List String) :
    (∃ found, operationsIn s h files = .ok found) ↔
      ∀ file ∈ files, Text.has file "schema" = false →
        ∃ text?, s.fileText h file = .ok text? := by
  induction files with
  | nil => simp [operationsIn]
  | cons file rest ih =>
    rw [operationsIn, List.forall_mem_cons, ← ih]
    cases Text.has file "schema" with
    | true => simp
    | false =>
      cases s.fileText h file with
      | error f => simp [bind, Except.bind]
      | ok text? =>
        cases operationsIn s h rest <;> simp [bind, Except.bind, pure, Except.pure]

theorem exists_of_mem_resolverImpacts {s : Setting} {file diff : String} {i : Impact}
    (hi : i ∈ resolverImpacts s file diff) :
    ∃ component description, i = s.impact component file .direct file description := by
  rcases List.mem_cons.mp hi with rfl | hi
  · exact ⟨_, _, rfl⟩
  · obtain ⟨groups, _, rfl⟩ := List.mem_map.mp hi
    exact ⟨_, _, rfl⟩

theorem file_of_mem_resolverImpacts {s : Setting} {file diff : String} {i : Impact}
    (hi : i ∈ resolverImpacts s file diff) : i.file = file := by
  obtain ⟨component, description, rfl⟩ := exists_of_mem_resolverImpacts hi
  rfl

/-- A changed file that makes the analyzer look at the schema. -/
def IsRelevant (file : String) : Prop :=
  Text.endsWithAny file endings = true ∨ isSchemaFile file = true ∨ isResolverFile file = true

theorem none_empty_of_relevant {changed : List String} (h : ∃ file ∈ changed, IsRelevant file) :
    ((withEnding endings changed).isEmpty && (changed.filter isSchemaFile).isEmpty &&
      (changed.filter isResolverFile).isEmpty) = false := by
  obtain ⟨file, hfile, hends | hschema | hresolver⟩ := h
  · have hmem : file ∈ withEnding endings changed := List.mem_filter.mpr ⟨hfile, hends⟩
    rw [List.isEmpty_eq_false_iff_exists_mem.mpr ⟨file, hmem⟩]
    rfl
  · have hmem : file ∈ changed.filter isSchemaFile := List.mem_filter.mpr ⟨hfile, hschema⟩
    rw [List.isEmpty_eq_false_iff_exists_mem.mpr ⟨file, hmem⟩, Bool.and_false]
    rfl
  · have hmem : file ∈ changed.filter isResolverFile := List.mem_filter.mpr ⟨hfile, hresolver⟩
    rw [List.isEmpty_eq_false_iff_exists_mem.mpr ⟨file, hmem⟩, Bool.and_false]

variable {s : Setting} {h : Host} {schemaPath : String} {changed : List String}

/-- With changes of the schema, its impacts are theirs. -/
theorem ofSchema_of_changes (hchanges : schemaChanges s h schemaPath ≠ []) (schemas : List String) :
    ofSchema s h schemaPath schemas =
      schemaImpacts s schemaPath (schemaChanges s h schemaPath) := by
  rw [ofSchema]
  exact if_neg (by simpa using hchanges)

theorem impacts_eq (hrelevant : ∃ file ∈ changed, IsRelevant file) :
    impacts s h schemaPath changed =
      (operationsIn s h (withEnding endings changed)).map fun ofOperations =>
        Impact.merge (ofSchema s h schemaPath (changed.filter isSchemaFile) ++
          ((changed.filter isResolverFile).flatMap (fun file =>
            resolverImpacts s file (s.fileDiff h file)) ++ ofOperations)) := by
  rw [impacts, none_empty_of_relevant hrelevant]
  simp only [← List.append_assoc]
  cases operationsIn s h (withEnding endings changed) <;> rfl

/-- There are impacts unless another changed document cannot be looked up. -/
theorem impacts_ok_iff (hrelevant : ∃ file ∈ changed, IsRelevant file) :
    (∃ found, impacts s h schemaPath changed = .ok found) ↔
      ∀ file ∈ withEnding endings changed, Text.has file "schema" = false →
        ∃ text?, s.fileText h file = .ok text? := by
  rw [impacts_eq hrelevant, ← operationsIn_ok_iff]
  cases operationsIn s h (withEnding endings changed) <;> simp [Except.map]

/-- The others are on other files. -/
theorem exists_others_of_impacts (hrelevant : ∃ file ∈ changed, IsRelevant file)
    {files : FileTree} (hfind : findSchema files s.repo.path schemaCandidates = .ok schemaPath)
    (hchanges : schemaChanges s h schemaPath ≠ []) {found : List Impact}
    (hfound : impacts s h schemaPath changed = .ok found) :
    ∃ others, (∀ i ∈ others, i.file ≠ schemaPath) ∧
      found =
        Impact.merge (schemaImpacts s schemaPath (schemaChanges s h schemaPath) ++ others) := by
  obtain ⟨hschema, hresolver⟩ := schemaPath_name hfind
  rw [impacts_eq hrelevant, ofSchema_of_changes hchanges] at hfound
  cases ho : operationsIn s h (withEnding endings changed) with
  | error f =>
    rw [ho] at hfound
    cases hfound
  | ok ofOperations =>
    rw [ho] at hfound
    cases hfound
    refine ⟨_, ?_, rfl⟩
    intro i hi hfile
    rcases List.mem_append.mp hi with hi | hi
    · obtain ⟨file, hmem, hi⟩ := List.mem_flatMap.mp hi
      rw [file_of_mem_resolverImpacts hi] at hfile
      have hname := (List.mem_filter.mp hmem).2
      rw [hfile, hresolver] at hname
      cases hname
    · have hname := file_of_mem_operationsIn ho hi
      rw [hfile, hschema] at hname
      cases hname

/-- Where only the schema file changed, there is nothing but the changes of the schema. -/
theorem impacts_schema_only {files : FileTree}
    (hfind : findSchema files s.repo.path schemaCandidates = .ok schemaPath)
    (hchanges : schemaChanges s h schemaPath ≠ []) :
    impacts s h schemaPath [schemaPath] =
      .ok (Impact.merge (schemaImpacts s schemaPath (schemaChanges s h schemaPath))) := by
  obtain ⟨hschema, hresolver⟩ := schemaPath_name hfind
  have hrelevant : ∃ file ∈ [schemaPath], IsRelevant file :=
    ⟨schemaPath, List.mem_cons_self, .inr (.inl (by rw [isSchemaFile, hschema]; rfl))⟩
  have hoperations : operationsIn s h (withEnding endings [schemaPath]) = .ok [] := by
    rw [withEnding, List.filter_cons]
    split
    · rw [List.filter_nil, operationsIn, hschema]
      rfl
    · rfl
  rw [impacts_eq hrelevant, ofSchema_of_changes hchanges, hoperations,
    List.filter_cons_of_neg (by simp [hresolver])]
  simp [Except.map]

theorem analyze_eq (hchanged : s.changedFiles h name = .ok changed) :
    analyze s schemaPath h = impacts s h schemaPath changed := by
  rw [analyze, hchanged]
  rfl

end Ripple.Analysis.GraphqlApi
