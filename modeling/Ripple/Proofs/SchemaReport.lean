import Ripple.Git.Snapshot
import Ripple.Proofs.Outcome
import Ripple.Proofs.SchemaChanges
import Ripple.Proofs.Text
import Ripple.Proofs.Utf8
import Ripple.Result.Basic

/-! # What a report says about the changes of a schema

A change that is not the first of its component and kind of reason is not described. The flag for
breaking changes is read off the descriptions, and the label of a change that breaks nothing says
`NON_BREAKING`. So the flag is raised by such a change as well, if it is reported.
-/
namespace Ripple.Analysis.GraphqlApi

open Graphql (Criticality Difference SchemaChange)

/-- The analyzer has found its schema, and the schema of both versions can be built. -/
structure Compares (s : Setting) (h : Host) (schemaPath old new : String)
    (changes : List SchemaChange) : Prop where
  found : ∃ files, findSchema files s.repo.path schemaCandidates = .ok schemaPath
  base : schemaVersion s h schemaPath s.versions.base = some old
  head : schemaVersion s h schemaPath s.versions.head = some new
  diff : Graphql.schemaChanges old new = .ok changes

variable {s : Setting} {h : Host} {schemaPath old new : String} {changes : List SchemaChange}

theorem Compares.schemaChanges_eq (hcompares : Compares s h schemaPath old new changes) :
    schemaChanges s h schemaPath = changes := by
  rw [schemaChanges, hcompares.base, hcompares.head]
  simp only [hcompares.diff]

theorem describe_inj (c d : SchemaChange) :
    describe c = describe d ↔ c.criticality = d.criticality ∧ c.message = d.message := by
  constructor
  · intro h
    have hchars := congrArg String.toList h
    rw [describe, describe] at hchars
    cases hc : c.criticality <;> cases hd : d.criticality <;>
      simp [hc, hd, Criticality.text, String.toList_inj] at hchars ⊢
    all_goals exact hchars
  · rintro ⟨hcriticality, hmessage⟩
    rw [describe, describe, hcriticality, hmessage]

theorem isBreaking_schemaReason (c : SchemaChange) :
    (schemaReason c).isBreaking = true ↔
      c.criticality = .breaking ∨ c.criticality = .nonBreaking ∨
        Text.has (Text.lower c.message) "breaking" = true := by
  rw [Reason.isBreaking_iff, schemaReason, describe, Text.lower_append]
  cases hc : c.criticality with
  | breaking => simp [reasonOf]
  | nonBreaking =>
    have hlabel : Text.has (Text.lower ("[" ++ Criticality.nonBreaking.text ++ "] ")) "breaking" :=
      by decide
    simp [Text.has_append_of_has hlabel]
  | dangerous =>
    have hlabel : 'b' ∉ (Text.lower ("[" ++ Criticality.dangerous.text ++ "] ")).toList := by
      decide
    have hword : "breaking".toList = 'b' :: "reaking".toList := by decide
    rw [Text.has_append_of_notMem hword hlabel]
    simp [reasonOf]

theorem exists_reported_breaking {changes : List SchemaChange} {c : SchemaChange} (hc : c ∈ changes)
    (hbreaking : c.criticality = .breaking) :
    ∃ d ∈ reported changes, d.criticality = .breaking := by
  obtain ⟨d, hd, hkey⟩ := exists_mem_distinctBy changeKey hc
  refine ⟨d, hd, ?_⟩
  have hreason : reasonOf d.criticality = reasonOf c.criticality := congrArg Prod.snd hkey
  rw [hbreaking] at hreason
  by_contra hne
  simp [reasonOf, hne] at hreason

/-- The flag over the impacts on the schema file is read off the reported changes. -/
theorem hasBreakingChanges_merge (s : Setting) (schemaPath : String)
    (changes : List SchemaChange) :
    hasBreakingChanges (Impact.merge (schemaImpacts s schemaPath changes)) = true ↔
      ∃ c ∈ reported changes, (schemaReason c).isBreaking = true := by
  have hmem : ∀ i ∈ Impact.merge (schemaImpacts s schemaPath changes), ∀ reason,
      reason ∈ i.reasons ↔
        ∃ c ∈ reported changes, changedComponent c = i.component ∧ schemaReason c = reason := by
    intro i hi
    have hfile := file_of_mem_merge_schemaImpacts hi
    rw [← List.append_nil (schemaImpacts s schemaPath changes)] at hi
    exact mem_reasons_of_mem_merge (by simp) hi hfile
  rw [hasBreakingChanges_iff]
  constructor
  · rintro ⟨i, hi, reason, hreason, hbreaking⟩
    obtain ⟨c, hc, _, rfl⟩ := (hmem i hi reason).mp hreason
    exact ⟨c, hc, hbreaking⟩
  · rintro ⟨c, hc, hbreaking⟩
    obtain ⟨i, hi, hcomponent, _⟩ :=
      exists_mem_merge s schemaPath [] (mem_of_mem_distinctBy changeKey hc)
    rw [List.append_nil] at hi
    exact ⟨i, hi, schemaReason c, (hmem i hi _).mpr ⟨c, hc, hcomponent.symm, rfl⟩, hbreaking⟩

/-- The analyzer of the repository. -/
def soleSetting : Setting where
  repo := ⟨"api", ⟨"/", ["api"]⟩, .graphqlNode, [.graphqlInspector], none, none⟩
  versions := ⟨"main", "HEAD"⟩
  filter := ⟨none, none⟩

def soleHost (old new : String) : Host where
  files := ⟨[(["api"], .directory)], []⟩
  git _ := Git.Snapshot.answer
    { changed := .ok ["schema.graphql"]
      diffs := []
      versions := [("main", [("schema.graphql", Text.Utf8.encode old)]),
        ("HEAD", [("schema.graphql", Text.Utf8.encode new)])] }

theorem changedFiles_soleHost (old new : String) :
    soleSetting.changedFiles (soleHost old new) name = .ok ["schema.graphql"] := by
  -- the versions are not looked at
  have hempty : soleSetting.changedFiles (soleHost "" "") name = .ok ["schema.graphql"] := by
    rw [Outcome.eq_ok_iff_toOption]
    decide +kernel
  exact hempty

theorem compares_sole {old new : String} (found : List Difference)
    (hfound : (Graphql.schemaDifferences old new).toOption = some found)
    (hsorted : (found.map (·.change)).Pairwise fun a b =>
      Graphql.Comparison.inOrder a b = true) :
    Compares soleSetting (soleHost old new) "schema.graphql" old new (found.map (·.change)) where
  found := ⟨(soleHost old new).files, rfl⟩
  base := by
    change some (String.ofList (Text.Utf8.decodeLossy (Text.Utf8.encode old))) = some old
    rw [Text.Utf8.decodeLossy_encode, String.ofList_toList]
  head := by
    change some (String.ofList (Text.Utf8.decodeLossy (Text.Utf8.encode new))) = some new
    rw [Text.Utf8.decodeLossy_encode, String.ofList_toList]
  diff := Graphql.schemaChanges_of_sorted ((Outcome.eq_ok_iff_toOption _ _).mpr hfound) hsorted

def fieldAdded : SchemaChange := (Difference.fieldAdded "Query" "b").change

def fieldHost : Host := soleHost "type Query{a:Int}" "type Query{a:Int b:Int}"

theorem compares_field :
    Compares soleSetting fieldHost "schema.graphql" "type Query{a:Int}" "type Query{a:Int b:Int}"
      [fieldAdded] :=
  compares_sole [.fieldAdded "Query" "b"] (by decide +kernel) (by decide)

def firstArgument : SchemaChange :=
  (Difference.requiredInputAdded (.argument "Query" "a" "y")).change

def secondArgument : SchemaChange :=
  (Difference.requiredInputAdded (.argument "Query" "a" "z")).change

def argumentsHost : Host :=
  soleHost "type Query{a(x:Int):Int}" "type Query{a(x:Int,y:Int!,z:Int!):Int}"

theorem compares_arguments :
    Compares soleSetting argumentsHost "schema.graphql" "type Query{a(x:Int):Int}"
      "type Query{a(x:Int,y:Int!,z:Int!):Int}" [firstArgument, secondArgument] :=
  compares_sole
    [.requiredInputAdded (.argument "Query" "a" "y"),
      .requiredInputAdded (.argument "Query" "a" "z")]
    (by decide +kernel) (by decide)

theorem changedFiles_arguments :
    soleSetting.changedFiles argumentsHost name = .ok ["schema.graphql"] :=
  changedFiles_soleHost _ _

theorem analyze_arguments :
    analyze soleSetting "schema.graphql" argumentsHost =
      .ok (Impact.merge
        (schemaImpacts soleSetting "schema.graphql" [firstArgument, secondArgument])) := by
  obtain ⟨files, hfind⟩ := compares_arguments.found
  have hne : schemaChanges soleSetting argumentsHost "schema.graphql" ≠ [] := by
    rw [compares_arguments.schemaChanges_eq]
    exact List.cons_ne_nil _ _
  rw [analyze_eq changedFiles_arguments, impacts_schema_only hfind hne,
    compares_arguments.schemaChanges_eq]

theorem isRelevant_schema : ∃ file ∈ ["schema.graphql"], IsRelevant file :=
  ⟨"schema.graphql", List.mem_singleton_self _, .inl (by decide)⟩

theorem mem_secondArgument : secondArgument ∈ [firstArgument, secondArgument] :=
  List.mem_cons_of_mem _ (List.mem_singleton_self _)

/-- Where only the schema changed, the flag is raised if and only if some change is breaking or
some reported change breaks nothing or speaks of breaking. -/
theorem analyze_hasBreakingChanges (hcompares : Compares s h schemaPath old new changes)
    (hchanged : s.changedFiles h name = .ok [schemaPath]) (hne : changes ≠ []) :
    ∃ impacts, analyze s schemaPath h = .ok impacts ∧
      (hasBreakingChanges impacts = true ↔
        (∃ c ∈ changes, c.criticality = .breaking) ∨
          ∃ c ∈ reported changes, c.criticality = .nonBreaking ∨
            Text.has (Text.lower c.message) "breaking" = true) := by
  obtain ⟨files, hfind⟩ := hcompares.found
  refine ⟨Impact.merge (schemaImpacts s schemaPath changes), ?_, ?_⟩
  · rw [analyze_eq hchanged, impacts_schema_only hfind, hcompares.schemaChanges_eq]
    rwa [hcompares.schemaChanges_eq]
  · rw [hasBreakingChanges_merge]
    simp only [isBreaking_schemaReason]
    constructor
    · rintro ⟨c, hc, hbreaking | hother⟩
      · exact .inl ⟨c, mem_of_mem_distinctBy changeKey hc, hbreaking⟩
      · exact .inr ⟨c, hc, hother⟩
    · rintro (⟨c, hc, hbreaking⟩ | ⟨c, hc, hother⟩)
      · obtain ⟨d, hd, hbreaking⟩ := exists_reported_breaking hc hbreaking
        exact ⟨d, hd, .inl hbreaking⟩
      · exact ⟨c, hc, .inr hother⟩

/-- A new field breaks nothing, and it raises the flag. -/
theorem analyze_hasBreakingChanges_fieldAdded :
    fieldAdded.criticality = .nonBreaking ∧
      ∃ impacts, analyze soleSetting "schema.graphql" fieldHost = .ok impacts ∧
        hasBreakingChanges impacts = true := by
  have hchanged : soleSetting.changedFiles fieldHost name = .ok ["schema.graphql"] :=
    changedFiles_soleHost _ _
  obtain ⟨impacts, himpacts, hflag⟩ :=
    analyze_hasBreakingChanges compares_field hchanged (List.cons_ne_nil _ _)
  exact ⟨rfl, impacts, himpacts,
    hflag.mpr (.inr ⟨fieldAdded, List.mem_singleton_self _, .inl rfl⟩)⟩

section Described

variable {others : List Impact} {c first : SchemaChange}

theorem exists_reason_of_reported (hothers : ∀ i ∈ others, i.file ≠ schemaPath)
    (hc : c ∈ changes) (hfirst : first ∈ reported changes) (hkey : changeKey first = changeKey c) :
    ∃ i ∈ Impact.merge (schemaImpacts s schemaPath changes ++ others),
      i.component = changedComponent c ∧ i.file = schemaPath ∧
        schemaReason first ∈ i.reasons := by
  obtain ⟨i, hi, hcomponent, hfile⟩ := exists_mem_merge s schemaPath others hc
  refine ⟨i, hi, hcomponent, hfile, ?_⟩
  rw [mem_reasons_of_mem_merge hothers hi hfile]
  exact ⟨first, hfirst, (congrArg Prod.fst hkey).trans hcomponent.symm, rfl⟩

theorem exists_description_iff (hothers : ∀ i ∈ others, i.file ≠ schemaPath)
    (hc : c ∈ changes) (hfirst : first ∈ reported changes) (hkey : changeKey first = changeKey c) :
    (∃ i ∈ Impact.merge (schemaImpacts s schemaPath changes ++ others),
      i.component = changedComponent c ∧ i.file = schemaPath ∧
        ∃ reason ∈ i.reasons, reason.description = describe c) ↔
      first.criticality = c.criticality ∧ first.message = c.message := by
  constructor
  · rintro ⟨i, hi, hcomponent, hfile, reason, hmem, hdescription⟩
    obtain ⟨d, hd, hdcomponent, rfl⟩ := (mem_reasons_of_mem_merge hothers hi hfile _).mp hmem
    obtain ⟨hcriticality, hmessage⟩ := (describe_inj d c).mp hdescription
    have hdkey : changeKey d = changeKey first := by
      rw [hkey, changeKey, changeKey, hdcomponent, hcomponent, hcriticality]
    obtain rfl := eq_of_mem_distinctBy changeKey hd hfirst hdkey
    exact ⟨hcriticality, hmessage⟩
  · intro hsame
    obtain ⟨i, hi, hcomponent, hfile, hreason⟩ := exists_reason_of_reported hothers hc hfirst hkey
    exact ⟨i, hi, hcomponent, hfile, _, hreason, (describe_inj first c).mpr hsame⟩

end Described

/-- The analysis answers unless another changed document cannot be looked up. In every answer each
change has an item with a reason of its kind. The reason describes the first change of the component
and the kind, so the change itself is described if and only if the two have the same criticality and
message. -/
theorem analyze_schemaChange (hcompares : Compares s h schemaPath old new changes)
    {changed : List String} (hchanged : s.changedFiles h name = .ok changed)
    (hrelevant : ∃ file ∈ changed, IsRelevant file) :
    ((∃ impacts, analyze s schemaPath h = .ok impacts) ↔
      ∀ file ∈ withEnding endings changed, Text.has file "schema" = false →
        ∃ text?, s.fileText h file = .ok text?) ∧
    ∀ impacts, analyze s schemaPath h = .ok impacts → ∀ c ∈ changes,
      ∃ first ∈ reported changes, changeKey first = changeKey c ∧
        (∃ i ∈ impacts, i.component = changedComponent c ∧ i.file = schemaPath ∧
          schemaReason first ∈ i.reasons) ∧
        ((∃ i ∈ impacts, i.component = changedComponent c ∧ i.file = schemaPath ∧
            ∃ reason ∈ i.reasons, reason.description = describe c) ↔
          first.criticality = c.criticality ∧ first.message = c.message) := by
  rw [analyze_eq hchanged]
  refine ⟨impacts_ok_iff hrelevant, fun impacts himpacts c hc => ?_⟩
  obtain ⟨files, hfind⟩ := hcompares.found
  have hne : schemaChanges s h schemaPath ≠ [] := by
    rw [hcompares.schemaChanges_eq]
    exact List.ne_nil_of_mem hc
  obtain ⟨others, hothers, rfl⟩ := exists_others_of_impacts hrelevant hfind hne himpacts
  rw [hcompares.schemaChanges_eq]
  obtain ⟨first, hfirst, hkey⟩ := exists_mem_distinctBy changeKey hc
  exact ⟨first, hfirst, hkey, exists_reason_of_reported hothers hc hfirst hkey,
    exists_description_iff hothers hc hfirst hkey⟩

/-- The first of two new arguments is reported for both, and the second is not described. -/
theorem analyze_schemaChange_secondArgument :
    ∃ impacts, analyze soleSetting "schema.graphql" argumentsHost = .ok impacts ∧
      (∃ i ∈ impacts, i.component = changedComponent secondArgument ∧
        i.file = "schema.graphql" ∧ schemaReason firstArgument ∈ i.reasons) ∧
      ¬ ∃ i ∈ impacts, i.component = changedComponent secondArgument ∧
        i.file = "schema.graphql" ∧
          ∃ reason ∈ i.reasons, reason.description = describe secondArgument := by
  obtain ⟨_, hreport⟩ :=
    analyze_schemaChange compares_arguments changedFiles_arguments isRelevant_schema
  obtain ⟨first, hfirst, _, hitem, hdescribed⟩ :=
    hreport _ analyze_arguments secondArgument mem_secondArgument
  have hreported : reported [firstArgument, secondArgument] = [firstArgument] := by
    decide
  rw [hreported, List.mem_singleton] at hfirst
  subst hfirst
  have hmessage : firstArgument.message ≠ secondArgument.message := by
    decide
  exact ⟨_, analyze_arguments, hitem, fun h => hmessage (hdescribed.mp h).2⟩

/-- Not every change is described. -/
theorem analyze_drops_secondArgument :
    ¬ ∀ (s : Setting) (h : Host) (schemaPath old new : String) (changes : List SchemaChange)
      (changed : List String) (impacts : List Impact) (c : SchemaChange),
      Compares s h schemaPath old new changes → s.changedFiles h name = .ok changed →
      (∃ file ∈ changed, IsRelevant file) → analyze s schemaPath h = .ok impacts →
      c ∈ changes →
      ∃ i ∈ impacts, i.component = changedComponent c ∧ i.file = schemaPath ∧
        ∃ reason ∈ i.reasons, reason.description = describe c := by
  intro hall
  obtain ⟨i, hi, _, _, reason, hreason, hdescription⟩ :=
    hall _ _ _ _ _ _ _ _ _ compares_arguments changedFiles_arguments isRelevant_schema
      analyze_arguments mem_secondArgument
  have hnone : ∀ i ∈ Impact.merge
      (schemaImpacts soleSetting "schema.graphql" [firstArgument, secondArgument]),
      ∀ reason ∈ i.reasons, reason.description ≠ describe secondArgument := by
    decide
  exact hnone i hi reason hreason hdescription

end Ripple.Analysis.GraphqlApi
