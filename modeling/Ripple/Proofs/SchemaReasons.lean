import Ripple.Proofs.ChangedDocuments

/-! # Which reasons speak of the schema

The versions of the schema are compared as soon as any changed file has to do with GraphQL, whether
it is the schema file or not, so the changes between them are reported by themselves. Where none is
known, each changed schema file is reported as such. Among the ways to know none is that the two
versions were compared and are alike.
-/
namespace Ripple.Analysis.GraphqlApi

open Graphql (SchemaChange)

/-- A changed file that is reported as a schema where no change of the schema is known. -/
structure IsSchemaDocument (changed : List String) (file : String) : Prop where
  mem : file ∈ changed
  schema : isSchemaFile file = true
  document : Text.endsWithAny file endings = true

/-- The file is reported as a schema that was modified somehow. -/
def FallsBack (found : List Impact) (file : String) : Prop :=
  ∃ i ∈ found, i.component = "GraphQL Schema" ∧ i.file = file ∧
    ∃ r ∈ i.reasons, r.kind = .schema ∧ r.source = file

variable {s : Setting} {h : Host} {schemaPath : String} {changed : List String}
  {found : List Impact} {i : Impact} {r : Reason}

theorem ne_schemaDiff_of_document {file : String} (hfile : Text.endsWithAny file endings = true) :
    file ≠ "schema-diff" := by
  rintro rfl
  revert hfile
  decide

theorem ne_schemaDiff_of_resolver {file : String} (hfile : isResolverFile file = true) :
    file ≠ "schema-diff" := by
  rintro rfl
  revert hfile
  decide

/-- The reason of a finding is a change of the schema or the file itself. -/
theorem Finding.reason (hi : Finding s h schemaPath changed i) (hr : r ∈ i.reasons) :
    (i.file = schemaPath ∧
      ∃ c ∈ schemaChanges s h schemaPath, i.component = changedComponent c ∧ r = schemaReason c) ∨
    (i.file ≠ "schema-diff" ∧ r.source = i.file ∧ (r.kind = .schema →
      i.component = "GraphQL Schema" ∧ IsSchemaDocument changed i.file ∧
        schemaChanges s h schemaPath = [])) := by
  cases hi with
  | change _ hc =>
    obtain rfl := List.mem_singleton.mp hr
    exact .inl ⟨rfl, _, hc, rfl, rfl⟩
  | schemaFile hnone hmem hschema hdocument =>
    obtain rfl := List.mem_singleton.mp hr
    exact .inr ⟨ne_schemaDiff_of_document hdocument, rfl,
      fun _ => ⟨rfl, ⟨hmem, hschema, hdocument⟩, hnone⟩⟩
  | resolver _ hnamed =>
    obtain rfl := List.mem_singleton.mp hr
    exact .inr ⟨ne_schemaDiff_of_resolver hnamed, rfl, nofun⟩
  | operation _ hdocument =>
    obtain rfl := List.mem_singleton.mp hr
    exact .inr ⟨ne_schemaDiff_of_document hdocument, rfl, nofun⟩

/-- What is reported has the reasons of findings. -/
theorem exists_finding_of_reason (hfound : impacts s h schemaPath changed = .ok found)
    (hi : i ∈ found) (hr : r ∈ i.reasons) :
    ∃ j, Finding s h schemaPath changed j ∧ j.component = i.component ∧ j.file = i.file ∧
      ∃ t ∈ j.reasons, t.kind = r.kind ∧ t.source = r.source :=
  (exists_reason_iff hfound _ _ _ _).mp ⟨i, hi, rfl, rfl, r, hr, rfl, rfl⟩

theorem schemaDiff_of_mem (hfound : impacts s h schemaPath changed = .ok found) (hi : i ∈ found)
    (hr : r ∈ i.reasons) (hsource : r.source = "schema-diff") :
    i.file = schemaPath ∧ (∃ file ∈ changed, IsRelevant file) ∧
      schemaChanges s h schemaPath ≠ [] := by
  obtain ⟨j, hj, _, hfile, t, ht, _, htsource⟩ := exists_finding_of_reason hfound hi hr
  rcases hj.reason ht with ⟨hpath, c, hc, _⟩ | ⟨hne, hself, _⟩
  · exact ⟨hfile.symm.trans hpath, hj.relevant, List.ne_nil_of_mem hc⟩
  · exact absurd (hself.symm.trans (htsource.trans hsource)) hne

theorem exists_schemaDiff_iff (hfound : impacts s h schemaPath changed = .ok found) :
    (∃ i ∈ found, ∃ r ∈ i.reasons, r.source = "schema-diff") ↔
      (∃ file ∈ changed, IsRelevant file) ∧ schemaChanges s h schemaPath ≠ [] := by
  constructor
  · rintro ⟨i, hi, r, hr, hsource⟩
    exact (schemaDiff_of_mem hfound hi hr hsource).2
  · rintro ⟨hrelevant, hchanges⟩
    obtain ⟨c, hc⟩ := List.exists_mem_of_ne_nil _ hchanges
    obtain ⟨i, hi, _, _, r, hr, _, hsource⟩ := (exists_reason_iff hfound _ _ _ _).mpr
      ⟨_, .change hrelevant hc, rfl, rfl, _, List.mem_singleton_self _, rfl, rfl⟩
    exact ⟨i, hi, r, hr, hsource⟩

/-- Reasons from the comparison are reported for the schema file, and for it alone, if and only if
some changed file has to do with GraphQL and the comparison has a result. The schema file need not
be one of the changed files. -/
theorem analyze_schemaDiff (s : Setting) (h : Host) (schemaPath : String) {found : List Impact}
    (hfound : analyze s schemaPath h = .ok found) :
    ∃ changed, s.changedFiles h name = .ok changed ∧
      ((∃ i ∈ found, ∃ r ∈ i.reasons, r.source = "schema-diff") ↔
        (∃ file ∈ changed, IsRelevant file) ∧ schemaChanges s h schemaPath ≠ []) ∧
      ∀ i ∈ found, (∃ r ∈ i.reasons, r.source = "schema-diff") → i.file = schemaPath := by
  obtain ⟨changed, hchanged, himpacts⟩ := exists_changed hfound
  refine ⟨changed, hchanged, exists_schemaDiff_iff himpacts, ?_⟩
  rintro i hi ⟨r, hr, hsource⟩
  exact (schemaDiff_of_mem himpacts hi hr hsource).1

/-- The machine with a new field in the schema, where git lists nothing but a resolver. -/
def resolverHost : Host := fieldHostWith ["src/user.resolver.ts"] []

theorem changedFiles_resolverHost :
    soleSetting.changedFiles resolverHost name = .ok ["src/user.resolver.ts"] := by
  rw [Outcome.eq_ok_iff_toOption]
  decide +kernel

theorem exists_analyze_resolverHost :
    ∃ found, analyze soleSetting "schema.graphql" resolverHost = .ok found := by
  have hnone : withEnding endings ["src/user.resolver.ts"] = [] := by decide
  refine exists_analyze_iff.mpr ⟨_, changedFiles_resolverHost, fun file hfile => ?_⟩
  rw [hnone] at hfile
  cases hfile

theorem isRelevant_resolver : ∃ file ∈ ["src/user.resolver.ts"], IsRelevant file :=
  ⟨_, List.mem_singleton_self _, .inr (.inr (by decide))⟩

theorem schemaChanges_resolverHost :
    schemaChanges soleSetting resolverHost "schema.graphql" ≠ [] := by
  rw [resolverHost, schemaChanges_fieldHostWith]
  exact List.cons_ne_nil _ _

/-- The new field is reported together with the resolver. -/
theorem analyze_schemaDiff_resolverHost :
    ∃ found, analyze soleSetting "schema.graphql" resolverHost = .ok found ∧
      ∃ i ∈ found, i.file = "schema.graphql" ∧ ∃ r ∈ i.reasons, r.source = "schema-diff" := by
  obtain ⟨found, hfound⟩ := exists_analyze_resolverHost
  obtain ⟨changed, hchanged, hiff, hpath⟩ := analyze_schemaDiff _ _ _ hfound
  obtain rfl : ["src/user.resolver.ts"] = changed :=
    Except.ok.inj (changedFiles_resolverHost.symm.trans hchanged)
  obtain ⟨i, hi, hr⟩ := hiff.mpr ⟨isRelevant_resolver, schemaChanges_resolverHost⟩
  exact ⟨found, hfound, i, hi, hpath i hi hr, hr⟩

/-- Not only a changed schema file is compared. -/
theorem analyze_compares_unlisted :
    ¬ ∀ (s : Setting) (h : Host) (schemaPath : String) (changed : List String)
      (found : List Impact),
      findSchema h.files s.repo.path schemaCandidates = .ok schemaPath →
      s.changedFiles h name = .ok changed → schemaPath ∉ changed →
      analyze s schemaPath h = .ok found →
      ¬ ∃ i ∈ found, ∃ r ∈ i.reasons, r.source = "schema-diff" := by
  intro hall
  obtain ⟨found, hfound⟩ := exists_analyze_resolverHost
  have hunlisted : "schema.graphql" ∉ ["src/user.resolver.ts"] := by decide
  refine hall _ _ _ _ _ rfl changedFiles_resolverHost hunlisted hfound ?_
  rw [analyze_eq changedFiles_resolverHost] at hfound
  exact (exists_schemaDiff_iff hfound).mpr ⟨isRelevant_resolver, schemaChanges_resolverHost⟩

/-- No change of the schema is known if it lacks a version, if a version cannot be built, or if the
versions are alike. -/
theorem schemaChanges_eq_nil_iff :
    schemaChanges s h schemaPath = [] ↔
      schemaVersion s h schemaPath s.versions.base = none ∨
      schemaVersion s h schemaPath s.versions.head = none ∨
      ∃ old new, schemaVersion s h schemaPath s.versions.base = some old ∧
        schemaVersion s h schemaPath s.versions.head = some new ∧
        ((∃ f, Graphql.schemaChanges old new = .error f) ∨
          Graphql.schemaChanges old new = .ok []) := by
  rw [schemaChanges]
  cases schemaVersion s h schemaPath s.versions.base with
  | none => simp
  | some old =>
    cases schemaVersion s h schemaPath s.versions.head with
    | none => simp
    | some new => cases hdiff : Graphql.schemaChanges old new <;> simp [hdiff]

theorem fallsBack_iff (hfound : impacts s h schemaPath changed = .ok found)
    (hpath : schemaPath ≠ "schema-diff") (file : String) :
    FallsBack found file ↔
      IsSchemaDocument changed file ∧ schemaChanges s h schemaPath = [] := by
  constructor
  · rintro ⟨i, hi, _, rfl, r, hr, hkind, hsource⟩
    obtain ⟨j, hj, _, hfile, t, ht, htkind, htsource⟩ := exists_finding_of_reason hfound hi hr
    rcases hj.reason ht with ⟨hschema, c, _, _, rfl⟩ | ⟨_, _, hfallback⟩
    · exact absurd ((hschema.symm.trans hfile).trans (hsource.symm.trans htsource.symm)) hpath
    · exact hfile ▸ (hfallback (htkind.trans hkind)).2
  · rintro ⟨hfile, hnone⟩
    exact (exists_reason_iff hfound _ _ _ _).mpr
      ⟨_, .schemaFile hnone hfile.mem hfile.schema hfile.document, rfl, rfl, _,
        List.mem_singleton_self _, rfl, rfl⟩

theorem schemaPath_ne_schemaDiff {files : FileTree} {directory : Path}
    (hfind : findSchema files directory schemaCandidates = .ok schemaPath) :
    schemaPath ≠ "schema-diff" := by
  rintro rfl
  have hmem := mem_of_findSchema hfind
  revert hmem
  decide

/-- A changed schema file is reported as modified if and only if no change of the schema is known,
be it that there is nothing to compare or that the versions are alike. Every other reason of the
kind for schemas is a breaking change. -/
theorem analyze_fallsBack {files : FileTree}
    (hfind : findSchema files s.repo.path schemaCandidates = .ok schemaPath)
    (hfound : analyze s schemaPath h = .ok found) :
    ∃ changed, s.changedFiles h name = .ok changed ∧
      (∀ file, FallsBack found file ↔ IsSchemaDocument changed file ∧
        (schemaVersion s h schemaPath s.versions.base = none ∨
          schemaVersion s h schemaPath s.versions.head = none ∨
          ∃ old new, schemaVersion s h schemaPath s.versions.base = some old ∧
            schemaVersion s h schemaPath s.versions.head = some new ∧
            ((∃ f, Graphql.schemaChanges old new = .error f) ∨
              Graphql.schemaChanges old new = .ok []))) ∧
      ∀ i ∈ found, ∀ r ∈ i.reasons, r.kind = .schema →
        (i.component = "GraphQL Schema" ∧ r.source = i.file ∧ FallsBack found i.file) ∨
        (i.file = schemaPath ∧ r.source = "schema-diff" ∧
          ∃ c ∈ schemaChanges s h schemaPath,
            c.criticality = .breaking ∧ i.component = changedComponent c) := by
  obtain ⟨changed, hchanged, himpacts⟩ := exists_changed hfound
  have hiff := fallsBack_iff himpacts (schemaPath_ne_schemaDiff hfind)
  refine ⟨changed, hchanged, fun file => ?_, fun i hi r hr hkind => ?_⟩
  · rw [hiff, schemaChanges_eq_nil_iff]
  · obtain ⟨j, hj, hcomponent, hfile, t, ht, htkind, htsource⟩ :=
      exists_finding_of_reason himpacts hi hr
    rcases hj.reason ht with ⟨hpath, c, hc, hjcomponent, rfl⟩ | ⟨_, hself, hfallback⟩
    · refine .inr ⟨hfile.symm.trans hpath, htsource.symm, c, hc, ?_,
        hcomponent.symm.trans hjcomponent⟩
      have hschema : reasonOf c.criticality = .schema := htkind.trans hkind
      by_contra hne
      rw [reasonOf, if_neg hne] at hschema
      cases hschema
    · obtain ⟨hjcomponent, hdocument⟩ := hfallback (htkind.trans hkind)
      rw [hfile] at hdocument hself
      exact .inl ⟨hcomponent.symm.trans hjcomponent, htsource.symm.trans hself,
        (hiff i.file).mpr hdocument⟩

/-- The machine on which the schema got a comment and nothing else. -/
def commentHost : Host := soleHost "type Query{a:Int}" "# the entry\ntype Query{a:Int}"

theorem compares_comment :
    Compares soleSetting commentHost "schema.graphql" "type Query{a:Int}"
      "# the entry\ntype Query{a:Int}" [] :=
  compares_sole [] (by decide +kernel) .nil

/-- A new comment is no change of the schema, and the file is reported as a modified schema. -/
theorem analyze_fallsBack_comment :
    Graphql.schemaChanges "type Query{a:Int}" "# the entry\ntype Query{a:Int}" = .ok [] ∧
      ∃ found, analyze soleSetting "schema.graphql" commentHost = .ok found ∧
        FallsBack found "schema.graphql" := by
  have hlisted : soleSetting.changedFiles commentHost name = .ok ["schema.graphql"] :=
    changedFiles_soleHost _ _
  obtain ⟨found, hfound⟩ := exists_analyze_iff.mpr ⟨_, hlisted, readable_schema _ _⟩
  have hfind : findSchema commentHost.files soleSetting.repo.path schemaCandidates =
      .ok "schema.graphql" := rfl
  obtain ⟨changed, hchanged, hfallsBack, _⟩ := analyze_fallsBack hfind hfound
  obtain rfl : ["schema.graphql"] = changed := Except.ok.inj (hlisted.symm.trans hchanged)
  have hdocument : IsSchemaDocument ["schema.graphql"] "schema.graphql" :=
    ⟨List.mem_singleton_self _, by decide, by decide⟩
  exact ⟨compares_comment.diff, found, hfound, (hfallsBack _).mpr ⟨hdocument,
    .inr (.inr ⟨_, _, compares_comment.base, compares_comment.head, .inr compares_comment.diff⟩)⟩⟩

end Ripple.Analysis.GraphqlApi
