import Ripple.Proofs.KeyedUnion
import Ripple.Proofs.Merging
import Ripple.Proofs.SchemaPropagation

/-! # What an analysis of a GraphQL repository finds

Before it merges them, the analysis has findings of four sorts: the changes of the schema, the
changed schema files if there are no such changes, the changed resolvers, and the operations in the
other changed documents. Merging keeps their files and what their reasons say, and nothing else is
reported.
-/
namespace Ripple

namespace Impact

theorem exists_reason_merge_iff (items : List Impact) (component file : String)
    (kind : ReasonKind) (source : String) :
    (∃ i ∈ merge items, i.component = component ∧ i.file = file ∧
        ∃ r ∈ i.reasons, r.kind = kind ∧ r.source = source) ↔
      ∃ i ∈ items, i.component = component ∧ i.file = file ∧
        ∃ r ∈ i.reasons, r.kind = kind ∧ r.source = source := by
  have hparts := gathering.exists_part_gather_iff items (component, file) (kind, source)
  simpa [gathering, merge, key, Reason.key, and_assoc] using hparts

theorem exists_file_merge_iff (items : List Impact) (file : String) :
    (∃ i ∈ merge items, i.file = file) ↔ ∃ i ∈ items, i.file = file := by
  constructor
  · rintro ⟨i, hi, rfl⟩
    obtain ⟨j, hj, hkey⟩ := (exists_mem_merge_key items i.key).mp ⟨i, hi, rfl⟩
    exact ⟨j, hj, congrArg Prod.snd hkey⟩
  · rintro ⟨j, hj, rfl⟩
    obtain ⟨i, hi, hkey⟩ := (exists_mem_merge_key items j.key).mpr ⟨j, hj, rfl⟩
    exact ⟨i, hi, congrArg Prod.snd hkey⟩

end Impact

namespace Analysis.GraphqlApi

open Graphql (SchemaChange)
open Outcome

/-- What is found in the changed files and in the schema. -/
inductive Finding (s : Setting) (h : Host) (schemaPath : String) (changed : List String) :
    Impact → Prop where
  | change {c : SchemaChange} (relevant : ∃ file ∈ changed, IsRelevant file)
      (known : c ∈ schemaChanges s h schemaPath) :
      Finding s h schemaPath changed
        (s.impact (changedComponent c) schemaPath (reasonOf c.criticality) "schema-diff"
          (describe c))
  | schemaFile {file : String} (unknown : schemaChanges s h schemaPath = [])
      (mem : file ∈ changed) (schema : isSchemaFile file = true)
      (document : Text.endsWithAny file endings = true) :
      Finding s h schemaPath changed
        (s.impact "GraphQL Schema" file .schema file "GraphQL schema file was modified")
  | resolver {file component description : String} (mem : file ∈ changed)
      (named : isResolverFile file = true)
      (found : s.impact component file .direct file description ∈
        resolverImpacts s file (s.fileDiff h file)) :
      Finding s h schemaPath changed (s.impact component file .direct file description)
  | operation {file component description : String} {text? : Option String} (mem : file ∈ changed)
      (document : Text.endsWithAny file endings = true)
      (other : Text.has file "schema" = false) (content : s.fileText h file = .ok text?)
      (found : s.impact component file .direct file description ∈
        operationImpacts s file (text?.getD "")) :
      Finding s h schemaPath changed (s.impact component file .direct file description)

variable {s : Setting} {h : Host} {schemaPath : String} {changed : List String}
  {found : List Impact} {i : Impact}

/-- Some operation is found in a text, or the file itself. -/
theorem operationImpacts_ne_nil {content : String} (hcontent : content ≠ "") (s : Setting)
    (file : String) : operationImpacts s file content ≠ [] := by
  rw [operationImpacts, if_neg hcontent]
  split_ifs with hnone
  · exact List.cons_ne_nil _ _
  · simpa using hnone

theorem mem_ofSchema_iff {schemas : List String} :
    i ∈ ofSchema s h schemaPath schemas ↔
      (∃ c ∈ schemaChanges s h schemaPath,
        i = s.impact (changedComponent c) schemaPath (reasonOf c.criticality) "schema-diff"
          (describe c)) ∨
      schemaChanges s h schemaPath = [] ∧ ∃ file ∈ withEnding endings schemas,
        i = s.impact "GraphQL Schema" file .schema file "GraphQL schema file was modified" := by
  cases hchanges : schemaChanges s h schemaPath with
  | nil =>
    rw [ofSchema, hchanges]
    simp [schemaFileImpacts, eq_comm]
  | cons c rest =>
    rw [ofSchema_of_changes (by simp [hchanges]), hchanges]
    simp [schemaImpacts, eq_comm]

theorem Finding.relevant (hi : Finding s h schemaPath changed i) :
    ∃ file ∈ changed, IsRelevant file := by
  cases hi with
  | change hrelevant => exact hrelevant
  | schemaFile _ hmem _ hdocument => exact ⟨_, hmem, .inl hdocument⟩
  | resolver hmem hnamed => exact ⟨_, hmem, .inr (.inr hnamed)⟩
  | operation hmem hdocument => exact ⟨_, hmem, .inl hdocument⟩

theorem impacts_of_irrelevant (hrelevant : ¬ ∃ file ∈ changed, IsRelevant file) :
    impacts s h schemaPath changed = .ok [] := by
  have hnone : ∀ file ∈ changed, ¬ IsRelevant file := by simpa using hrelevant
  simp only [IsRelevant, not_or, Bool.not_eq_true] at hnone
  have hdocuments : withEnding endings changed = [] :=
    List.filter_eq_nil_iff.mpr fun file hfile => by simp [hnone file hfile]
  have hschemas : changed.filter isSchemaFile = [] :=
    List.filter_eq_nil_iff.mpr fun file hfile => by simp [hnone file hfile]
  have hresolvers : changed.filter isResolverFile = [] :=
    List.filter_eq_nil_iff.mpr fun file hfile => by simp [hnone file hfile]
  rw [impacts, hdocuments, hschemas, hresolvers]
  rfl

/-- What is reported comes from the findings. -/
theorem exists_findings (hfound : impacts s h schemaPath changed = .ok found) :
    ∃ items, found = Impact.merge items ∧ ∀ i, i ∈ items ↔ Finding s h schemaPath changed i := by
  by_cases hrelevant : ∃ file ∈ changed, IsRelevant file
  · rw [impacts_eq hrelevant] at hfound
    obtain ⟨ofOperations, hoperations, rfl⟩ := map_eq_ok_iff.mp hfound
    refine ⟨_, rfl, fun i => ?_⟩
    simp only [List.mem_append, mem_ofSchema_iff, List.mem_flatMap,
      mem_operationsIn_iff hoperations, withEnding, List.mem_filter]
    constructor
    · rintro ((⟨c, hc, rfl⟩ | ⟨hnone, file, ⟨⟨hmem, hschema⟩, hdocument⟩, rfl⟩) |
        ⟨file, ⟨hmem, hnamed⟩, hi⟩ | ⟨file, ⟨hmem, hdocument⟩, hother, text?, htext, hi⟩)
      · exact .change hrelevant hc
      · exact .schemaFile hnone hmem hschema hdocument
      · obtain ⟨component, description, rfl⟩ := exists_of_mem_resolverImpacts hi
        exact .resolver hmem hnamed hi
      · obtain ⟨component, description, rfl⟩ := exists_of_mem_operationImpacts hi
        exact .operation hmem hdocument hother htext hi
    · intro hi
      cases hi with
      | change _ hc => exact .inl (.inl ⟨_, hc, rfl⟩)
      | schemaFile hnone hmem hschema hdocument =>
        exact .inl (.inr ⟨hnone, _, ⟨⟨hmem, hschema⟩, hdocument⟩, rfl⟩)
      | resolver hmem hnamed hi => exact .inr (.inl ⟨_, ⟨hmem, hnamed⟩, hi⟩)
      | operation hmem hdocument hother htext hi =>
        exact .inr (.inr ⟨_, ⟨hmem, hdocument⟩, hother, _, htext, hi⟩)
  · rw [impacts_of_irrelevant hrelevant] at hfound
    cases hfound
    refine ⟨[], rfl, fun i => ?_⟩
    simpa using fun hi => hrelevant (Finding.relevant hi)

theorem exists_file_iff (hfound : impacts s h schemaPath changed = .ok found) (file : String) :
    (∃ i ∈ found, i.file = file) ↔ ∃ i, Finding s h schemaPath changed i ∧ i.file = file := by
  obtain ⟨items, rfl, hitems⟩ := exists_findings hfound
  simp only [Impact.exists_file_merge_iff, hitems]

theorem exists_reason_iff (hfound : impacts s h schemaPath changed = .ok found)
    (component file : String) (kind : ReasonKind) (source : String) :
    (∃ i ∈ found, i.component = component ∧ i.file = file ∧
        ∃ r ∈ i.reasons, r.kind = kind ∧ r.source = source) ↔
      ∃ i, Finding s h schemaPath changed i ∧ i.component = component ∧ i.file = file ∧
        ∃ r ∈ i.reasons, r.kind = kind ∧ r.source = source := by
  obtain ⟨items, rfl, hitems⟩ := exists_findings hfound
  simp only [Impact.exists_reason_merge_iff, hitems]

theorem readable_of_irrelevant (hrelevant : ¬ ∃ file ∈ changed, IsRelevant file) :
    Readable s h changed := fun file hfile _ =>
  absurd ⟨file, (List.mem_filter.mp hfile).1, .inl (List.mem_filter.mp hfile).2⟩ hrelevant

/-- There is a report unless git does not list the changed files or one of the other documents
cannot be looked up. -/
theorem exists_analyze_iff :
    (∃ found, analyze s schemaPath h = .ok found) ↔
      ∃ changed, s.changedFiles h name = .ok changed ∧ Readable s h changed := by
  cases hchanged : s.changedFiles h name with
  | error f => simp [analyze, hchanged, bind, Except.bind]
  | ok changed =>
    rw [analyze_eq hchanged]
    by_cases hrelevant : ∃ file ∈ changed, IsRelevant file
    · rw [impacts_ok_iff hrelevant, ← Readable]
      simp
    · simp [impacts_of_irrelevant hrelevant, readable_of_irrelevant hrelevant]

theorem exists_changed (hfound : analyze s schemaPath h = .ok found) :
    ∃ changed, s.changedFiles h name = .ok changed ∧ impacts s h schemaPath changed = .ok found :=
  bind_eq_ok_iff.mp hfound

/-- A document with text in it is reported unless its name speaks of a schema, it is no resolver and
the schema has changes. -/
theorem exists_file_document_iff (hfound : impacts s h schemaPath changed = .ok found)
    {file text : String} (hmem : file ∈ changed) (hdocument : Text.endsWithAny file endings = true)
    (hother : file ≠ schemaPath) (htext : s.fileText h file = .ok (some text))
    (hcontent : text ≠ "") :
    (∃ i ∈ found, i.file = file) ↔
      Text.has file "schema" = false ∨ isResolverFile file = true ∨
        schemaChanges s h schemaPath = [] := by
  have hoperation : Text.has file "schema" = false →
      ∃ i, Finding s h schemaPath changed i ∧ i.file = file := by
    intro hname
    obtain ⟨i, hi⟩ := List.exists_mem_of_ne_nil _ (operationImpacts_ne_nil hcontent s file)
    obtain ⟨component, description, rfl⟩ := exists_of_mem_operationImpacts hi
    exact ⟨_, .operation hmem hdocument hname htext hi, rfl⟩
  rw [exists_file_iff hfound]
  constructor
  · rintro ⟨i, hi, rfl⟩
    cases hi with
    | change => exact absurd rfl hother
    | schemaFile hnone => exact .inr (.inr hnone)
    | resolver _ hnamed => exact .inr (.inl hnamed)
    | operation _ _ hname => exact .inl hname
  · rintro (hname | hnamed | hnone)
    · exact hoperation hname
    · exact ⟨_, .resolver hmem hnamed List.mem_cons_self, rfl⟩
    · cases hname : Text.has file "schema" with
      | false => exact hoperation hname
      | true =>
        have hschema : isSchemaFile file = true := by simp [isSchemaFile, hname]
        exact ⟨_, .schemaFile hnone hmem hschema hdocument, rfl⟩

/-- There is a report unless the changed files are not listed or cannot be looked up. Of the changed
documents other than the schema that have a text, it leaves out exactly those whose names speak of a
schema and not of a resolver, and only where the schema has changes. -/
theorem analyze_documents (s : Setting) (h : Host) (schemaPath : String) :
    ((∃ found, analyze s schemaPath h = .ok found) ↔
      ∃ changed, s.changedFiles h name = .ok changed ∧ Readable s h changed) ∧
    ∀ found, analyze s schemaPath h = .ok found →
      ∃ changed, s.changedFiles h name = .ok changed ∧
        ∀ file ∈ changed, Text.endsWithAny file endings = true → file ≠ schemaPath →
          ∀ text, s.fileText h file = .ok (some text) → text ≠ "" →
            ((∃ i ∈ found, i.file = file) ↔
              Text.has file "schema" = false ∨ isResolverFile file = true ∨
                schemaChanges s h schemaPath = []) := by
  refine ⟨exists_analyze_iff, fun found hfound => ?_⟩
  obtain ⟨changed, hchanged, himpacts⟩ := exists_changed hfound
  exact ⟨changed, hchanged, fun file hmem hdocument hother text htext hcontent =>
    exists_file_document_iff himpacts hmem hdocument hother htext hcontent⟩

/-- The machine with a new field in the schema, where git lists these files. -/
def fieldHostWith (changed : List String) (documents : List (List String × FileNode)) : Host where
  files := ⟨(["api"], .directory) :: documents, []⟩
  git directory command :=
    if command = ["git", "diff", "--name-only", "main...HEAD"] then
      Git.Snapshot.printed (Text.Utf8.encode (Text.lineBlock changed))
    else fieldHost.git directory command

theorem schemaChanges_fieldHostWith (changed : List String)
    (documents : List (List String × FileNode)) :
    schemaChanges soleSetting (fieldHostWith changed documents) "schema.graphql" =
      [fieldAdded] := by
  have hcompares : Compares soleSetting (fieldHostWith changed documents) "schema.graphql"
      "type Query{a:Int}" "type Query{a:Int b:Int}" [fieldAdded] :=
    ⟨⟨(fieldHostWith [] []).files, rfl⟩, compares_field.base, compares_field.head,
      compares_field.diff⟩
  exact hcompares.schemaChanges_eq

def usersFile : String := "src/schema/users.graphql"

def ordersFile : String := "src/orders.graphql"

def recentOperation : String := "query Recent \x7b id \x7d"

def operationsHost : Host :=
  fieldHostWith ["schema.graphql", usersFile, ordersFile]
    [(["api", "src"], .directory), (["api", "src", "schema"], .directory),
      (["api", "src", "schema", "users.graphql"], .file (Text.Utf8.encode recentOperation)),
      (["api", "src", "orders.graphql"], .file (Text.Utf8.encode recentOperation))]

theorem changedFiles_operationsHost :
    soleSetting.changedFiles operationsHost name =
      .ok ["schema.graphql", usersFile, ordersFile] := by
  rw [eq_ok_iff_toOption]
  decide +kernel

theorem fileText_operationsHost :
    ∀ file ∈ [usersFile, ordersFile],
      soleSetting.fileText operationsHost file = .ok (some recentOperation) := by
  simp only [eq_ok_iff_toOption]
  decide +kernel

theorem exists_analyze_operationsHost :
    ∃ found, analyze soleSetting "schema.graphql" operationsHost = .ok found := by
  refine exists_analyze_iff.mpr ⟨_, changedFiles_operationsHost, fun file hfile hname => ?_⟩
  have hother : file ≠ "schema.graphql" := by
    rintro rfl
    revert hname
    decide
  have hmem := (List.mem_cons.mp (List.mem_filter.mp hfile).1).resolve_left hother
  exact ⟨_, fileText_operationsHost file hmem⟩

theorem schemaChanges_operationsHost :
    schemaChanges soleSetting operationsHost "schema.graphql" = [fieldAdded] :=
  schemaChanges_fieldHostWith _ _

/-- Of the two, the operations in the directory of the schema are left out. -/
theorem analyze_documents_operationsHost :
    ∃ found, analyze soleSetting "schema.graphql" operationsHost = .ok found ∧
      (∃ i ∈ found, i.file = ordersFile) ∧ ¬ ∃ i ∈ found, i.file = usersFile := by
  obtain ⟨found, hfound⟩ := exists_analyze_operationsHost
  obtain ⟨changed, hchanged, hreported⟩ :=
    (analyze_documents soleSetting operationsHost "schema.graphql").2 found hfound
  obtain rfl : ["schema.graphql", usersFile, ordersFile] = changed :=
    Except.ok.inj (changedFiles_operationsHost.symm.trans hchanged)
  refine ⟨found, hfound, ?_, ?_⟩
  · refine (hreported ordersFile (by simp) (by decide) (by decide)
      recentOperation (fileText_operationsHost _ (by simp)) (by decide)).mpr (.inl ?_)
    decide
  · rw [hreported usersFile (by simp) (by decide) (by decide)
      recentOperation (fileText_operationsHost _ (by simp)) (by decide),
      schemaChanges_operationsHost]
    decide

/-- Not every changed document is reported. -/
theorem analyze_drops_usersFile :
    ¬ ∀ (s : Setting) (h : Host) (schemaPath : String) (changed : List String)
      (found : List Impact) (file text : String),
      findSchema h.files s.repo.path schemaCandidates = .ok schemaPath →
      s.changedFiles h name = .ok changed → analyze s schemaPath h = .ok found →
      file ∈ changed → Text.endsWithAny file endings = true → file ≠ schemaPath →
      s.fileText h file = .ok (some text) → text ≠ "" → ∃ i ∈ found, i.file = file := by
  intro hall
  obtain ⟨found, hfound⟩ := exists_analyze_operationsHost
  have hmem : usersFile ∈ ["schema.graphql", usersFile, ordersFile] := by simp
  have hdocument : Text.endsWithAny usersFile endings = true := by decide
  have hother : usersFile ≠ "schema.graphql" := by decide
  have htext := fileText_operationsHost usersFile (by simp)
  have hcontent : recentOperation ≠ "" := by decide
  have hitem := hall _ _ _ _ _ _ _ rfl changedFiles_operationsHost hfound hmem hdocument hother
    htext hcontent
  rw [analyze_eq changedFiles_operationsHost] at hfound
  rw [exists_file_document_iff hfound hmem hdocument hother htext hcontent,
    schemaChanges_operationsHost] at hitem
  revert hitem
  decide

end Analysis.GraphqlApi

end Ripple
