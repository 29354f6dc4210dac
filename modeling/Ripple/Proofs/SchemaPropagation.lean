import Ripple.Outline.ScriptFile
import Ripple.Proofs.Confinement
import Ripple.Proofs.Integrity
import Ripple.Proofs.SchemaReport
import Ripple.Regex.Names

/-! # Where the changes of a schema arrive

The impacts of a changed schema are on a GraphQL document, so each of them starts a propagation
along the relations for schemas. Merging keeps their components, hence every change arrives at all
consumers of a related repository. The changes are lost where the analysis fails after it has found
them: that is where another changed document cannot be looked up.
-/
namespace Ripple.Analysis.GraphqlApi

open Graphql (SchemaChange)

/-- The repository asks for an analysis of its GraphQL service. The analysis compares two versions
of the schema, and some changed file makes it look at them. -/
structure Finds (r : Run) (repo : Repository) (s : Setting) (schemaPath old new : String)
    (changed : List String) (changes : List SchemaChange) : Prop where
  asked : .graphqlInspector ∈ repo.analyzers
  present : r.host.files.exists? repo.path = .ok true
  setting : Setting.make repo r.versions = .ok s
  located : findSchema r.host.files repo.path schemaCandidates = .ok schemaPath
  compares : Compares s r.host schemaPath old new changes
  listed : s.changedFiles r.host name = .ok changed
  relevant : ∃ file ∈ changed, IsRelevant file

/-- The changed documents that hold operations can be looked up. -/
def Readable (s : Setting) (h : Host) (changed : List String) : Prop :=
  ∀ file ∈ withEnding endings changed, Text.has file "schema" = false →
    ∃ text?, s.fileText h file = .ok text?

/-- The schema is not looked up. -/
theorem readable_schema (s : Setting) (h : Host) : Readable s h ["schema.graphql"] := by
  intro file hfile hname
  rw [List.mem_singleton.mp (List.mem_filter.mp hfile).1] at hname
  have hschema : Text.has "schema.graphql" "schema" = true := by decide
  cases hschema.symm.trans hname

theorem namesIn_ofList (output : List Char) :
    Git.namesIn (String.ofList output) =
      (((Text.linesFrom [] output).map (Text.stripBy Text.isBlank)).filter
        fun line => !line.isEmpty).map String.ofList := by
  have hstrip : Text.strip ∘ String.ofList = String.ofList ∘ Text.stripBy Text.isBlank := by
    funext line
    rw [Function.comp_apply, Text.strip, String.toList_ofList, Function.comp_apply]
  have hempty : (fun name : String => !name.isEmpty) ∘ String.ofList =
      fun line => !line.isEmpty := by
    funext line
    rw [Bool.eq_iff_iff]
    simp
  rw [Git.namesIn, Text.lines, String.toList_ofList, List.map_map, hstrip, ← List.map_map,
    List.filter_map, hempty]

theorem changedFiles_of_ended {s : Setting} {h : Host} {output errors : List UInt8}
    (hended : (s.client h).execute
      ["git", "diff", "--name-only", s.versions.base ++ "..." ++ s.versions.head] =
        .ended output errors 0) (analyzer : String) :
    s.changedFiles h analyzer = .ok (s.filter.select (Git.namesIn (Git.decoded output))) := by
  have hlisted : ((s.client h).changedFiles s.versions.base s.versions.head : Id _) =
      .ok (Git.namesIn (Git.decoded output)) := by
    rw [Git.Client.changedFiles, Git.Client.run, hended]
    rfl
  rw [Setting.changedFiles, hlisted]

/-- Wherever the schema is found, an impact on it starts a propagation. -/
theorem triggers_schemaPath {files : FileTree} {directory : Path} {schemaPath : String}
    (h : findSchema files directory schemaCandidates = .ok schemaPath) {i : Impact}
    (hfile : i.file = schemaPath) : Signal.graphqlTrigger.holds i = true := by
  have hall : ∀ p ∈ "schema.graphql" :: schemaCandidates, Signal.isGraphqlFile p = true := by
    decide
  have hgraphql := hall schemaPath (mem_of_findSchema h)
  simp [Signal.holds, hfile, hgraphql]

/-- Looking for operations fails only where a document cannot be looked up. -/
theorem nameTooLong_of_operationsIn {s : Setting} {h : Host} {files : List String} {f : Fault}
    (hfault : operationsIn s h files = .error f) : ∃ g, f = .nameTooLong g := by
  induction files with
  | nil => cases hfault
  | cons file rest ih =>
    rw [operationsIn] at hfault
    split at hfault
    · exact ih hfault
    · rw [Setting.fileText_eq] at hfault
      cases ht : (s.client h).fileText h.files file with
      | error g =>
        rw [ht] at hfault
        cases hfault
        exact ⟨g, rfl⟩
      | ok text? =>
        rw [ht] at hfault
        cases hr : operationsIn s h rest with
        | error g =>
          rw [hr] at hfault
          cases hfault
          exact ih hr
        | ok others =>
          rw [hr] at hfault
          cases hfault

variable {r : Run} {repo : Repository} {s : Setting} {schemaPath old new : String}
  {changed : List String} {changes : List SchemaChange}

theorem impacts_fails (hrelevant : ∃ file ∈ changed, IsRelevant file) {h : Host}
    (hlost : ¬ Readable s h changed) (schemaPath : String) :
    ∃ f : NameTooLong, impacts s h schemaPath changed = .error (.nameTooLong f) := by
  rw [Readable, ← operationsIn_ok_iff] at hlost
  rw [impacts_eq hrelevant]
  cases ho : operationsIn s h (withEnding endings changed) with
  | ok found => exact absurd ⟨found, ho⟩ hlost
  | error f =>
    obtain ⟨g, rfl⟩ := nameTooLong_of_operationsIn ho
    exact ⟨g, rfl⟩

theorem Finds.answer?_eq (hfinds : Finds r repo s schemaPath old new changed changes)
    (hclass : r.registry.lookup AnalyzerKind.graphqlInspector.text = some analyzers) :
    r.answer? repo .graphqlInspector = some (impacts s r.host schemaPath changed) := by
  have hmade : r.registry.create AnalyzerKind.graphqlInspector.text r.host repo r.versions =
      .ok (some ⟨name, some schemaPath, analyze s schemaPath⟩) := by
    rw [Registry.create, hclass]
    simp only [analyzers, if_true, hfinds.setting, hfinds.located]
    rfl
  rw [Run.answer?, hmade]
  simp only [analyze_eq hfinds.listed]

/-- Each change has an impact on its component in the account of the repository. -/
theorem Finds.exists_mem_account (hfinds : Finds r repo s schemaPath old new changed changes)
    (hclass : r.registry.lookup AnalyzerKind.graphqlInspector.text = some analyzers)
    (hreadable : Readable s r.host changed) {change : SchemaChange} (hchange : change ∈ changes) :
    ∃ i ∈ (r.account repo).impacts,
      i.component = changedComponent change ∧ i.file = schemaPath := by
  obtain ⟨found, hfound⟩ := (impacts_ok_iff hfinds.relevant).mpr hreadable
  have hne : schemaChanges s r.host schemaPath ≠ [] := by
    rw [hfinds.compares.schemaChanges_eq]
    exact List.ne_nil_of_mem hchange
  have hanswer := hfinds.answer?_eq hclass
  rw [hfound] at hanswer
  obtain ⟨files, hfind⟩ := hfinds.compares.found
  obtain ⟨others, _, rfl⟩ := exists_others_of_impacts hfinds.relevant hfind hne hfound
  rw [hfinds.compares.schemaChanges_eq] at hanswer
  obtain ⟨i, hi, hcomponent, hfile⟩ := exists_mem_merge s schemaPath others hchange
  obtain ⟨j, hj, hkey⟩ := r.exists_mem_impacts_account hfinds.present hfinds.asked hanswer hi
  exact ⟨j, hj, (congrArg Prod.fst hkey).trans hcomponent, (congrArg Prod.snd hkey).trans hfile⟩

/-- Where another document cannot be looked up, this is an entry of the repository. -/
theorem Finds.exists_entry (hfinds : Finds r repo s schemaPath old new changed changes)
    (hclass : r.registry.lookup AnalyzerKind.graphqlInspector.text = some analyzers)
    (hlost : ¬ Readable s r.host changed) :
    ∃ f : NameTooLong, "graphql-inspector: " ++ f.message ∈ (r.account repo).errors := by
  obtain ⟨f, hf⟩ := impacts_fails hfinds.relevant hlost schemaPath
  have hanswer := hfinds.answer?_eq hclass
  rw [hf] at hanswer
  exact ⟨f, (r.mem_errors_account hfinds.present _).mpr
    ⟨.graphqlInspector, hfinds.asked, _, hanswer, rfl⟩⟩

section Run

variable [Regex.Names] {homes : Homes} {entries : List (Value × Value)} {c : Config}
  {schedule : List Nat} {result : Result} {relation : Relation}

/-- The components of the other repository that consume under the relation have a record for each
change of the schema. -/
def Arrive (result : Result) (relation : Relation) (changes : List SchemaChange)
    (b : RepoResult) : Prop :=
  ∀ change ∈ changes, ∃ x ∈ result.crossImpacts,
    x.key = (relation.source, changedComponent change, relation.target, .graphqlSchema) ∧
      ∀ i ∈ b.impacts, IsConsumer .graphqlConsumer (relation.patterns.getD []) i →
        i.component ∈ x.targets

/-- Every change of the schema of a repository arrives at every related repository in which anything
consumes, if the other changed documents can be looked up. Otherwise there is an entry for it. -/
theorem resultUnder_arrive (hvalid : Config.check homes entries = .valid c)
    (hclass : r.registry.lookup AnalyzerKind.graphqlInspector.text = some analyzers)
    (hmatcher : r.matchers.find? RelationKind.graphqlSchema.text =
      some RelationKind.graphqlSchema.matcher)
    (hresult : r.resultUnder schedule c = .ok result) (hrelation : relation ∈ c.relations)
    (hvia : relation.via = .graphqlSchema) (hrepo : repo ∈ c.repos)
    (hsource : repo.name = relation.source)
    (hfinds : Finds r repo s schemaPath old new changed changes) :
    (Readable s r.host changed → ∀ b ∈ result.repos, b.name = relation.target →
      (∃ i ∈ b.impacts, IsConsumer .graphqlConsumer (relation.patterns.getD []) i) →
      Arrive result relation changes b) ∧
    (¬ Readable s r.host changed → ∃ a ∈ result.repos, a.name = relation.source ∧
      ∃ f : NameTooLong, "graphql-inspector: " ++ f.message ∈ a.errors) := by
  have haccounts := r.accounts_of_resultUnder hresult
  have hmem : r.account repo ∈ result.repos := haccounts.repos ▸ List.mem_map_of_mem hrepo
  have hname := (r.name_account repo).trans hsource
  constructor
  · intro hreadable b hb htarget hconsumes change hchange
    have hnodup : (result.repos.map (·.name)).Nodup :=
      haccounts.names_eq ▸ (Config.refersWell_of_check hvalid).nodup_names
    obtain ⟨i, hi, hcomponent, hfile⟩ := hfinds.exists_mem_account hclass hreadable hchange
    obtain ⟨files, hfind⟩ := hfinds.compares.found
    have hserved : r.matchers.find? relation.via.text =
        some RelationKind.graphqlSchema.matcher := by
      rw [hvia, hmatcher]
    have hmatched : ∀ i ∈ b.impacts,
        IsConsumer .graphqlConsumer (relation.patterns.getD []) i →
          RelationKind.graphqlSchema.matcher.Consumes ⟨b.name, b.impacts⟩ relation i.component :=
      fun i hi hconsumer => ⟨i, hi, rfl, hconsumer.imp_right fun hglob => ⟨rfl, hglob⟩⟩
    obtain ⟨consumer, hconsumer, hconsumes⟩ := hconsumes
    obtain ⟨x, hx, hkey, htargets⟩ := haccounts.exists_record hnodup hrelation hserved hmem hname
      hb htarget ⟨i, hi, hcomponent, triggers_schemaPath hfind hfile⟩
      ⟨_, hmatched consumer hconsumer hconsumes⟩
    exact ⟨x, hx, hvia ▸ hkey, fun i hi h => htargets _ (hmatched i hi h)⟩
  · exact fun hlost => ⟨_, hmem, hname, hfinds.exists_entry hclass hlost⟩

end Run

/-- A service with a schema, and a client of it that uses Go. -/
def clientDocument : List (Value × Value) :=
  [(.text "repos", .list [
      .record [("name", .text "api"), ("path", .text "/api"), ("type", .text "graphql-node"),
        ("analyzers", .list [.text "graphql-inspector"])],
      .record [("name", .text "web"), ("path", .text "/web"), ("type", .text "go"),
        ("analyzers", .list [.text "go-ast"])]]),
    (.text "relations", .list [
      .record [("from", .text "api"), ("to", .text "web"), ("via", .text "graphql-schema"),
        ("patterns", .list [.text "go.mod"])]])]

def clientRelation : Relation := ⟨"api", "web", .graphqlSchema, some ["go.mod"]⟩

def clientConfig : Config where
  repos := [soleSetting.repo, ⟨"web", ⟨"/", ["web"]⟩, .go, [.goAst], none, none⟩]
  relations := [clientRelation]
  output := .standard
  logging := .standard

theorem check_clientDocument :
    Config.check ⟨"/", []⟩ clientDocument = .valid clientConfig := by
  decide +kernel

def clientHost (listing : List UInt8) : Host where
  files := ⟨[(["api"], .directory), (["web"], .directory)], []⟩
  git directory command :=
    if directory = soleSetting.repo.path then
      if command = ["git", "diff", "--name-only", "main...HEAD"] then .ended listing [] 0
      else fieldHost.git directory command
    else Git.Snapshot.answer ⟨.ok ["go.mod"], [], []⟩ command

def clientRun (listing : List UInt8) : Run where
  registry := .standard
  matchers := .standard
  host := clientHost listing
  versions := soleSetting.versions
  pullRequest := none
  now := ⟨⟨2024, 1, 2⟩, 0, 0, 0, 0, none⟩

def clientResult : RepoResult where
  name := "web"
  changedFiles := 1
  impacts := [.single "web" "Go Dependencies" "go.mod" .dependency "go.mod"
    "Go module dependencies changed - may affect all functions" none]
  errors := []

theorem isConsumer_client : ∃ i ∈ clientResult.impacts,
    IsConsumer .graphqlConsumer (clientRelation.patterns.getD []) i := by
  refine ⟨_, List.mem_singleton_self _, .inr ⟨"go.mod", List.mem_singleton_self _, ?_⟩⟩
  rw [Outcome.eq_ok_iff_toOption]
  decide

theorem sized_client : ∀ p ∈ clientRelation.patterns.getD [], ¬ Glob.Oversized p := by
  rw [clientRelation, Option.getD_some, List.forall_mem_singleton]
  rintro ⟨f, hf⟩
  have hnone : Glob.refusal? "go.mod" = none := by
    decide
  rw [hnone] at hf
  cases hf

theorem account_client (listing : List UInt8) :
    (clientRun listing).account ⟨"web", ⟨"/", ["web"]⟩, .go, [.goAst], none, none⟩ =
      clientResult := by
  have hview : (clientHost []).SameView (clientHost listing) ⟨"/", ["web"]⟩ := ⟨rfl, rfl⟩
  have hempty : (clientRun []).account ⟨"web", ⟨"/", ["web"]⟩, .go, [.goAst], none, none⟩ =
      clientResult := by
    decide +kernel
  rw [← hempty]
  exact Run.account_congr rfl rfl rfl hview

/-- Whatever git lists for the service, there is a result with the one for the client. -/
theorem exists_result_client (listing : List UInt8) :
    ∃ result, (clientRun listing).resultUnder [] clientConfig = .ok result ∧
      clientResult ∈ result.repos := by
  have hstops : ∀ repo ∈ clientConfig.repos, ¬ (clientRun listing).Stops repo := by
    intro repo hrepo hs
    have hopen : ∀ repo ∈ clientConfig.repos,
        (clientHost listing).files.exists? repo.path = .ok true ∧ repo.filterLines = [] :=
      List.forall_mem_cons.mpr ⟨⟨rfl, rfl⟩, List.forall_mem_singleton.mpr ⟨rfl, rfl⟩⟩
    obtain ⟨hthere, hnone⟩ := hopen repo hrepo
    rcases (Run.stops_iff rfl).mp hs with ⟨f, hf⟩ | ⟨_, _, line, hline, _⟩
    · cases hthere.symm.trans hf
    · rw [hnone] at hline
      cases hline
  have hstalls : ∀ relation ∈ clientConfig.relations, ¬ Correlation.Stalls
      (clientRun listing).matchers ((clientRun listing).found clientConfig.repos) relation :=
    List.forall_mem_singleton.mpr (Correlation.not_stalls_of_sized _ _ sized_client)
  obtain ⟨result, hresult⟩ := (clientRun listing).resultUnder_eq_ok hstops hstalls []
  refine ⟨result, hresult, ?_⟩
  rw [((clientRun listing).accounts_of_resultUnder hresult).repos, ← account_client listing]
  exact List.mem_map_of_mem (List.mem_cons_of_mem _ (List.mem_singleton_self _))

theorem finds_client {listing : List UInt8} {changed : List String}
    (hlisted : soleSetting.changedFiles (clientHost listing) name = .ok changed)
    (hrelevant : ∃ file ∈ changed, IsRelevant file) :
    Finds (clientRun listing) soleSetting.repo soleSetting "schema.graphql" "type Query{a:Int}"
      "type Query{a:Int b:Int}" changed [fieldAdded] where
  asked := List.mem_singleton_self _
  present := rfl
  setting := rfl
  located := rfl
  compares := ⟨⟨(clientHost listing).files, rfl⟩, compares_field.base, compares_field.head,
    compares_field.diff⟩
  listed := hlisted
  relevant := hrelevant

theorem changedFiles_client {listing : List UInt8} {names : List (List Char)}
    (h : (((Text.linesFrom [] (Text.Utf8.decodeLossy listing)).map
      (Text.stripBy Text.isBlank)).filter fun line => !line.isEmpty) = names) :
    soleSetting.changedFiles (clientHost listing) name = .ok (names.map String.ofList) := by
  have hended : (soleSetting.client (clientHost listing)).execute ["git", "diff", "--name-only",
      soleSetting.versions.base ++ "..." ++ soleSetting.versions.head] = .ended listing [] 0 := rfl
  rw [changedFiles_of_ended hended, Git.decoded, namesIn_ofList, h]
  simp [soleSetting, PathFilter.select, PathFilter.passes]

def schemaLine : List UInt8 := Text.Utf8.encode "schema.graphql\n"

theorem changedFiles_schemaLine :
    soleSetting.changedFiles (clientHost schemaLine) name = .ok ["schema.graphql"] := by
  have hnames : (((Text.linesFrom [] (Text.Utf8.decodeLossy schemaLine)).map
      (Text.stripBy Text.isBlank)).filter fun line => !line.isEmpty) =
        ["schema.graphql".toList] := by
    decide +kernel
  rw [changedFiles_client hnames, List.map_singleton, String.ofList_toList]

/-- The new field arrives at the packages of the client. -/
theorem resultUnder_arrive_client :
    ∃ result, (clientRun schemaLine).resultUnder [] clientConfig = .ok result ∧
      clientResult ∈ result.repos ∧ Arrive result clientRelation [fieldAdded] clientResult := by
  obtain ⟨result, hresult, hclient⟩ := exists_result_client schemaLine
  have hreadable : Readable soleSetting (clientHost schemaLine) ["schema.graphql"] := by
    intro file hfile hname
    rw [List.mem_singleton.mp (List.mem_filter.mp hfile).1] at hname
    have hschema : Text.has "schema.graphql" "schema" = true := by decide
    cases hschema.symm.trans hname
  refine ⟨result, hresult, hclient, ?_⟩
  exact (resultUnder_arrive check_clientDocument rfl rfl hresult (List.mem_singleton_self _) rfl
    List.mem_cons_self rfl (finds_client changedFiles_schemaLine isRelevant_schema)).1 hreadable
    clientResult hclient rfl isConsumer_client

/-- A name that is too long for a file system, though not for git. -/
def longChars : List Char := List.replicate 256 'a' ++ ".graphql".toList

def longName : String := String.ofList longChars

theorem toList_longName : longName.toList = longChars := String.toList_ofList

theorem notMem_longName {c : Char} (hfill : c ≠ 'a') (hend : c ∉ ".graphql".toList) :
    c ∉ longName.toList := by
  rw [toList_longName, longChars, List.mem_append]
  rintro (h | h)
  · exact hfill (List.eq_of_mem_replicate h)
  · exact hend h

def longLine : List UInt8 := List.replicate 256 97 ++ Text.Utf8.encode ".graphql\n"

theorem changedFiles_longLine :
    soleSetting.changedFiles (clientHost (schemaLine ++ longLine)) name =
      .ok ["schema.graphql", longName] := by
  have hnames : (((Text.linesFrom [] (Text.Utf8.decodeLossy (schemaLine ++ longLine))).map
      (Text.stripBy Text.isBlank)).filter fun line => !line.isEmpty) =
        ["schema.graphql".toList, longChars] := by
    decide +kernel
  rw [changedFiles_client hnames, List.map_cons, List.map_singleton, String.ofList_toList,
    longName]

theorem ofString_longName : Path.ofString longName = ⟨"", [longName]⟩ := by
  have hslash : '/' ∉ longName.toList := notMem_longName (by decide) (by simp)
  have hstart : ∀ root ∈ ["///", "//", "/"], Text.startsWith longName root = false := by
    intro root hroot
    refine Text.startsWith_eq_false_of_notMem ?_ hslash
    revert root
    decide
  have hhead : longName.toList.head? = some 'a' := by
    rw [toList_longName]
    rfl
  have hname : longName ≠ "" ∧ longName ≠ "." := by
    refine ⟨fun h => ?_, fun h => ?_⟩ <;>
      simp [h] at hhead
  have hnames : Path.namesOf longName = [longName] := by
    rw [Path.namesOf, Text.split_of_notMem hslash]
    exact List.filter_cons_of_pos (decide_eq_true hname)
  rw [Path.ofString, hnames, hstart "///" (by simp), hstart "//" (by simp), hstart "/" (by simp)]
  rfl

theorem locate_longName : ∃ f, (clientHost (schemaLine ++ longLine)).files.locate
    (soleSetting.repo.path.join (Path.ofString longName)) = .error f := by
  have hjoin : soleSetting.repo.path.join (Path.ofString longName) =
      ⟨"/", ["api"] ++ [longName]⟩ := by
    rw [ofString_longName]
    rfl
  have hnul : '\x00' ∉ (Path.toString ⟨"/", ["api"] ++ [longName]⟩).toList := by
    have hchars : '\x00' ∉ longName.toList := notMem_longName (by decide) (by simp)
    simpa [Path.toString, Text.join] using hchars
  have hlong : FileTree.nameLimit < longName.utf8ByteSize := by
    decide +kernel
  rw [hjoin, FileTree.locate, if_neg (by simpa using hnul)]
  have hbase : (clientHost (schemaLine ++ longLine)).files.walk "" [] ["api"] =
      .ok (some (["api"], .directory)) := rfl
  exact ⟨_, (FileTree.walk_append _ hbase _ _).trans (FileTree.walk_of_long _ rfl hlong _ [])⟩

theorem not_readable_longName :
    ¬ Readable soleSetting (clientHost (schemaLine ++ longLine)) ["schema.graphql", longName] := by
  intro hreadable
  have hends : Text.endsWithAny longName endings = true := by
    rw [Text.endsWithAny, List.any_eq_true]
    refine ⟨".graphql", List.mem_cons_self, ?_⟩
    rw [Text.endsWith, toList_longName, List.isSuffixOf_iff_suffix]
    exact List.suffix_append _ _
  have hplain : Text.has longName "schema" = false :=
    Text.has_eq_false_of_notMem (by decide : 's' ∈ "schema".toList)
      (notMem_longName (by decide) (by simp))
  have hchanged : longName ∈ withEnding endings ["schema.graphql", longName] :=
    List.mem_filter.mpr ⟨List.mem_cons_of_mem _ (List.mem_singleton_self _), hends⟩
  obtain ⟨text?, htext⟩ := hreadable longName hchanged hplain
  obtain ⟨f, hf⟩ := locate_longName
  have htext' : ((clientHost (schemaLine ++ longLine)).files.text?
      (soleSetting.repo.path.join (Path.ofString longName))).mapError Fault.nameTooLong =
        .ok text? := by
    rw [← htext, Setting.fileText_eq, Git.Client.fileText]
    rfl
  rw [FileTree.text?, FileTree.file?, hf] at htext'
  cases htext'

theorem isRelevant_longName : ∃ file ∈ ["schema.graphql", longName], IsRelevant file :=
  ⟨"schema.graphql", List.mem_cons_self, .inl (by decide)⟩

/-- What was found is not in the account. -/
theorem impacts_account_longName :
    ((clientRun (schemaLine ++ longLine)).account soleSetting.repo).impacts = [] := by
  obtain ⟨f, hf⟩ := impacts_fails isRelevant_longName not_readable_longName "schema.graphql"
  have hanswer := (finds_client changedFiles_longLine isRelevant_longName).answer?_eq rfl
  have himpacts : (clientRun (schemaLine ++ longLine)).impactsOf soleSetting.repo
      .graphqlInspector = [] := by
    rw [Run.impactsOf, hanswer.trans (congrArg some hf)]
  rw [Run.impacts_account _ rfl, soleSetting, List.flatMap_singleton]
  exact congrArg Impact.merge himpacts

/-- Not every change arrives. -/
theorem not_arrive_longName :
    ¬ ∀ (homes : Homes) (entries : List (Value × Value)) (c : Config) (r : Run)
      (schedule : List Nat) (result : Result) (relation : Relation) (repo : Repository)
      (s : Setting) (schemaPath old new : String) (changed : List String)
      (changes : List SchemaChange) (b : RepoResult),
      Config.check homes entries = .valid c →
      r.registry.lookup AnalyzerKind.graphqlInspector.text = some analyzers →
      r.matchers.find? RelationKind.graphqlSchema.text =
        some RelationKind.graphqlSchema.matcher →
      r.resultUnder schedule c = .ok result → relation ∈ c.relations →
      relation.via = .graphqlSchema → repo ∈ c.repos → repo.name = relation.source →
      Finds r repo s schemaPath old new changed changes →
      b ∈ result.repos → b.name = relation.target →
      (∃ i ∈ b.impacts, IsConsumer .graphqlConsumer (relation.patterns.getD []) i) →
      Arrive result relation changes b := by
  intro hall
  obtain ⟨result, hresult, hclient⟩ := exists_result_client (schemaLine ++ longLine)
  obtain ⟨x, hx, hkey, _⟩ := hall _ _ _ _ _ _ _ _ _ _ _ _ _ _ _ check_clientDocument rfl rfl
    hresult (List.mem_singleton_self _) rfl List.mem_cons_self rfl
    (finds_client changedFiles_longLine isRelevant_longName) hclient rfl isConsumer_client
    fieldAdded (List.mem_singleton_self _)
  have haccounts := (clientRun (schemaLine ++ longLine)).accounts_of_resultUnder hresult
  obtain ⟨a, ha, hname, i, hi, _⟩ := (haccounts.grounded hx).source
  have hsource : x.sourceRepo = "api" := congrArg Prod.fst hkey
  rw [haccounts.repos] at ha
  rcases List.mem_cons.mp ha with rfl | ha
  · rw [impacts_account_longName] at hi
    cases hi
  · rw [List.mem_singleton.mp ha, account_client, hsource] at hname
    exact absurd hname (by decide)

end Ripple.Analysis.GraphqlApi
