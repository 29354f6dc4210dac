import Ripple.Git.Snapshot
import Ripple.Outline.ScriptFile
import Ripple.Proofs.Gathering
import Ripple.Proofs.Setup

/-! # Where reasons come from

Whatever a built-in analyzer reports is on its own repository, in one impact for each component and
file, with at least one reason and with each kind and source of reasons once. The source of a reason
is a name that stands in git's list of changed files and that passes the filter of the repository;
only the reasons that come from the comparison of two schemas have a source of their own.

A name in the list is a line without the blanks around it. So a file whose name begins or ends with
blanks is a source under another name, and it is that other name that the filter has judged.
-/
namespace Ripple

namespace Impact

/-- The impact is on the repository of that name, and for reasons that have sources of some sort. -/
structure Traced (repo : String) (Source : String → Prop) (i : Impact) : Prop where
  repo : i.repo = repo
  reasons_ne_nil : i.reasons ≠ []
  source : ∀ reason ∈ i.reasons, Source reason.source

/-- Impacts are told apart by component and file, the reasons of each by kind and source. -/
structure Tidy (impacts : List Impact) : Prop where
  nodup_keys : (impacts.map key).Nodup
  nodup_reasons : ∀ i ∈ impacts, (i.reasons.map Reason.key).Nodup

variable {repo : String} {Source : String → Prop}

theorem traced_single {source : String} (h : Source source) (component file : String)
    (kind : ReasonKind) (description : String) (line : Option Int) :
    (single repo component file kind source description line).Traced repo Source where
  repo := rfl
  reasons_ne_nil := List.cons_ne_nil _ _
  source := List.forall_mem_singleton.mpr h

theorem tidy_nil : Tidy [] := ⟨List.nodup_nil, List.forall_mem_nil _⟩

theorem tidy_merge (items : List Impact) : Tidy (merge items) where
  nodup_keys := gathering.nodup_map_key_gather items
  nodup_reasons := by
    intro i hi
    have hreasons : i.reasons = distinctBy Reason.key (gathering.partsOf items i.key) :=
      gathering.parts_of_mem_gather hi
    rw [hreasons]
    exact nodup_map_distinctBy Reason.key _

/-- Merging invents neither repositories nor sources, and it leaves no impact without reasons. -/
theorem traced_merge {items : List Impact} (h : ∀ i ∈ items, i.Traced repo Source) :
    ∀ i ∈ merge items, i.Traced repo Source := by
  intro i hi
  obtain ⟨j, hj, rfl⟩ := gathering.exists_of_mem_gather hi
  have hpart : ∀ reason, reason ∈ gathering.partsOf items j.key ↔
      ∃ k ∈ items, k.key = j.key ∧ reason ∈ k.reasons := gathering.mem_partsOf items j.key
  -- the impact itself is among those of its key, so one of its own reasons is still there
  refine ⟨(h j hj).repo, ?_, fun reason hreason => ?_⟩
  · obtain ⟨reason, hreason⟩ := List.exists_mem_of_ne_nil _ (h j hj).reasons_ne_nil
    obtain ⟨first, hfirst, _⟩ :=
      exists_mem_distinctBy Reason.key ((hpart reason).mpr ⟨j, hj, rfl, hreason⟩)
    exact List.ne_nil_of_mem hfirst
  · obtain ⟨k, hk, _, hmem⟩ := (hpart reason).mp (mem_of_mem_distinctBy Reason.key hreason)
    exact (h k hk).source reason hmem

end Impact

namespace Git.Client

/-- Git prints the list of changed files. It is asked a second time if the first question fails. -/
def Prints (c : Client Id) (base head output : String) : Prop :=
  (c.run ["diff", "--name-only", base ++ "..." ++ head] : Except Fault String) = .ok output ∨
    (∃ f, (c.run ["diff", "--name-only", base ++ "..." ++ head] : Except Fault String) =
      .error f) ∧
      (c.run ["diff", "--name-only", base, head] : Except Fault String) = .ok output

/-- The name is what stands on a line of the list between blanks. -/
def Lists (c : Client Id) (base head name : String) : Prop :=
  ∃ output, c.Prints base head output ∧ ∃ line ∈ Text.lines output,
    name = Text.strip line ∧ name ≠ ""

theorem prints_of_changedFiles {c : Client Id} {base head : String} {names : List String}
    (h : (c.changedFiles base head : Except Fault (List String)) = .ok names) :
    ∃ output, c.Prints base head output ∧ names = namesIn output := by
  rw [changedFiles] at h
  cases hfirst : (c.run ["diff", "--name-only", base ++ "..." ++ head] : Except Fault String) with
  | ok output =>
    simp only [bind, hfirst] at h
    cases h
    exact ⟨output, .inl hfirst, rfl⟩
  | error f =>
    simp only [bind, hfirst] at h
    obtain ⟨output, hsecond, rfl⟩ := Outcome.map_eq_ok_iff.mp h
    exact ⟨output, .inr ⟨⟨f, hfirst⟩, hsecond⟩, rfl⟩

theorem lists_of_mem {c : Client Id} {base head : String} {names : List String}
    (h : (c.changedFiles base head : Except Fault (List String)) = .ok names) {name : String}
    (hname : name ∈ names) : c.Lists base head name := by
  obtain ⟨output, hprints, rfl⟩ := prints_of_changedFiles h
  rw [namesIn, List.mem_filter, List.mem_map] at hname
  obtain ⟨⟨line, hline, rfl⟩, hne⟩ := hname
  exact ⟨output, hprints, line, hline, rfl, by simpa using hne⟩

end Git.Client

namespace Analysis

open Outcome

/-- A changed file is a name that git lists and that passes the filter. -/
theorem lists_of_mem_changedFiles {s : Setting} {h : Host} {analyzer : String}
    {changed : List String} (hchanged : s.changedFiles h analyzer = .ok changed) {name : String}
    (hname : name ∈ changed) :
    (s.client h).Lists s.versions.base s.versions.head name ∧ s.filter.passes name = true := by
  rw [Setting.changedFiles] at hchanged
  split at hchanged
  · rename_i names hnames
    cases hchanged
    obtain ⟨hmem, hpasses⟩ := List.mem_filter.mp hname
    exact ⟨Git.Client.lists_of_mem hnames hmem, hpasses⟩
  · cases hchanged

variable {s : Setting} {h : Host} {Source : String → Prop} {file : String} {files : List String}
  {found : List Impact}

theorem forall_mem_ite_nil {α : Type} {P : α → Prop} {l : List α} (hl : ∀ a ∈ l, P a) (c : Prop)
    [Decidable c] : ∀ a ∈ (if c then l else []), P a :=
  fun a ha => hl a (List.mem_ite_nil_right.mp ha).2

namespace GoService

theorem traced_dependencyImpacts (hfiles : ∀ file ∈ files, Source file) :
    ∀ i ∈ dependencyImpacts s files, i.Traced s.repo.name Source := by
  rw [dependencyImpacts, List.forall_mem_map]
  exact fun file hfile => Impact.traced_single (hfiles file (List.mem_of_mem_filter hfile)) ..

theorem traced_fileImpacts (hfile : Source file) (content diff : String) :
    ∀ i ∈ fileImpacts s file content diff, i.Traced s.repo.name Source := by
  simp only [fileImpacts, List.forall_mem_append, List.forall_mem_map]
  refine ⟨⟨⟨⟨⟨fun f _ => ?_, fun t _ => ?_⟩, fun i _ => ?_⟩, ?queue⟩, ?gateway⟩, ?environment⟩
  case queue | gateway | environment =>
    exact forall_mem_ite_nil (List.forall_mem_singleton.mpr (Impact.traced_single hfile ..)) _
  all_goals exact Impact.traced_single hfile ..

theorem fst_mem_of_readAll {contents : List (String × String)}
    (hcontents : readAll s h files = .ok contents) : ∀ entry ∈ contents, entry.1 ∈ files := by
  induction files generalizing contents with
  | nil =>
    cases hcontents
    exact List.forall_mem_nil _
  | cons file rest ih =>
    rw [readAll] at hcontents
    obtain ⟨content?, _, hcontents⟩ := bind_eq_ok_iff.mp hcontents
    obtain ⟨others, hothers, hcontents⟩ := bind_eq_ok_iff.mp hcontents
    cases hcontents
    rw [List.forall_mem_append, List.forall_mem_map]
    exact ⟨fun _ _ => List.mem_cons_self, fun entry hentry =>
      List.mem_cons_of_mem file (ih hothers entry hentry)⟩

theorem traced_impacts (hfiles : ∀ file ∈ files, Source file)
    (hfound : impacts s h files = .ok found) :
    Impact.Tidy found ∧ ∀ i ∈ found, i.Traced s.repo.name Source := by
  rw [impacts] at hfound
  obtain ⟨contents, hcontents, hfound⟩ := bind_eq_ok_iff.mp hfound
  cases hfound
  refine ⟨Impact.tidy_merge _, Impact.traced_merge ?_⟩
  rw [List.forall_mem_append, List.forall_mem_flatMap]
  refine ⟨traced_dependencyImpacts hfiles, fun entry hentry => traced_fileImpacts ?_ _ _⟩
  have hread := fst_mem_of_readAll hcontents entry hentry
  rw [mem_distinct] at hread
  exact hfiles _ (List.mem_of_mem_filter hread)

end GoService

namespace GraphqlApi

theorem traced_resolverImpacts (hfile : Source file) (diff : String) :
    ∀ i ∈ resolverImpacts s file diff, i.Traced s.repo.name Source := by
  rw [resolverImpacts, List.forall_mem_cons, List.forall_mem_map]
  exact ⟨Impact.traced_single hfile .., fun _ _ => Impact.traced_single hfile ..⟩

theorem traced_operationImpacts (hfile : Source file) (content : String) :
    ∀ i ∈ operationImpacts s file content, i.Traced s.repo.name Source := by
  rw [operationImpacts]
  split
  · exact List.forall_mem_nil _
  · split
    · exact List.forall_mem_singleton.mpr (Impact.traced_single hfile ..)
    · exact List.forall_mem_map.mpr fun _ _ => Impact.traced_single hfile ..

theorem traced_operationsIn (hfiles : ∀ file ∈ files, Source file)
    (hfound : operationsIn s h files = .ok found) :
    ∀ i ∈ found, i.Traced s.repo.name Source := by
  induction files generalizing found with
  | nil =>
    cases hfound
    exact List.forall_mem_nil _
  | cons file rest ih =>
    obtain ⟨hfile, hrest⟩ := List.forall_mem_cons.mp hfiles
    rw [operationsIn] at hfound
    split at hfound
    · exact ih hrest hfound
    · obtain ⟨content?, _, hfound⟩ := bind_eq_ok_iff.mp hfound
      obtain ⟨others, hothers, hfound⟩ := bind_eq_ok_iff.mp hfound
      cases hfound
      exact List.forall_mem_append.mpr ⟨traced_operationImpacts hfile _, ih hrest hothers⟩

theorem traced_ofSchema (hfiles : ∀ file ∈ files, Source file) (hdiff : Source "schema-diff")
    (schemaPath : String) : ∀ i ∈ ofSchema s h schemaPath files, i.Traced s.repo.name Source := by
  rw [ofSchema]
  split
  · rw [schemaFileImpacts, List.forall_mem_map]
    exact fun file hfile => Impact.traced_single (hfiles file (List.mem_of_mem_filter hfile)) ..
  · rw [schemaImpacts, List.forall_mem_map]
    exact fun _ _ => Impact.traced_single hdiff ..

theorem traced_impacts (hfiles : ∀ file ∈ files, Source file) (hdiff : Source "schema-diff")
    {schemaPath : String} (hfound : impacts s h schemaPath files = .ok found) :
    Impact.Tidy found ∧ ∀ i ∈ found, i.Traced s.repo.name Source := by
  have hkept : ∀ p : String → Bool, ∀ file ∈ files.filter p, Source file :=
    fun p file hfile => hfiles file (List.mem_of_mem_filter hfile)
  rw [impacts] at hfound
  split at hfound
  · cases hfound
    exact ⟨Impact.tidy_nil, List.forall_mem_nil _⟩
  · obtain ⟨operations, hoperations, hfound⟩ := bind_eq_ok_iff.mp hfound
    cases hfound
    refine ⟨Impact.tidy_merge _, Impact.traced_merge ?_⟩
    -- a file may be a schema, a resolver and a document at once: all three parts look at it
    rw [List.forall_mem_append, List.forall_mem_append, List.forall_mem_flatMap]
    exact ⟨⟨traced_ofSchema (hkept _) hdiff schemaPath,
      fun file hfile => traced_resolverImpacts (hkept _ file hfile) _⟩,
      traced_operationsIn (hkept _) hoperations⟩

end GraphqlApi

namespace AngularWorkspace

open Workspace (Project)

variable (p : Project)

theorem traced_sourceImpacts (hfile : Source file) :
    ∀ i ∈ sourceImpacts s p file, i.Traced s.repo.name Source := by
  simp only [sourceImpacts, List.forall_mem_append, List.forall_mem_flatMap, List.forall_mem_cons,
    List.forall_mem_map]
  exact ⟨fun _ _ => ⟨Impact.traced_single hfile .., fun _ _ => Impact.traced_single hfile ..⟩,
    fun _ _ => ⟨Impact.traced_single hfile .., fun _ _ => Impact.traced_single hfile ..⟩⟩

theorem traced_templateImpacts (hfile : Source file) :
    ∀ i ∈ templateImpacts s p file, i.Traced s.repo.name Source := by
  rw [templateImpacts]
  split
  · exact List.forall_mem_nil _
  · rw [List.forall_mem_cons, List.forall_mem_map]
    exact ⟨Impact.traced_single hfile .., fun _ _ => Impact.traced_single hfile ..⟩

theorem traced_styleImpacts (hfile : Source file) :
    ∀ i ∈ styleImpacts s p file, i.Traced s.repo.name Source := by
  rw [styleImpacts, List.forall_mem_append, List.forall_mem_map]
  exact ⟨fun _ _ => Impact.traced_single hfile ..,
    forall_mem_ite_nil (List.forall_mem_singleton.mpr (Impact.traced_single hfile ..)) _⟩

theorem traced_moduleImpacts (hfile : Source file) :
    ∀ i ∈ moduleImpacts s p file, i.Traced s.repo.name Source := by
  rw [moduleImpacts, List.forall_mem_flatMap]
  refine fun m _ => List.forall_mem_cons.mpr ⟨Impact.traced_single hfile .., fun i hi => ?_⟩
  obtain ⟨declared, _, hi⟩ := List.mem_filterMap.mp hi
  obtain ⟨c, _, rfl⟩ := Option.map_eq_some_iff.mp hi
  exact Impact.traced_single hfile ..

theorem traced_fileImpacts (hfile : Source file) :
    ∀ i ∈ fileImpacts s p file, i.Traced s.repo.name Source := by
  simp only [fileImpacts, List.forall_mem_append]
  exact ⟨⟨⟨forall_mem_ite_nil (traced_sourceImpacts p hfile) _,
    forall_mem_ite_nil (traced_templateImpacts p hfile) _⟩,
    forall_mem_ite_nil (traced_styleImpacts p hfile) _⟩,
    forall_mem_ite_nil (traced_moduleImpacts p hfile) _⟩

theorem traced_impacts (hfiles : ∀ file ∈ files, Source file) :
    Impact.Tidy (impacts s p files) ∧ ∀ i ∈ impacts s p files, i.Traced s.repo.name Source :=
  ⟨Impact.tidy_merge _, Impact.traced_merge
    (List.forall_mem_flatMap.mpr fun file hfile => traced_fileImpacts p (hfiles file hfile))⟩

end AngularWorkspace

/-- The name is a changed file that the setting lets through. -/
def Setting.Changed (s : Setting) (h : Host) (name : String) : Prop :=
  (s.client h).Lists s.versions.base s.versions.head name ∧ s.filter.passes name = true

/-- What the analyzer of a kind may give as the source of a reason. -/
def Setting.IsSource (s : Setting) (h : Host) (kind : AnalyzerKind) (source : String) : Prop :=
  s.Changed h source ∨ kind = .graphqlInspector ∧ source = "schema-diff"

theorem isSource_of_mem {kind : AnalyzerKind} {analyzer : String}
    (hchanged : s.changedFiles h analyzer = .ok files) :
    ∀ file ∈ files, s.IsSource h kind file :=
  fun _ hfile => .inl (lists_of_mem_changedFiles hchanged hfile)

section BuiltIn

variable [Outline.ScriptParser]

theorem traced_run {kind : AnalyzerKind} {schemaPath : String}
    (hrun : (analyzerFor s schemaPath kind).run h = .ok found) :
    Impact.Tidy found ∧ ∀ i ∈ found, i.Traced s.repo.name (s.IsSource h kind) := by
  have hgo : GoService.analyze s h = .ok found →
      Impact.Tidy found ∧ ∀ i ∈ found, i.Traced s.repo.name (s.IsSource h kind) := by
    intro hrun
    obtain ⟨changed, hchanged, hfound⟩ := bind_eq_ok_iff.mp hrun
    exact GoService.traced_impacts (isSource_of_mem hchanged) hfound
  cases kind with
  | graphqlInspector =>
    obtain ⟨changed, hchanged, hfound⟩ := bind_eq_ok_iff.mp hrun
    exact GraphqlApi.traced_impacts (isSource_of_mem hchanged) (.inr ⟨rfl, rfl⟩) hfound
  | tsMorph =>
    obtain ⟨changed, hchanged, hfound⟩ := bind_eq_ok_iff.mp hrun
    split at hfound
    · cases hfound
      exact ⟨Impact.tidy_nil, List.forall_mem_nil _⟩
    · obtain ⟨project, _, hfound⟩ := bind_eq_ok_iff.mp hfound
      cases hfound
      exact AngularWorkspace.traced_impacts project (isSource_of_mem hchanged)
  | goAst => exact hgo hrun
  | nx => exact hgo hrun
  | madge => exact hgo hrun

theorem classFor_of_builtIn {kind : AnalyzerKind} {c : AnalyzerClass} (h : (kind, c) ∈ builtIn) :
    c = classFor kind := by
  simp only [builtIn, List.mem_cons, List.not_mem_nil, or_false, Prod.mk.injEq] at h
  rcases h with ⟨rfl, rfl⟩ | ⟨rfl, rfl⟩ | ⟨rfl, rfl⟩ <;> rfl

/-- Whenever a built-in analyzer answers, it reports one impact for each component and file, on its
own repository, for at least one reason and each kind and source of reasons once. Every source
stands between blanks on a line of git's list and passes the filter, unless the reason comes from
the comparison of two schemas. -/
theorem run_traced {kind : AnalyzerKind} {c : AnalyzerClass} (hclass : (kind, c) ∈ builtIn)
    {h h' : Host} {repo : Repository} {versions : Versions} {analyzer : Analyzer}
    (hmade : c.make h repo versions = .ok analyzer) {impacts : List Impact}
    (hrun : analyzer.run h' = .ok impacts) :
    ∃ filter, PathFilter.make repo.includePaths repo.excludePaths = .ok filter ∧
      Impact.Tidy impacts ∧
      ∀ i ∈ impacts, i.Traced repo.name fun source =>
        (h'.client repo.path).Lists versions.base versions.head source ∧
            filter.passes source = true ∨
          kind = .graphqlInspector ∧ source = "schema-diff" := by
  rw [classFor_of_builtIn hclass] at hmade
  obtain ⟨s, schemaPath, hs, rfl⟩ := eq_analyzerFor_of_make hmade
  obtain ⟨filter, hfilter, rfl⟩ := Setting.exists_of_make hs
  exact ⟨filter, hfilter, traced_run hrun⟩

end BuiltIn

def blankRepository : Repository :=
  ⟨"api", ⟨"/", ["api"]⟩, .go, [.goAst], none, some ["?go.mod"]⟩

def blankHost : Host :=
  ⟨⟨[(["api"], .directory)], []⟩, fun _ => Git.Snapshot.answer ⟨.ok [" go.mod"], [], []⟩⟩

/-- The only name that git lists is excluded, and still it leads to an impact: without its blank it
is another name. -/
theorem run_traced_blank :
    (AnalyzerKind.goAst, GoService.analyzers) ∈ builtIn ∧
      ∃ analyzer impacts filter,
        GoService.analyzers.make blankHost blankRepository ⟨"main", "HEAD"⟩ = .ok analyzer ∧
        analyzer.run blankHost = .ok impacts ∧
        PathFilter.make none (some ["?go.mod"]) = .ok filter ∧
        filter.passes " go.mod" = false ∧
        impacts.map (fun i => i.reasons.map (·.source)) = [["go.mod"]] ∧
        ∀ i ∈ impacts, ∀ reason ∈ i.reasons,
          (blankHost.client blankRepository.path).Lists "main" "HEAD" reason.source := by
  have hclass : (AnalyzerKind.goAst, GoService.analyzers) ∈ builtIn := List.mem_cons_self
  have hfound : (Setting.make blankRepository ⟨"main", "HEAD"⟩).toOption.map (fun s =>
      (s.filter.passes " go.mod", (GoService.analyze s blankHost).toOption.map fun impacts =>
        impacts.map fun i => i.reasons.map (·.source))) = some (false, some [["go.mod"]]) := by
    decide +kernel
  obtain ⟨s, hs, hfound⟩ := Option.map_eq_some_iff.mp hfound
  obtain ⟨hexcluded, hfound⟩ := Prod.mk.inj hfound
  obtain ⟨impacts, hrun, hsources⟩ := Option.map_eq_some_iff.mp hfound
  rw [← eq_ok_iff_toOption] at hs hrun
  have hmade : GoService.analyzers.make blankHost blankRepository ⟨"main", "HEAD"⟩ =
      .ok ⟨GoService.name, none, GoService.analyze s⟩ :=
    bind_eq_ok_iff.mpr ⟨s, hs, rfl⟩
  obtain ⟨filter, hfilter, _, htraced⟩ := run_traced hclass hmade hrun
  obtain ⟨filter', hfilter', rfl⟩ := Setting.exists_of_make hs
  obtain rfl := Except.ok.inj (hfilter.symm.trans hfilter')
  refine ⟨hclass, _, impacts, filter, hmade, hrun, hfilter, hexcluded, hsources,
    fun i hi reason hreason => ?_⟩
  rcases (htraced i hi).source reason hreason with hlisted | ⟨hkind, _⟩
  · exact hlisted.1
  · cases hkind

end Analysis

end Ripple
