import Ripple.Analysis.Registry
import Ripple.Proofs.Lookup
import Ripple.Proofs.Outcome

/-! # Making the built-in analyzers

A repository gives its analyzers a filter of paths, and the analyzer of GraphQL services looks for a
schema below the repository. Where the repository is there the search can always be made. So a
built-in analyzer fails to be made exactly if a line of the filter is refused.
-/
namespace Ripple

/-- The line is no ignore pattern. -/
def Ignore.Refused (line : String) : Prop := ∃ f, Pattern.parse line = .error f

def Repository.filterLines (repo : Repository) : List String :=
  repo.includePaths.getD [] ++ repo.excludePaths.getD []

namespace PathFilter

open Outcome

theorem parseAll_fails_iff (lines : List String) :
    (∃ f, Ignore.parseAll lines = .error f) ↔ ∃ line ∈ lines, Ignore.Refused line := by
  simp only [Ignore.Refused, ← mapM_fails_iff, Ignore.parseAll]
  cases lines.mapM Ignore.Pattern.parse <;> simp [Except.map]

theorem patterns?_fails_iff (lines : Option (List String)) :
    (∃ f, patterns? lines = .error f) ↔ ∃ line ∈ lines.getD [], Ignore.Refused line := by
  cases lines with
  | none => simp [patterns?]
  | some lines =>
    cases lines with
    | nil => simp [patterns?]
    | cons line rest =>
      rw [Option.getD_some, ← parseAll_fails_iff, patterns?]
      · cases Ignore.parseAll (line :: rest) <;> simp [Except.map]
      · simp

theorem make_fails_iff (includes excludes : Option (List String)) :
    (∃ f, make includes excludes = .error f) ↔
      ∃ line ∈ includes.getD [] ++ excludes.getD [], Ignore.Refused line := by
  simp only [List.mem_append, or_and_right, exists_or, ← patterns?_fails_iff]
  rw [make]
  cases patterns? includes with
  | error f => simp [bind, Except.bind]
  | ok includes =>
    cases patterns? excludes <;> simp [bind, Except.bind, pure, Except.pure]

end PathFilter

namespace Analysis

open Outcome

theorem Setting.make_fails_iff (repo : Repository) (versions : Versions) :
    (∃ f, Setting.make repo versions = .error f) ↔
      ∃ line ∈ repo.filterLines, Ignore.Refused line := by
  rw [Repository.filterLines, ← PathFilter.make_fails_iff, Setting.make]
  cases PathFilter.make repo.includePaths repo.excludePaths <;> simp

theorem Setting.exists_of_make {repo : Repository} {versions : Versions} {s : Setting}
    (h : Setting.make repo versions = .ok s) :
    ∃ filter, PathFilter.make repo.includePaths repo.excludePaths = .ok filter ∧
      s = ⟨repo, versions, filter⟩ := by
  rw [Setting.make] at h
  split at h
  · rename_i filter hfilter
    exact ⟨filter, hfilter, (Except.ok.inj h).symm⟩
  · cases h

namespace GraphqlApi

/-- In a repository that is there, the search for a schema comes to an end. -/
theorem exists_findSchema {files : FileTree} {directory : Path} {candidates : List String}
    (hthere : files.exists? directory = .ok true)
    (hnames : ∀ candidate ∈ candidates, (Path.ofString candidate).isAbsolute = false ∧
      ∀ name ∈ (Path.ofString candidate).names, name.utf8ByteSize ≤ FileTree.nameLimit) :
    ∃ schemaPath, findSchema files directory candidates = .ok schemaPath := by
  induction candidates with
  | nil => exact ⟨_, rfl⟩
  | cons candidate rest ih =>
    obtain ⟨hrelative, hshort⟩ := hnames candidate List.mem_cons_self
    obtain ⟨there, hcandidate⟩ := files.exists?_join hthere hrelative hshort
    rw [findSchema, hcandidate]
    cases there with
    | true => exact ⟨candidate, rfl⟩
    | false => exact ih fun other hother => hnames other (List.mem_cons_of_mem candidate hother)

theorem short_schemaCandidates : ∀ candidate ∈ schemaCandidates,
    (Path.ofString candidate).isAbsolute = false ∧
      ∀ name ∈ (Path.ofString candidate).names, name.utf8ByteSize ≤ FileTree.nameLimit := by
  decide +kernel

end GraphqlApi

/-- The built-in registry has an analyzer of the kind for the repository. -/
def IsServed (repo : Repository) : AnalyzerKind → Prop
  | .goAst | .graphqlInspector => True
  | .tsMorph => repo.kind = .angular
  | .nx | .madge => False

variable [Outline.ScriptParser]

def classFor : AnalyzerKind → AnalyzerClass
  | .graphqlInspector => GraphqlApi.analyzers
  | .tsMorph => AngularWorkspace.analyzers
  | _ => GoService.analyzers

def analyzerFor (s : Setting) (schemaPath : String) : AnalyzerKind → Analyzer
  | .graphqlInspector => ⟨GraphqlApi.name, some schemaPath, GraphqlApi.analyze s schemaPath⟩
  | .tsMorph => ⟨AngularWorkspace.name, none, AngularWorkspace.analyze s⟩
  | _ => ⟨GoService.name, none, GoService.analyze s⟩

variable {h : Host} {repo : Repository} {versions : Versions} {kind : AnalyzerKind}

theorem create_of_served (hserved : IsServed repo kind) :
    Registry.standard.create kind.text h repo versions =
      ((classFor kind).make h repo versions).map some := by
  have hhandles : (classFor kind).handles repo = true := by
    cases kind with
    | tsMorph => exact beq_iff_eq.mpr hserved
    | _ => rfl
  have hlookup : Registry.standard.lookup kind.text = some (classFor kind) := by
    cases kind with
    | nx => exact hserved.elim
    | madge => exact hserved.elim
    | _ => rfl
  rw [Registry.create, hlookup]
  exact if_pos hhandles

theorem create_of_not_served (hserved : ¬ IsServed repo kind) :
    Registry.standard.create kind.text h repo versions = .ok none := by
  cases kind with
  | goAst => exact absurd trivial hserved
  | graphqlInspector => exact absurd trivial hserved
  | tsMorph =>
    have hhandles : ¬ AngularWorkspace.analyzers.handles repo = true := fun hangular =>
      hserved (beq_iff_eq.mp hangular)
    exact if_neg hhandles
  | nx => rfl
  | madge => rfl

theorem make_of_refused {f : SetupFault} (hrefused : Setting.make repo versions = .error f) :
    (classFor kind).make h repo versions = .error f := by
  cases kind <;> simp [classFor, GoService.analyzers, GraphqlApi.analyzers,
    AngularWorkspace.analyzers, hrefused, bind, Except.bind]

theorem make_of_setting {s : Setting} (hthere : h.files.exists? repo.path = .ok true)
    (hs : Setting.make repo versions = .ok s) (kind : AnalyzerKind) :
    ∃ schemaPath, (classFor kind).make h repo versions = .ok (analyzerFor s schemaPath kind) := by
  obtain ⟨schemaPath, hfind⟩ :=
    GraphqlApi.exists_findSchema hthere GraphqlApi.short_schemaCandidates
  refine ⟨schemaPath, ?_⟩
  cases kind <;> simp [classFor, analyzerFor, GoService.analyzers, GraphqlApi.analyzers,
    AngularWorkspace.analyzers, hs, hfind, bind, Except.bind, pure, Except.pure, Except.mapError]

/-- Where the repository is there, an analyzer that serves it fails to be made if and only if one of
the lines of its filter is refused. -/
theorem create_fails_iff (hthere : h.files.exists? repo.path = .ok true) :
    (∃ f, Registry.standard.create kind.text h repo versions = .error f) ↔
      IsServed repo kind ∧ ∃ line ∈ repo.filterLines, Ignore.Refused line := by
  rw [← Setting.make_fails_iff repo versions]
  by_cases hserved : IsServed repo kind
  · rw [create_of_served hserved]
    cases hs : Setting.make repo versions with
    | error f =>
      rw [make_of_refused hs]
      simp [hserved, Except.map]
    | ok s =>
      obtain ⟨schemaPath, hmade⟩ := make_of_setting hthere hs kind
      rw [hmade]
      simp [Except.map]
  · rw [create_of_not_served hserved]
    simp [hserved]

theorem create_congr {h' : Host} (hfiles : h'.files = h.files) :
    Registry.standard.create kind.text h' repo versions =
      Registry.standard.create kind.text h repo versions := by
  by_cases hserved : IsServed repo kind
  · rw [create_of_served hserved, create_of_served hserved]
    cases kind with
    | graphqlInspector => simp only [classFor, GraphqlApi.analyzers, hfiles]
    | _ => rfl
  · rw [create_of_not_served hserved, create_of_not_served hserved]

theorem eq_analyzerFor_of_make {analyzer : Analyzer}
    (hmade : (classFor kind).make h repo versions = .ok analyzer) :
    ∃ s schemaPath, Setting.make repo versions = .ok s ∧
      analyzer = analyzerFor s schemaPath kind := by
  have hgo : GoService.analyzers.make h repo versions = .ok analyzer →
      ∃ s, Setting.make repo versions = .ok s ∧ analyzer = analyzerFor s "" .goAst := by
    intro hmade
    obtain ⟨s, hs, hmade⟩ := bind_eq_ok_iff.mp hmade
    exact ⟨s, hs, (Except.ok.inj hmade).symm⟩
  cases kind with
  | graphqlInspector =>
    obtain ⟨s, hs, hmade⟩ := bind_eq_ok_iff.mp hmade
    obtain ⟨schemaPath, _, hmade⟩ := bind_eq_ok_iff.mp hmade
    exact ⟨s, schemaPath, hs, (Except.ok.inj hmade).symm⟩
  | tsMorph =>
    obtain ⟨s, hs, hmade⟩ := bind_eq_ok_iff.mp hmade
    exact ⟨s, "", hs, (Except.ok.inj hmade).symm⟩
  | _ => exact (hgo hmade).imp fun s hs => ⟨"", hs⟩

/-- What the registry makes is the analyzer of the kind in the repository's setting. -/
theorem eq_analyzerFor_of_create {analyzer : Analyzer}
    (hmade : Registry.standard.create kind.text h repo versions = .ok (some analyzer)) :
    ∃ s schemaPath, s.repo = repo ∧ analyzer = analyzerFor s schemaPath kind := by
  by_cases hserved : IsServed repo kind
  · rw [create_of_served hserved] at hmade
    obtain ⟨made, hmade, hsome⟩ := map_eq_ok_iff.mp hmade
    cases hsome
    obtain ⟨s, schemaPath, hs, rfl⟩ := eq_analyzerFor_of_make hmade
    obtain ⟨filter, _, rfl⟩ := Setting.exists_of_make hs
    exact ⟨_, schemaPath, rfl, rfl⟩
  · rw [create_of_not_served hserved] at hmade
    cases hmade

end Analysis

end Ripple
