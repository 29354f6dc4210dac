import Ripple.Config.Document
import Ripple.Outline.ScriptFile
import Ripple.Proofs.Accounting
import Ripple.Proofs.Setup
import Ripple.Regex.Names

/-! # Faults stay with their repository

No built-in analyzer fails beyond recovery, and what it finds depends on the files and on the git of
its own repository. So whatever goes wrong while an analyzer runs is an entry of its repository and
touches no other. What goes wrong before that is not confined: a line of a filter that is refused,
or a path that cannot be looked up, ends the whole run.
-/
namespace Ripple.Analysis

open Outcome

theorem Setting.fileText_eq (s : Setting) (h : Host) (file : String) :
    s.fileText h file = ((s.client h).fileText h.files file).mapError .nameTooLong := by
  unfold Setting.fileText
  cases (s.client h).fileText h.files file <;> rfl

section Recovery

variable {α β : Type} {x : Except Fault α}

/-- An analysis does not fail beyond recovery. -/
def Recovers (x : Except Fault α) : Prop :=
  ∀ message analyzer, x ≠ .error (.gaveUp message analyzer false)

theorem Recovers.bind {f : α → Except Fault β} (hx : Recovers x) (hf : ∀ a, Recovers (f a)) :
    Recovers (x >>= f) := by
  intro message analyzer h
  cases x with
  | error fault =>
    cases h
    exact hx message analyzer rfl
  | ok a => exact hf a message analyzer h

theorem recovers_pure (a : α) : Recovers (pure a) := by
  intro message analyzer h
  cases h

theorem recovers_nameTooLong (x : Except NameTooLong α) :
    Recovers (x.mapError Fault.nameTooLong) := by
  intro message analyzer h
  cases x <;> cases h

variable (s : Setting) (h : Host)

theorem recovers_changedFiles (analyzer : String) : Recovers (s.changedFiles h analyzer) := by
  rw [Setting.changedFiles]
  split
  · exact recovers_pure _
  · intro message name hfault
    cases hfault

theorem recovers_fileText (file : String) : Recovers (s.fileText h file) := by
  rw [Setting.fileText_eq]
  exact recovers_nameTooLong _

theorem recovers_readAll (files : List String) : Recovers (GoService.readAll s h files) := by
  induction files with
  | nil => exact recovers_pure []
  | cons file rest ih =>
    exact (recovers_fileText s h file).bind fun _ => ih.bind fun _ => recovers_pure _

theorem recovers_operationsIn (files : List String) :
    Recovers (GraphqlApi.operationsIn s h files) := by
  induction files with
  | nil => exact recovers_pure []
  | cons file rest ih =>
    rw [GraphqlApi.operationsIn]
    split
    · exact ih
    · exact (recovers_fileText s h file).bind fun _ => ih.bind fun _ => recovers_pure _

variable [Outline.ScriptParser]

/-- Whatever a built-in analyzer meets, the run can go on. -/
theorem recovers_run (schemaPath : String) (kind : AnalyzerKind) :
    Recovers ((analyzerFor s schemaPath kind).run h) := by
  have hgo : Recovers (GoService.analyze s h) :=
    (recovers_changedFiles s h _).bind fun _ =>
      (recovers_readAll s h _).bind fun _ => recovers_pure _
  cases kind with
  | graphqlInspector =>
    refine (recovers_changedFiles s h _).bind fun changed => ?_
    rw [GraphqlApi.impacts]
    split
    · exact recovers_pure []
    · exact (recovers_operationsIn s h _).bind fun _ => recovers_pure _
  | tsMorph =>
    refine (recovers_changedFiles s h _).bind fun changed => ?_
    split
    · exact recovers_pure []
    · exact (recovers_nameTooLong _).bind fun _ => recovers_pure _
  | goAst => exact hgo
  | nx => exact hgo
  | madge => exact hgo

end Recovery

/-- The machines have the same files, and git says the same in the directory. -/
structure Host.SameView (h h' : Host) (directory : Path) : Prop where
  files : h'.files = h.files
  git : h'.git directory = h.git directory

section View

variable {s : Setting} {h h' : Host}

theorem Host.SameView.client_eq {directory : Path} (hview : h.SameView h' directory) :
    h'.client directory = h.client directory := by
  simp only [Host.client, hview.files, hview.git]

theorem changedFiles_congr (hview : h.SameView h' s.repo.path) (analyzer : String) :
    s.changedFiles h' analyzer = s.changedFiles h analyzer := by
  simp only [Setting.changedFiles, Setting.client, hview.client_eq]

theorem fileDiff_congr (hview : h.SameView h' s.repo.path) (file : String) :
    s.fileDiff h' file = s.fileDiff h file := by
  simp only [Setting.fileDiff, Setting.client, hview.client_eq]

theorem fileText_congr (hview : h.SameView h' s.repo.path) (file : String) :
    s.fileText h' file = s.fileText h file := by
  simp only [Setting.fileText_eq, Setting.client, hview.client_eq, hview.files]

theorem readAll_congr (hview : h.SameView h' s.repo.path) (files : List String) :
    GoService.readAll s h' files = GoService.readAll s h files := by
  induction files with
  | nil => rfl
  | cons file rest ih => rw [GoService.readAll, GoService.readAll, fileText_congr hview, ih]

theorem operationsIn_congr (hview : h.SameView h' s.repo.path) (files : List String) :
    GraphqlApi.operationsIn s h' files = GraphqlApi.operationsIn s h files := by
  induction files with
  | nil => rfl
  | cons file rest ih =>
    rw [GraphqlApi.operationsIn, GraphqlApi.operationsIn, fileText_congr hview, ih]

theorem schemaVersion_congr (hview : h.SameView h' s.repo.path) (schemaPath version : String) :
    GraphqlApi.schemaVersion s h' schemaPath version =
      GraphqlApi.schemaVersion s h schemaPath version := by
  simp only [GraphqlApi.schemaVersion, Setting.client, hview.client_eq]

theorem schemaChanges_congr (hview : h.SameView h' s.repo.path) (schemaPath : String) :
    GraphqlApi.schemaChanges s h' schemaPath = GraphqlApi.schemaChanges s h schemaPath := by
  rw [GraphqlApi.schemaChanges, GraphqlApi.schemaChanges, schemaVersion_congr hview,
    schemaVersion_congr hview]

variable [Outline.ScriptParser]

/-- An analyzer finds the same wherever it sees the same. -/
theorem run_congr (hview : h.SameView h' s.repo.path) (schemaPath : String) (kind : AnalyzerKind) :
    (analyzerFor s schemaPath kind).run h' = (analyzerFor s schemaPath kind).run h := by
  have hgo : GoService.analyze s h' = GoService.analyze s h := by
    simp only [GoService.analyze, GoService.impacts, changedFiles_congr hview,
      readAll_congr hview, fileDiff_congr hview]
  cases kind with
  | graphqlInspector =>
    simp only [analyzerFor, GraphqlApi.analyze, GraphqlApi.impacts, GraphqlApi.ofSchema,
      changedFiles_congr hview, operationsIn_congr hview, fileDiff_congr hview,
      schemaChanges_congr hview]
  | tsMorph =>
    simp only [analyzerFor, AngularWorkspace.analyze, changedFiles_congr hview, hview.files]
  | goAst => exact hgo
  | nx => exact hgo
  | madge => exact hgo

end View

/-- The repository's path cannot be looked up, or it is there, is served by one of the analyzers
that it asks for, and has a line in its filter that is refused. -/
def Blocks (h : Host) (repo : Repository) : Prop :=
  (∃ f, h.files.exists? repo.path = .error f) ∨
    h.files.exists? repo.path = .ok true ∧ (∃ kind ∈ repo.analyzers, IsServed repo kind) ∧
      ∃ line ∈ repo.filterLines, Ignore.Refused line

namespace Run

section Standard

variable [Outline.ScriptParser] {r : Run} {repo : Repository}

theorem exists_analyzerFor (hregistry : r.registry = .standard) {kind : AnalyzerKind}
    {answer : Except Fault (List Impact)} (ha : r.answer? repo kind = some answer) :
    ∃ s schemaPath, answer = (analyzerFor s schemaPath kind).run r.host := by
  rw [answer?, hregistry] at ha
  split at ha
  · rename_i analyzer hmade
    obtain ⟨s, schemaPath, _, rfl⟩ := eq_analyzerFor_of_create hmade
    exact ⟨s, schemaPath, (Option.some.inj ha).symm⟩
  · cases ha

theorem stopsAt_iff (hregistry : r.registry = .standard)
    (hthere : r.host.files.exists? repo.path = .ok true) (kind : AnalyzerKind) :
    r.StopsAt repo kind ↔
      IsServed repo kind ∧ ∃ line ∈ repo.filterLines, Ignore.Refused line := by
  rw [StopsAt, hregistry, create_fails_iff hthere, or_iff_left]
  rintro ⟨message, name, ha⟩
  obtain ⟨s, schemaPath, hanswer⟩ := exists_analyzerFor hregistry ha
  exact recovers_run s r.host schemaPath kind message name hanswer.symm

theorem stops_iff (hregistry : r.registry = .standard) : r.Stops repo ↔ Blocks r.host repo := by
  rw [Stops, Blocks]
  refine or_congr_right (and_congr_right fun hthere => ?_)
  simp only [stopsAt_iff hregistry hthere]
  constructor
  · rintro ⟨kind, hkind, hserved, hline⟩
    exact ⟨⟨kind, hkind, hserved⟩, hline⟩
  · rintro ⟨⟨kind, hkind, hserved⟩, hline⟩
    exact ⟨kind, hkind, hserved, hline⟩

theorem answer?_congr {r' : Run} (hregistry : r.registry = .standard)
    (hregistry' : r'.registry = .standard) (hversions : r'.versions = r.versions)
    (hview : r.host.SameView r'.host repo.path) (kind : AnalyzerKind) :
    r'.answer? repo kind = r.answer? repo kind := by
  rw [answer?, answer?, hregistry, hregistry', hversions, create_congr hview.files]
  cases hmade : Registry.standard.create kind.text r.host repo r.versions with
  | error f => rfl
  | ok made =>
    cases made with
    | none => rfl
    | some analyzer =>
      obtain ⟨s, schemaPath, rfl, rfl⟩ := eq_analyzerFor_of_create hmade
      simp only [run_congr hview]

theorem account_congr {r' : Run} (hregistry : r.registry = .standard)
    (hregistry' : r'.registry = .standard) (hversions : r'.versions = r.versions)
    (hview : r.host.SameView r'.host repo.path) : r'.account repo = r.account repo := by
  rw [account, account, hview.files]
  split
  · have hanswer := answer?_congr hregistry hregistry' hversions hview
    have himpacts : r'.impactsOf repo = r.impactsOf repo := by
      funext kind
      rw [impactsOf, impactsOf, hanswer]
    have herrors : r'.errorsOf repo = r.errorsOf repo := by
      funext kind
      rw [errorsOf, errorsOf, hanswer]
    rw [himpacts, herrors]
  · rfl

variable [Regex.Names]

/-- With the built-in analyzers and without oversized globs, a run ends with a result if and only if
no repository blocks it. Every failure of an analyzer is then an entry of its repository, whose
account depends on nothing but the files and what git says in that repository. -/
theorem resultUnder_confines (r : Run) (hregistry : r.registry = .standard) (c : Config)
    (hglobs : ∀ relation ∈ c.relations, ∀ p ∈ relation.patterns.getD [], ¬ Glob.Oversized p)
    (schedule : List Nat) :
    ((∃ result, r.resultUnder schedule c = .ok result) ↔ ∀ repo ∈ c.repos, ¬ Blocks r.host repo) ∧
    (∀ result, r.resultUnder schedule c = .ok result → result.repos = c.repos.map r.account) ∧
    ∀ repo,
      (r.host.files.exists? repo.path = .ok false → r.account repo = missingResult repo) ∧
      (r.host.files.exists? repo.path = .ok true → ∀ entry, entry ∈ (r.account repo).errors ↔
        ∃ kind ∈ repo.analyzers, ∃ f, r.answer? repo kind = some (.error f) ∧
          entry = kind.text ++ ": " ++ f.message) ∧
      ∀ r' : Run, r'.registry = .standard → r'.versions = r.versions →
        r.host.SameView r'.host repo.path → r'.account repo = r.account repo := by
  refine ⟨⟨?_, ?_⟩, ?_, fun repo => ⟨r.account_of_missing, r.mem_errors_account, ?_⟩⟩
  · rintro ⟨result, h⟩ repo hrepo hblocks
    exact r.not_stops_of_resultUnder h repo hrepo ((stops_iff hregistry).mpr hblocks)
  · intro hfree
    refine r.resultUnder_eq_ok (fun repo hrepo hs => ?_) (fun relation hrelation => ?_) schedule
    · exact hfree repo hrepo ((stops_iff hregistry).mp hs)
    · exact Correlation.not_stalls_of_sized _ _ (hglobs relation hrelation)
  · exact fun result h => (r.accounts_of_resultUnder h).repos
  · exact fun r' hregistry' hversions hview => account_congr hregistry hregistry' hversions hview

end Standard

/-- A document with one repository, which wants to see only what lies at the line `a\`. -/
def backslashDocument : List (Value × Value) :=
  [(.text "repos", .list [.record [("name", .text "api"), ("path", .text "/api"),
    ("type", .text "go"), ("analyzers", .list [.text "go-ast"]),
    ("include_paths", .list [.text "a\\"])]])]

def backslashConfig : Config where
  repos := [⟨"api", ⟨"/", ["api"]⟩, .go, [.goAst], some ["a\\"], none⟩]
  relations := []
  output := .standard
  logging := .standard

def backslashRun : Run where
  registry := .standard
  matchers := .standard
  host := ⟨⟨[(["api"], .directory)], []⟩, fun _ _ => .hung⟩
  versions := ⟨"main", "HEAD"⟩
  pullRequest := none
  now := ⟨⟨2024, 1, 2⟩, 0, 0, 0, 0, none⟩

/-- The document is accepted, and no run of it ends with a result. -/
theorem resultUnder_confines_backslash :
    Config.check ⟨"/", []⟩ backslashDocument = .valid backslashConfig ∧
      ∀ schedule, ¬ ∃ result, backslashRun.resultUnder schedule backslashConfig = .ok result := by
  refine ⟨by decide +kernel, fun schedule h => ?_⟩
  refine ((resultUnder_confines backslashRun rfl backslashConfig (List.forall_mem_nil _)
    schedule).1.mp h) _ (List.mem_singleton_self _)
    (.inr ⟨by decide +kernel, ⟨.goAst, by decide, trivial⟩, ?_⟩)
  exact ⟨"a\\", by decide +kernel, .invalid "a\\", by decide +kernel⟩

end Run

end Ripple.Analysis
