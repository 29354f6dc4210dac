import Mathlib.Algebra.BigOperators.Group.List.Basic
import Mathlib.Algebra.Ring.Int.Defs
import Ripple.Proofs.Correlation
import Ripple.Proofs.Interleaving

/-! # The accounts of a run

Every repository of the configuration has its account: the merged impacts of the analyzers that
answered and an entry for each analyzer that failed, in the order in which the repository asks for
them. A run that ends with a result gives exactly these accounts and their totals. It ends with a
fault if and only if some analysis stops it or the globs of some relation stall.
-/
namespace Ripple.Analysis

open Outcome

namespace Run

variable (r : Run) (repo : Repository)

/-- What the analyzer of a kind answers. Where no analyzer is made there is no answer. -/
def answer? (kind : AnalyzerKind) : Option (Except Fault (List Impact)) :=
  match r.registry.create kind.text r.host repo r.versions with
  | .ok (some analyzer) => some (analyzer.run r.host)
  | _ => none

def impactsOf (kind : AnalyzerKind) : List Impact :=
  match r.answer? repo kind with
  | some (.ok impacts) => impacts
  | _ => []

def errorsOf (kind : AnalyzerKind) : List String :=
  match r.answer? repo kind with
  | some (.error f) => [kind.text ++ ": " ++ f.message]
  | _ => []

/-- The analyzer of a kind cannot be made, or it fails beyond recovery. -/
def StopsAt (kind : AnalyzerKind) : Prop :=
  (∃ f, r.registry.create kind.text r.host repo r.versions = .error f) ∨
    ∃ message analyzer, r.answer? repo kind = some (.error (.gaveUp message analyzer false))

/-- The repository cannot be looked up, or it is there and one of its analyzers stops. -/
def Stops : Prop :=
  (∃ f, r.host.files.exists? repo.path = .error f) ∨
    r.host.files.exists? repo.path = .ok true ∧ ∃ kind ∈ repo.analyzers, r.StopsAt repo kind

/-- The account of a repository. -/
def account : RepoResult :=
  match r.host.files.exists? repo.path with
  | .ok true =>
    let merged := Impact.merge (repo.analyzers.flatMap (r.impactsOf repo))
    { name := repo.name
      changedFiles := (merged.map (·.file)).toFinset.card
      impacts := merged
      errors := repo.analyzers.flatMap (r.errorsOf repo) }
  | _ =>
    { name := repo.name
      changedFiles := 0
      impacts := []
      errors := ["Repository path not found: " ++ repo.path.toString] }

theorem name_account : (r.account repo).name = repo.name := by
  rw [account]
  split <;> rfl

def found (repos : List Repository) : List RepoImpacts :=
  repos.map fun repo => ⟨repo.name, (r.account repo).impacts⟩

theorem map_account (repos : List Repository) :
    (repos.map r.account).map (fun x => ⟨x.name, x.impacts⟩) = r.found repos := by
  rw [List.map_map, found]
  apply List.map_congr_left
  intro repo _
  rw [Function.comp_apply, name_account]

/-- The result gives the accounts of all repositories, their totals and what relates them. -/
structure Accounts [Regex.Names] (c : Config) (result : Result) : Prop where
  repos : result.repos = c.repos.map r.account
  totalChangedFiles :
    result.summary.totalChangedFiles = (result.repos.map (·.changedFiles)).sum
  totalImpactedComponents :
    result.summary.totalImpactedComponents =
      (result.repos.map fun x => (x.impacts.length : Int)).sum
  rows : result.summary.repos = result.repos.map fun x => ⟨x.name, x.changedFiles, x.impacts.length⟩
  hasBreakingChanges : result.summary.hasBreakingChanges = true ↔
    ∃ x ∈ result.repos, ∃ i ∈ x.impacts, ∃ reason ∈ i.reasons,
      reason.kind = .schema ∨ Text.has (Text.lower reason.description) "breaking" = true
  crossImpacts :
    Correlation.Answers r.matchers (r.found c.repos) c.relations result.crossImpacts

variable {repo}

theorem account_of_missing (hmissing : r.host.files.exists? repo.path = .ok false) :
    r.account repo = missingResult repo := by
  rw [account, hmissing]
  rfl

theorem mem_errors_account (hthere : r.host.files.exists? repo.path = .ok true) (entry : String) :
    entry ∈ (r.account repo).errors ↔ ∃ kind ∈ repo.analyzers, ∃ f,
      r.answer? repo kind = some (.error f) ∧ entry = kind.text ++ ": " ++ f.message := by
  rw [account, hthere]
  simp only [List.mem_flatMap, errorsOf]
  refine exists_congr fun kind => and_congr_right fun _ => ?_
  cases r.answer? repo kind with
  | none => simp
  | some answer => cases answer <;> simp

theorem impacts_account (hthere : r.host.files.exists? repo.path = .ok true) :
    (r.account repo).impacts = Impact.merge (repo.analyzers.flatMap (r.impactsOf repo)) := by
  rw [account, hthere]

/-- What an analyzer finds is in the account under its key. -/
theorem exists_mem_impacts_account (hthere : r.host.files.exists? repo.path = .ok true)
    {kind : AnalyzerKind} (hkind : kind ∈ repo.analyzers) {found : List Impact}
    (hanswer : r.answer? repo kind = some (.ok found)) {i : Impact} (hi : i ∈ found) :
    ∃ j ∈ (r.account repo).impacts, j.key = i.key := by
  have hmem : i ∈ repo.analyzers.flatMap (r.impactsOf repo) :=
    List.mem_flatMap.mpr ⟨kind, hkind, by rw [impactsOf, hanswer]; exact hi⟩
  have hkey := (Impact.gathering.mem_map_key_gather i.key _).mpr (List.mem_map_of_mem hmem)
  rw [r.impacts_account hthere]
  exact List.mem_map.mp hkey

theorem add_of_recoverable {f : Fault} (h : ∀ message analyzer, f ≠ .gaveUp message analyzer false)
    (found : Findings) (kind : AnalyzerKind) :
    found.add kind (.error f) =
      .ok ⟨found.impacts, found.errors ++ [kind.text ++ ": " ++ f.message]⟩ := by
  cases f with
  | gaveUp message analyzer recoverable =>
    cases recoverable with
    | false => exact absurd rfl (h message analyzer)
    | true => rfl
  | nameTooLong f => rfl
  | crashed message => rfl

theorem runKind_fails {kind : AnalyzerKind} (h : r.StopsAt repo kind) (found : Findings) :
    ∃ f, r.runKind repo found kind = .error f := by
  rw [runKind]
  rcases h with ⟨f, hf⟩ | ⟨message, name, ha⟩
  · exact ⟨.setup f, by rw [hf]; rfl⟩
  · rw [answer?] at ha
    cases hc : r.registry.create kind.text r.host repo r.versions with
    | error f => simp [hc] at ha
    | ok made =>
      cases made with
      | none => simp [hc] at ha
      | some analyzer =>
        rw [hc] at ha
        refine ⟨.analysis (.gaveUp message name false), ?_⟩
        change found.add kind (analyzer.run r.host) = _
        rw [Option.some.inj ha]
        rfl

/-- An analyzer that does not stop the run adds its contribution and touches no other. -/
theorem runKind_eq_ok {kind : AnalyzerKind} (h : ¬ r.StopsAt repo kind) (found : Findings) :
    r.runKind repo found kind =
      .ok ⟨found.impacts ++ r.impactsOf repo kind, found.errors ++ r.errorsOf repo kind⟩ := by
  rw [StopsAt, not_or] at h
  rw [runKind, impactsOf, errorsOf]
  rw [answer?] at h ⊢
  cases hc : r.registry.create kind.text r.host repo r.versions with
  | error f => exact absurd ⟨f, hc⟩ h.1
  | ok made =>
    rw [hc] at h
    cases made with
    | none => simp [Except.mapError, bind, Except.bind, pure, Except.pure]
    | some analyzer =>
      change found.add kind (analyzer.run r.host) = _
      cases ha : analyzer.run r.host with
      | ok impacts => simp [Findings.add, ha]
      | error f =>
        have hf : ∀ message analyzer, f ≠ .gaveUp message analyzer false := by
          rintro message name rfl
          exact h.2 ⟨message, name, congrArg some ha⟩
        rw [add_of_recoverable hf]
        simp [ha]

theorem foldlM_runKind_eq_ok {left : List AnalyzerKind} (h : ∀ kind ∈ left, ¬ r.StopsAt repo kind)
    (found : Findings) :
    left.foldlM (r.runKind repo) found =
      .ok ⟨found.impacts ++ left.flatMap (r.impactsOf repo),
        found.errors ++ left.flatMap (r.errorsOf repo)⟩ := by
  induction left generalizing found with
  | nil => simp [pure, Except.pure]
  | cons kind left ih =>
    rw [List.foldlM_cons, r.runKind_eq_ok (h kind List.mem_cons_self)]
    change left.foldlM (r.runKind repo) _ = _
    rw [ih fun other hother => h other (List.mem_cons_of_mem kind hother)]
    simp only [List.flatMap_cons, List.append_assoc]

theorem finish_start_fails (h : r.Stops repo) : ∃ f, (Job.start repo).finish r = .error f := by
  rw [Job.start, Job.finish, isPresent]
  rcases h with ⟨f, hf⟩ | ⟨hthere, hkinds⟩
  · exact ⟨.path f, by rw [hf]; rfl⟩
  · obtain ⟨kind, hkind, hs⟩ := hkinds
    obtain ⟨f, hf⟩ := foldlM_fails ⟨kind, hkind, r.runKind_fails hs⟩ ⟨[], []⟩
    refine ⟨f, ?_⟩
    rw [hthere]
    change Job.remainder r repo ⟨[], []⟩ repo.analyzers = _
    rw [Job.remainder, hf]
    rfl

theorem finish_start_eq_ok (h : ¬ r.Stops repo) :
    (Job.start repo).finish r = .ok (r.account repo) := by
  rw [Stops, not_or] at h
  rw [Job.start, Job.finish, isPresent, account]
  cases hp : r.host.files.exists? repo.path with
  | error f => exact absurd ⟨f, hp⟩ h.1
  | ok there =>
    cases there with
    | false => rfl
    | true =>
      have hkinds : ∀ kind ∈ repo.analyzers, ¬ r.StopsAt repo kind := fun kind hkind hs =>
        h.2 ⟨hp, kind, hkind, hs⟩
      change Job.remainder r repo ⟨[], []⟩ repo.analyzers = _
      rw [Job.remainder, r.foldlM_runKind_eq_ok hkinds]
      change Except.ok (Findings.result _ repo) = _
      simp only [Findings.result, List.nil_append, length_distinct]

theorem analyses_fails {repos : List Repository} (h : ∃ repo ∈ repos, r.Stops repo)
    (schedule : List Nat) : (r.analyses schedule repos).toOption = none := by
  obtain ⟨repo, hrepo, hs⟩ := h
  obtain ⟨f, hf⟩ := mapM_fails_iff.mpr
    ⟨Job.start repo, List.mem_map_of_mem hrepo, r.finish_start_fails hs⟩
  rw [analyses_toOption, hf]
  rfl

theorem analyses_eq_ok {repos : List Repository} (h : ∀ repo ∈ repos, ¬ r.Stops repo)
    (schedule : List Nat) : r.analyses schedule repos = .ok (repos.map r.account) := by
  have hjobs : ∀ job ∈ repos.map Job.start, job.finish r = .ok (r.account job.repo) := by
    intro job hjob
    obtain ⟨repo, hrepo, rfl⟩ := List.mem_map.mp hjob
    exact r.finish_start_eq_ok (h repo hrepo)
  rw [eq_ok_iff_toOption, analyses_toOption, mapM_eq_ok hjobs, List.map_map]
  rfl

variable [Regex.Names]

theorem resultUnder_of_stops {c : Config} (h : ∃ repo ∈ c.repos, r.Stops repo)
    (schedule : List Nat) (result : Result) : r.resultUnder schedule c ≠ .ok result := by
  rw [Ne, eq_ok_iff_toOption, resultUnder, toOption_bind, r.analyses_fails h]
  simp

theorem resultUnder_of_not_stops {c : Config} (h : ∀ repo ∈ c.repos, ¬ r.Stops repo)
    (schedule : List Nat) :
    r.resultUnder schedule c =
      ((Correlation.correlate r.matchers (r.found c.repos) c.relations).mapError .pattern).map
        (r.assemble (c.repos.map r.account)) := by
  rw [resultUnder, r.analyses_eq_ok h]
  change ((Correlation.correlate r.matchers _ c.relations).mapError RunFault.pattern >>= _) = _
  rw [r.map_account]
  cases Correlation.correlate r.matchers (r.found c.repos) c.relations <;> rfl

theorem accounts_assemble {c : Config} {records : List Record}
    (h : Correlation.correlate r.matchers (r.found c.repos) c.relations = .ok records) :
    r.Accounts c (r.assemble (c.repos.map r.account) records) where
  repos := rfl
  totalChangedFiles := rfl
  totalImpactedComponents := rfl
  rows := rfl
  hasBreakingChanges := by
    change hasBreakingChanges ((c.repos.map r.account).flatMap (·.impacts)) = true ↔ _
    rw [hasBreakingChanges_iff]
    simp only [Reason.isBreaking_iff, List.mem_flatMap]
    constructor
    · rintro ⟨i, ⟨x, hx, hi⟩, reason, hreason⟩
      exact ⟨x, hx, i, hi, reason, hreason⟩
    · rintro ⟨x, hx, i, hi, reason, hreason⟩
      exact ⟨i, ⟨x, hx, hi⟩, reason, hreason⟩
  crossImpacts := Correlation.answers_of_correlate h

theorem resultUnder_eq_ok {c : Config} (hstops : ∀ repo ∈ c.repos, ¬ r.Stops repo)
    (hstalls : ∀ relation ∈ c.relations,
      ¬ Correlation.Stalls r.matchers (r.found c.repos) relation) (schedule : List Nat) :
    ∃ result, r.resultUnder schedule c = .ok result := by
  obtain ⟨records, hrecords⟩ := (Correlation.correlate_ok_iff c.relations).mpr hstalls
  exact ⟨_, by rw [r.resultUnder_of_not_stops hstops, hrecords]; rfl⟩

theorem not_stops_of_resultUnder {c : Config} {schedule : List Nat} {result : Result}
    (h : r.resultUnder schedule c = .ok result) : ∀ repo ∈ c.repos, ¬ r.Stops repo :=
  fun repo hrepo hs => r.resultUnder_of_stops ⟨repo, hrepo, hs⟩ schedule result h

theorem exists_of_resultUnder {c : Config} {schedule : List Nat} {result : Result}
    (h : r.resultUnder schedule c = .ok result) :
    ∃ records, Correlation.correlate r.matchers (r.found c.repos) c.relations = .ok records ∧
      result = r.assemble (c.repos.map r.account) records := by
  rw [r.resultUnder_of_not_stops (r.not_stops_of_resultUnder h)] at h
  cases hc : Correlation.correlate r.matchers (r.found c.repos) c.relations with
  | error f => simp [hc, Except.mapError, Except.map] at h
  | ok records =>
    rw [hc] at h
    exact ⟨records, rfl, (Except.ok.inj h).symm⟩

theorem accounts_of_resultUnder {c : Config} {schedule : List Nat} {result : Result}
    (h : r.resultUnder schedule c = .ok result) : r.Accounts c result := by
  obtain ⟨records, hrecords, rfl⟩ := r.exists_of_resultUnder h
  exact r.accounts_assemble hrecords

/-- Under every schedule a run ends with a result if and only if no analysis stops it and the globs
of no relation stall. The result is the same under all of them, and it gives the accounts. -/
theorem resultUnder_accounts (r : Run) (c : Config) (schedule : List Nat) :
    ((∃ result, r.resultUnder schedule c = .ok result) ↔
      (∀ repo ∈ c.repos, ¬ r.Stops repo) ∧
        ∀ relation ∈ c.relations,
          ¬ Correlation.Stalls r.matchers (r.found c.repos) relation) ∧
    ∀ result, r.resultUnder schedule c = .ok result →
      r.result c = .ok result ∧ r.Accounts c result := by
  have hagree : ∀ result, r.resultUnder schedule c = .ok result → r.result c = .ok result :=
    fun result => (r.resultUnder_eq_ok_iff schedule c result).mp
  by_cases hgo : ∀ repo ∈ c.repos, ¬ r.Stops repo
  · rw [r.resultUnder_of_not_stops hgo schedule] at hagree ⊢
    rw [← Correlation.correlate_ok_iff]
    cases hc : Correlation.correlate r.matchers (r.found c.repos) c.relations with
    | error f => simp [Except.mapError, Except.map]
    | ok records =>
      rw [hc] at hagree
      refine ⟨⟨fun _ => ⟨hgo, records, rfl⟩, fun _ => ⟨_, rfl⟩⟩, ?_⟩
      rintro result ⟨⟩
      exact ⟨hagree _ rfl, r.accounts_assemble hc⟩
  · have hstops : ∃ repo ∈ c.repos, r.Stops repo := by
      by_contra hnone
      exact hgo fun repo hrepo hs => hnone ⟨repo, hrepo, hs⟩
    refine ⟨⟨?_, fun h => absurd h.1 hgo⟩, ?_⟩
    · rintro ⟨result, h⟩
      exact absurd h (r.resultUnder_of_stops hstops schedule result)
    · intro result h
      exact absurd h (r.resultUnder_of_stops hstops schedule result)

end Run

end Ripple.Analysis
