import Ripple.Analysis.Registry
import Ripple.Relation.Correlation
import Ripple.Result.Basic

/-!
A run: every repository is analysed by the analyzers it asks for, the impacts are correlated across
repositories, and everything is summed up. A failed analyzer leaves an entry among the errors of its
repository; only a failure that it declares beyond recovery ends the run. The repositories are
analysed concurrently: a schedule says which analysis takes the next step.
-/
namespace Ripple.Analysis

/-- Why a run ended without a result. -/
inductive RunFault where
  /-- An analyzer failed beyond recovery. -/
  | analysis (f : Fault)
  | setup (f : SetupFault)
  /-- A repository's path cannot be looked up. -/
  | path (f : NameTooLong)
  /-- A pattern of a relation cannot be used. -/
  | pattern (f : Regex.Fault)
  deriving DecidableEq, Repr

def RunFault.message : RunFault → String
  | .analysis f => f.message
  | .setup f => f.message
  | .path f => f.message
  | .pattern f => f.message

/-- What the analyzers of one repository have found so far. -/
structure Findings where
  impacts : List Impact
  errors : List String
  deriving DecidableEq, Repr

def Findings.add (found : Findings) (kind : AnalyzerKind) :
    Except Fault (List Impact) → Except RunFault Findings
  | .ok impacts => .ok { found with impacts := found.impacts ++ impacts }
  | .error f =>
    let recovered := .ok { found with errors := found.errors ++ [kind.text ++ ": " ++ f.message] }
    match f with
    | .gaveUp _ _ false => .error (.analysis f)
    | _ => recovered

def Findings.result (found : Findings) (repo : Repository) : RepoResult :=
  let merged := Impact.merge found.impacts
  { name := repo.name
    changedFiles := (distinct (merged.map (·.file))).length
    impacts := merged
    errors := found.errors }

def missingResult (repo : Repository) : RepoResult :=
  ⟨repo.name, 0, [], ["Repository path not found: " ++ repo.path.toString]⟩

structure Run where
  registry : Registry
  matchers : MatcherRegistry
  host : Host
  versions : Versions
  pullRequest : Option String
  now : Timestamp

namespace Run

def isPresent (r : Run) (repo : Repository) : Except RunFault Bool :=
  (r.host.files.exists? repo.path).mapError .path

def runKind (r : Run) (repo : Repository) (found : Findings) (kind : AnalyzerKind) :
    Except RunFault Findings := do
  match ← (r.registry.create kind.text r.host repo r.versions).mapError .setup with
  | none => return found
  | some analyzer => found.add kind (analyzer.run r.host)

end Run

/-- How far the analysis of a repository has come. -/
inductive Stage where
  | waiting
  /-- These analyzers are still to run. -/
  | running (found : Findings) (left : List AnalyzerKind)
  | done (result : RepoResult)
  deriving DecidableEq, Repr

structure Job where
  repo : Repository
  stage : Stage
  deriving DecidableEq, Repr

namespace Job

def start (repo : Repository) : Job := ⟨repo, .waiting⟩

/-- The next step of an analysis: it looks for the repository, runs one analyzer, or ends. -/
def step (r : Run) : Job → Except RunFault Job
  | ⟨repo, .waiting⟩ => do
    if ← r.isPresent repo then return ⟨repo, .running ⟨[], []⟩ repo.analyzers⟩
    else return ⟨repo, .done (missingResult repo)⟩
  | ⟨repo, .running found []⟩ => .ok ⟨repo, .done (found.result repo)⟩
  | ⟨repo, .running found (kind :: left)⟩ => do
    return ⟨repo, .running (← r.runKind repo found kind) left⟩
  | ⟨repo, .done result⟩ => .ok ⟨repo, .done result⟩

def remainder (r : Run) (repo : Repository) (found : Findings) (left : List AnalyzerKind) :
    Except RunFault RepoResult := do
  return (← left.foldlM (r.runKind repo) found).result repo

def finish (r : Run) : Job → Except RunFault RepoResult
  | ⟨repo, .waiting⟩ => do
    if ← r.isPresent repo then remainder r repo ⟨[], []⟩ repo.analyzers
    else return missingResult repo
  | ⟨repo, .running found left⟩ => remainder r repo found left
  | ⟨_, .done result⟩ => .ok result

end Job

namespace Run

/-- One analysis takes a step. Where there is none, nothing happens. -/
def advance (r : Run) : List Job → Nat → Except RunFault (List Job)
  | [], _ => .ok []
  | job :: rest, 0 => do return (← job.step r) :: rest
  | job :: rest, place + 1 => do return job :: (← advance r rest place)

/-- The results for the repositories in their order, with the steps of the analyses in the order of
a schedule and what it leaves undone after that. The first fault ends everything. -/
def analyses (r : Run) (schedule : List Nat) (repos : List Repository) :
    Except RunFault (List RepoResult) := do
  let jobs ← schedule.foldlM r.advance (repos.map Job.start)
  jobs.mapM (Job.finish r)

/-- The result that sums up what was found. -/
def assemble (r : Run) (repos : List RepoResult) (crossImpacts : List Record) : Result where
  about := ⟨r.now, r.versions.base, r.versions.head, toolName, toolVersion, r.pullRequest⟩
  summary := .of repos
  repos := repos
  crossImpacts := crossImpacts

variable [Regex.Names]

/-- The result of a run whose analyses follow a schedule. -/
def resultUnder (r : Run) (schedule : List Nat) (c : Config) : Except RunFault Result := do
  let repos ← r.analyses schedule c.repos
  let found := repos.map fun repo => ⟨repo.name, repo.impacts⟩
  let crossImpacts ← (Correlation.correlate r.matchers found c.relations).mapError .pattern
  return r.assemble repos crossImpacts

def result (r : Run) (c : Config) : Except RunFault Result := r.resultUnder [] c

end Run

end Ripple.Analysis
