import Ripple.Impact.Merge
import Ripple.Relation.Basic
import Ripple.Text.Basic
import Ripple.Time.Basic

/-!
Results: what a run found in each repository and across repositories, with a summary.
-/
namespace Ripple

structure RepoResult where
  name : String
  changedFiles : Int
  impacts : List Impact
  errors : List String
  deriving DecidableEq, Repr

structure RepoSummary where
  name : String
  changedFiles : Int
  impactCount : Int
  deriving DecidableEq, Repr

structure Summary where
  totalChangedFiles : Int
  totalImpactedComponents : Int
  hasBreakingChanges : Bool
  repos : List RepoSummary
  deriving DecidableEq, Repr

/-- When, between which versions and by what a result was made. -/
structure Meta where
  timestamp : Timestamp
  baseRef : String
  headRef : String
  tool : String
  version : String
  pullRequest : Option String
  deriving DecidableEq, Repr

structure Result where
  about : Meta
  summary : Summary
  repos : List RepoResult
  crossImpacts : List Record
  deriving DecidableEq, Repr

def toolName : String := "impact-analyzer"

def toolVersion : String := "0.1.0"

/-- Whether a reason stands for a breaking change. -/
def Reason.isBreaking (r : Reason) : Bool :=
  r.kind = .schema || Text.has (Text.lower r.description) "breaking"

/-- Whether some reason of some impact stands for a breaking change. -/
def hasBreakingChanges (impacts : List Impact) : Bool :=
  impacts.any fun i => i.reasons.any (·.isBreaking)

theorem Reason.isBreaking_iff (r : Reason) :
    r.isBreaking = true ↔
      r.kind = .schema ∨ Text.has (Text.lower r.description) "breaking" = true := by
  rw [isBreaking, Bool.or_eq_true, decide_eq_true_iff]

theorem hasBreakingChanges_iff (impacts : List Impact) :
    hasBreakingChanges impacts = true ↔
      ∃ i ∈ impacts, ∃ r ∈ i.reasons, r.isBreaking = true := by
  simp only [hasBreakingChanges, List.any_eq_true]

def total (counts : List Int) : Int := counts.foldr (· + ·) 0

def Summary.of (repos : List RepoResult) : Summary where
  totalChangedFiles := total (repos.map (·.changedFiles))
  totalImpactedComponents := total (repos.map fun r => (r.impacts.length : Int))
  hasBreakingChanges := Ripple.hasBreakingChanges (repos.flatMap (·.impacts))
  repos := repos.map fun r => ⟨r.name, r.changedFiles, r.impacts.length⟩

end Ripple
