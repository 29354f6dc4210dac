import Ripple.Result.Basic
import Ripple.Validation.Instant
import Ripple.Validation.Number

/-!
The document form of impacts, records and results: how each is written as a value, and how a value
is checked and read back.
-/
namespace Ripple

def Value.listOf {α : Type} (f : α → Value) (l : List α) : Value := .list (l.map f)

def Value.optional {α : Type} (f : α → Value) : Option α → Value
  | some a => f a
  | none => .null

def ReasonKind.check : Checker ReasonKind :=
  .member (ReasonKind.all.map fun k => (k.text, k))

def RelationKind.check : Checker RelationKind :=
  .member (RelationKind.all.map fun k => (k.text, k))

namespace Reason

def toValue (r : Reason) : Value :=
  .record [("type", .text r.kind.text), ("source", .text r.source),
    ("description", .text r.description)]

def check : Checker Reason :=
  Checker.record "Reason" fun fields =>
    Reason.mk <$> Checker.required "type" ReasonKind.check fields
      <*> Checker.required "source" Checker.text fields
      <*> Checker.required "description" Checker.text fields

end Reason

namespace Impact

def toValue (i : Impact) : Value :=
  .record [("component", .text i.component), ("repo", .text i.repo), ("file", .text i.file),
    ("line", .optional .int i.line), ("reasons", .listOf Reason.toValue i.reasons),
    ("test_hints", .optional (.listOf .text) i.testHints)]

def check : Checker Impact :=
  Checker.record "ImpactItem" fun fields =>
    Impact.mk <$> Checker.required "component" Checker.text fields
      <*> Checker.required "repo" Checker.text fields
      <*> Checker.required "file" Checker.text fields
      <*> Checker.defaulted "line" (Checker.optional Checker.integer) none fields
      <*> Checker.defaulted "reasons" (Checker.tuple Reason.check) [] fields
      <*> Checker.defaulted "test_hints" (Checker.optional (Checker.tuple Checker.text)) none fields

end Impact

namespace RepoImpacts

def toValue (r : RepoImpacts) : Value :=
  .record [("name", .text r.name), ("impacts", .listOf Impact.toValue r.impacts)]

def check : Checker RepoImpacts :=
  Checker.record "RepoImpacts" fun fields =>
    RepoImpacts.mk <$> Checker.required "name" Checker.text fields
      <*> Checker.defaulted "impacts" (Checker.tuple Impact.check) [] fields

end RepoImpacts

namespace Record

def toValue (r : Record) : Value :=
  .record [("source_repo", .text r.sourceRepo), ("source_component", .text r.sourceComponent),
    ("target_repo", .text r.targetRepo), ("target_components", .listOf .text r.targets),
    ("relation", .text r.relation.text)]

/-- A record; repeated targets are dropped. -/
def check : Checker Record :=
  Checker.record "CrossRepoImpact" fun fields =>
    Record.ofTargets <$> Checker.required "source_repo" Checker.text fields
      <*> Checker.required "source_component" Checker.text fields
      <*> Checker.required "target_repo" Checker.text fields
      <*> Checker.defaulted "target_components" (Checker.tuple Checker.text) [] fields
      <*> Checker.required "relation" RelationKind.check fields

end Record

namespace RepoResult

def toValue (r : RepoResult) : Value :=
  .record [("name", .text r.name), ("changed_files", .int r.changedFiles),
    ("impacts", .listOf Impact.toValue r.impacts), ("errors", .listOf .text r.errors)]

def check : Checker RepoResult :=
  Checker.record "RepoResult" fun fields =>
    RepoResult.mk <$> Checker.required "name" Checker.text fields
      <*> Checker.defaulted "changed_files" Checker.integer 0 fields
      <*> Checker.defaulted "impacts" (Checker.list Impact.check) [] fields
      <*> Checker.defaulted "errors" (Checker.list Checker.text) [] fields

end RepoResult

namespace RepoSummary

def toValue (r : RepoSummary) : Value :=
  .record [("name", .text r.name), ("changed_files", .int r.changedFiles),
    ("impact_count", .int r.impactCount)]

def check : Checker RepoSummary :=
  Checker.record "RepoSummary" fun fields =>
    RepoSummary.mk <$> Checker.required "name" Checker.text fields
      <*> Checker.required "changed_files" Checker.integer fields
      <*> Checker.required "impact_count" Checker.integer fields

end RepoSummary

namespace Summary

def toValue (s : Summary) : Value :=
  .record [("total_changed_files", .int s.totalChangedFiles),
    ("total_impacted_components", .int s.totalImpactedComponents),
    ("has_breaking_changes", .bool s.hasBreakingChanges),
    ("repos", .listOf RepoSummary.toValue s.repos)]

def check : Checker Summary :=
  Checker.record "Summary" fun fields =>
    Summary.mk <$> Checker.defaulted "total_changed_files" Checker.integer 0 fields
      <*> Checker.defaulted "total_impacted_components" Checker.integer 0 fields
      <*> Checker.defaulted "has_breaking_changes" Checker.truth false fields
      <*> Checker.defaulted "repos" (Checker.list RepoSummary.check) [] fields

end Summary

namespace Meta

def toValue (m : Meta) : Value :=
  .record [("timestamp", .text m.timestamp.text), ("base_ref", .text m.baseRef),
    ("head_ref", .text m.headRef), ("tool", .text m.tool), ("version", .text m.version),
    ("pr_url", .optional .text m.pullRequest)]

/-- What a result is about; `now` is the time of one that does not say. -/
def check (now : Timestamp) : Checker Meta :=
  Checker.record "AnalysisMeta" fun fields =>
    Meta.mk <$> Checker.defaulted "timestamp" Checker.instant now fields
      <*> Checker.required "base_ref" Checker.text fields
      <*> Checker.required "head_ref" Checker.text fields
      <*> Checker.defaulted "tool" Checker.text toolName fields
      <*> Checker.required "version" Checker.text fields
      <*> Checker.defaulted "pr_url" (Checker.optional Checker.text) none fields

end Meta

namespace Result

def toValue (r : Result) : Value :=
  .record [("meta", r.about.toValue), ("summary", r.summary.toValue),
    ("repos", .listOf RepoResult.toValue r.repos),
    ("cross_repo_impacts", .listOf Record.toValue r.crossImpacts)]

def check (now : Timestamp) : Checker Result :=
  Checker.record "AnalysisResult" fun fields =>
    Result.mk <$> Checker.required "meta" (Meta.check now) fields
      <*> Checker.required "summary" Summary.check fields
      <*> Checker.defaulted "repos" (Checker.list RepoResult.check) [] fields
      <*> Checker.defaulted "cross_repo_impacts" (Checker.list Record.check) [] fields

end Result

end Ripple
