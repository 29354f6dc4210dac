import Ripple.Glob
import Ripple.Relation.Basic
import Ripple.Relation.Signal

/-!
Matchers: for each kind of relation, the signal that starts a propagation in the source repository
and the signal that receives it in the target, and the registry that finds the matcher of a kind.
-/
namespace Ripple

structure Matcher where
  trigger : Signal
  consumer : Signal
  /-- Whether the relation's globs add to the consumers. -/
  usesPatterns : Bool
  deriving DecidableEq, Repr

section Selection

variable [Regex.Names]

/-- Whether an impact shows a signal or one of the globs selects its file. -/
def consumes (consumer : Signal) (patterns : List String) (i : Impact) : Except Regex.Fault Bool :=
  if consumer.holds i then .ok true else Glob.anySelects i.file patterns

/-- The components that show a signal or whose file one of the globs selects, each once. -/
def consumers (consumer : Signal) (patterns : List String) (impacts : List Impact) :
    Except Regex.Fault (List String) := do
  let chosen ← impacts.filterM (consumes consumer patterns)
  return distinct (chosen.map (·.component))

namespace Matcher

def globs (m : Matcher) (relation : Relation) : List String :=
  if m.usesPatterns then relation.patterns.getD [] else []

/-- One record for each impact of the source that triggers, if anything in the target consumes. -/
def correlate (m : Matcher) (source target : RepoImpacts) (relation : Relation) :
    Except Regex.Fault (List Record) := do
  let triggers := source.impacts.filter m.trigger.holds
  if triggers.isEmpty then return []
  let targets ← consumers m.consumer (m.globs relation) target.impacts
  if targets.isEmpty then return []
  return triggers.map fun i =>
    Record.ofTargets source.name i.component target.name targets relation.via

end Matcher

end Selection

/-- The matcher for each kind of relation. -/
def RelationKind.matcher : RelationKind → Matcher
  | .graphqlSchema => ⟨.graphqlTrigger, .graphqlConsumer, true⟩
  | .sqs => ⟨.sqs, .sqs, false⟩
  | .sharedTypes => ⟨.sharedTypeTrigger, .always, false⟩
  | .apiCall => ⟨.apiTrigger, .apiConsumer, false⟩
  | .npmPackage => ⟨.dependencyTrigger, .always, false⟩

/-- Matchers under the names of the kinds they serve. -/
abbrev MatcherRegistry := List (String × Matcher)

namespace MatcherRegistry

def standard : MatcherRegistry := RelationKind.all.map fun k => (k.text, k.matcher)

def register (registry : MatcherRegistry) (name : String) (m : Matcher) : MatcherRegistry :=
  registry.filter (·.1 ≠ name) ++ [(name, m)]

def find? (registry : MatcherRegistry) (name : String) : Option Matcher := registry.lookup name

end MatcherRegistry

end Ripple
