import Ripple.Relation.Matcher

/-!
Correlation: every relation carries the impacts of its source to its target, and the records of all
relations are united. A relation whose repositories were not analysed, or whose kind has no matcher,
contributes nothing.
-/
namespace Ripple

namespace Correlation

variable [Regex.Names]

/-- The first repository of a name. -/
def findRepo? (repos : List RepoImpacts) (name : String) : Option RepoImpacts :=
  repos.find? (·.name = name)

/-- The records of one relation, as the matcher gives them. -/
def relate (registry : MatcherRegistry) (repos : List RepoImpacts) (relation : Relation) :
    Except Regex.Fault (List Record) :=
  match findRepo? repos relation.source, findRepo? repos relation.target with
  | some source, some target =>
    match registry.find? relation.via.text with
    | some matcher => matcher.correlate source target relation
    | none => .ok []
  | _, _ => .ok []

def relateAll (registry : MatcherRegistry) (repos : List RepoImpacts) :
    List Relation → Except Regex.Fault (List Record)
  | [] => .ok []
  | relation :: rest => do
    let first ← relate registry repos relation
    let others ← relateAll registry repos rest
    return first ++ others

def correlate (registry : MatcherRegistry) (repos : List RepoImpacts) (relations : List Relation) :
    Except Regex.Fault (List Record) :=
  (relateAll registry repos relations).map Record.unite

end Correlation

end Ripple
