import Ripple.Analysis.AngularWorkspace
import Ripple.Analysis.GoService
import Ripple.Analysis.GraphqlApi

/-!
The registry of analyzers by the names under which repositories ask for them. A name without a class
is not supported, which is no fault: nothing is analysed for it.
-/
namespace Ripple.Analysis

abbrev Registry := List (String × AnalyzerClass)

variable [Outline.ScriptParser]

def builtIn : List (AnalyzerKind × AnalyzerClass) :=
  [(.goAst, GoService.analyzers), (.graphqlInspector, GraphqlApi.analyzers),
    (.tsMorph, AngularWorkspace.analyzers)]

namespace Registry

def standard : Registry := builtIn.map fun (kind, c) => (kind.text, c)

def register (r : Registry) (name : String) (c : AnalyzerClass) : Registry :=
  r.filter (·.1 ≠ name) ++ [(name, c)]

def supports (r : Registry) (name : String) : Bool := r.any (·.1 = name)

/-- The names with a class, in alphabetical order. -/
def supported (r : Registry) : List String := (r.map (·.1)).mergeSort (· ≤ ·)

/-- The analyzer of a name for a repository, if there is one that handles it. -/
def create (r : Registry) (name : String) (h : Host) (repo : Repository) (versions : Versions) :
    Except SetupFault (Option Analyzer) :=
  match r.lookup name with
  | none => .ok none
  | some c => if c.handles repo then (c.make h repo versions).map some else .ok none

end Registry

end Ripple.Analysis
