import Ripple.Text.Basic

/-!
The parts of an Angular workspace: components, services and modules by their class names, and which
component a template or a stylesheet belongs to.
-/
namespace Ripple.Workspace

structure Component where
  name : String
  file : String
  line : Nat
  selector : Option String
  template : Option String
  styles : List String
  deriving DecidableEq, Repr

structure Service where
  name : String
  file : String
  line : Nat
  providedIn : Option String
  deriving DecidableEq, Repr

structure Module where
  name : String
  file : String
  line : Nat
  declarations : List String
  imports : List String
  exports : List String
  providers : List String
  deriving DecidableEq, Repr

/-- The tables of a workspace. A table has at most one entry of a key; an entry that replaces
another one takes its place. -/
structure Project where
  components : List Component
  services : List Service
  modules : List Module
  /-- The names of the components that own the templates. -/
  templates : List (String × String)
  /-- The names of the components that own the stylesheets. -/
  styles : List (String × String)
  /-- The texts of the files that hold components. -/
  sources : List (String × String)
  deriving DecidableEq, Repr

def insert {α : Type} (key : α → String) (a : α) : List α → List α
  | [] => [a]
  | b :: rest => if key b = key a then a :: rest else b :: insert key a rest

namespace Project

def empty : Project := ⟨[], [], [], [], [], []⟩

def component? (p : Project) (name : String) : Option Component :=
  p.components.find? (·.name = name)

/-- The other components declared in the modules that declare or export a component that has a
selector. -/
def dependentsOf (p : Project) (name : String) : List Component :=
  match (p.component? name).bind (·.selector) with
  | none | some "" => []
  | some _ =>
    (p.modules.filter fun m => m.declarations.contains name || m.exports.contains name).flatMap
      fun m => m.declarations.filterMap fun d => if d = name then none else p.component? d

def consumersOf (p : Project) (service : String) : List Component :=
  p.components.filter fun c => Text.has ((p.sources.lookup c.file).getD "") service

end Project

end Ripple.Workspace
