import Ripple.Analysis.Basic
import Ripple.Workspace.Scan

/-!
The analyzer for Angular workspaces. It maps changed sources, templates, stylesheets and modules to
the components that they affect.
-/
namespace Ripple.Analysis.AngularWorkspace

open Workspace (Project)

def name : String := "angular"

/-- Marks in the paths of stylesheets that style more than one component. -/
def globalStyleMarks : List String := ["styles", "theme", "global"]

def sourceImpacts (s : Setting) (p : Project) (file : String) : List Impact :=
  ((p.components.filter (·.file = file)).flatMap fun c =>
    s.impactAt c.line c.name file .direct file
      ("Component " ++ c.name ++ " was directly modified") ::
      (p.dependentsOf c.name).map fun d =>
        s.impact d.name d.file .dependency file
          ("Component " ++ d.name ++ " depends on modified component " ++ c.name)) ++
  (p.services.filter (·.file = file)).flatMap fun v =>
    s.impactAt v.line v.name file .direct file ("Service " ++ v.name ++ " was directly modified") ::
      (p.consumersOf v.name).map fun c =>
        s.impact c.name c.file .dependency file
          ("Component " ++ c.name ++ " injects modified service " ++ v.name)

def templateImpacts (s : Setting) (p : Project) (file : String) : List Impact :=
  match (p.templates.lookup file).bind p.component? with
  | none => []
  | some c =>
    s.impact c.name c.file .template file ("Template for " ++ c.name ++ " was modified") ::
      (p.dependentsOf c.name).map fun d =>
        s.impact d.name d.file .template file
          ("Template change in " ++ c.name ++ " may affect " ++ d.name)

def styleImpacts (s : Setting) (p : Project) (file : String) : List Impact :=
  ((p.styles.lookup file).bind p.component?).toList.map (fun c =>
    s.impact c.name c.file .style file ("Styles for " ++ c.name ++ " were modified")) ++
  if Text.hasAny file globalStyleMarks then
    [s.impact "Global Styles" file .style file
      "Global style file was modified - may affect multiple components"]
  else []

def moduleImpacts (s : Setting) (p : Project) (file : String) : List Impact :=
  (p.modules.filter (·.file = file)).flatMap fun m =>
    s.impactAt m.line m.name file .module file ("Module " ++ m.name ++ " was modified") ::
      m.declarations.filterMap fun d => (p.component? d).map fun c =>
        s.impact d c.file .module file
          ("Component " ++ d ++ " is declared in modified module " ++ m.name)

/-- The impacts of one changed file, by what its name says it is. -/
def fileImpacts (s : Setting) (p : Project) (file : String) : List Impact :=
  (if Text.endsWith file ".ts" && !Text.endsWith file ".spec.ts" then sourceImpacts s p file
    else []) ++
  (if Text.endsWith file ".html" then templateImpacts s p file else []) ++
  (if Text.endsWithAny file [".scss", ".css"] then styleImpacts s p file else []) ++
  if Text.has file ".module.ts" then moduleImpacts s p file else []

def impacts (s : Setting) (p : Project) (changed : List String) : List Impact :=
  Impact.merge (changed.flatMap (fileImpacts s p))

variable [Outline.ScriptParser]

def analyze (s : Setting) (h : Host) : Except Fault (List Impact) := do
  let changed ← s.changedFiles h name
  if changed.isEmpty then return []
  let project ← (Workspace.scan h.files s.repo.path).mapError .nameTooLong
  return impacts s project changed

def analyzers : AnalyzerClass where
  handles repo := repo.kind == .angular
  make _ repo versions := do
    let s ← Setting.make repo versions
    return ⟨name, none, analyze s⟩

end Ripple.Analysis.AngularWorkspace
