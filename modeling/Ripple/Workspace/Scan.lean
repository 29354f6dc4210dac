import Ripple.Files.Location
import Ripple.Files.Tree
import Ripple.Outline.Syntax
import Ripple.Workspace.Project

/-!
Reading a workspace: which files belong to it, and what the decorated classes in them declare.
-/
namespace Ripple.Workspace

open Outline (Expression Decorator ClassDeclaration)

abbrev Options := List (String × Option Expression)

def valueOf? (options : Options) (key : String) : Option Expression := (options.lookup key).join

def quoted? (text : String) : Option String :=
  match text.toList with
  | c :: d :: rest =>
    if Outline.quotes.contains c then some (String.ofList (d :: rest).dropLast)
    else none
  | _ => none

def textOption (options : Options) (key : String) : Option String :=
  (valueOf? options key).bind fun e => quoted? e.text

def styleLocations (options : Options) : List String :=
  match (valueOf? options "styleUrls").or (valueOf? options "styleUrl") with
  | none => []
  | some e =>
    let texts :=
      match e.elements with
      | some written => written.filterMap quoted?
      | none => (quoted? e.text).toList
    texts.filter (· ≠ "")

/-- The component that a class with such a decorator is. Only what is called a component has options
that matter. -/
def componentOf (file : String) (c : ClassDeclaration) (d : Decorator) : Component :=
  let options := if d.name = "Component" then d.options.getD [] else []
  { name := c.name
    file := file
    line := c.line
    selector := textOption options "selector"
    template := ((textOption options "templateUrl").filter (· ≠ "")).map (Location.resolve file)
    styles := (styleLocations options).map (Location.resolve file) }

def serviceOf (file : String) (c : ClassDeclaration) (d : Decorator) : Service :=
  ⟨c.name, file, c.line, textOption (d.options.getD []) "providedIn"⟩

def moduleOf (file : String) (c : ClassDeclaration) (d : Decorator) : Module :=
  let names (key : String) : List String :=
    ((valueOf? (d.options.getD []) key).bind (·.names)).getD []
  { name := c.name
    file := file
    line := c.line
    declarations := names "declarations"
    imports := names "imports"
    exports := names "exports"
    providers := names "providers" }

namespace Project

def addComponent (p : Project) (source : String) (c : Component) : Project :=
  { p with
    components := insert (·.name) c p.components
    templates := c.template.toList.foldl (fun t file => insert (·.1) (file, c.name) t) p.templates
    styles := c.styles.foldl (fun t file => insert (·.1) (file, c.name) t) p.styles
    sources := insert (·.1) (c.file, source) p.sources }

def addDecorated (file source : String) (c : ClassDeclaration) (p : Project) (d : Decorator) :
    Project :=
  if ["Component", "Directive", "Pipe"].contains d.name then
    p.addComponent source (componentOf file c d)
  else if d.name = "Injectable" then
    { p with services := insert (·.name) (serviceOf file c d) p.services }
  else if d.name = "NgModule" then
    { p with modules := insert (·.name) (moduleOf file c d) p.modules }
  else p

def addFile [Outline.ScriptParser] (p : Project) (file : String) (octets : List UInt8) : Project :=
  let source := String.ofList (Text.Utf8.decodeLossy octets)
  (Outline.classesIn octets).foldl
    (fun p c => c.decorators.foldl (addDecorated file source c) p) p

end Project

/-- Names of directories that hold nothing of the workspace's own. -/
def skippedDirectories : List String := ["node_modules", "dist", ".angular", ".git"]

/-- Whether a path leads to a source file that is no test and no mere description of types. -/
def isSource (names : List String) : Bool :=
  let name := names.getLastD ""
  Text.endsWith name ".ts" && !names.any skippedDirectories.contains &&
    !Text.endsWithAny name [".spec.ts", ".d.ts"]

/-- The source files of the workspace in a directory, in the order of their paths, with what they
hold. They are searched in the directory for sources if there is one. -/
def sourceFiles (files : FileTree) (directory : Path) :
    Except NameTooLong (List (String × List UInt8)) := do
  let some (place, _) ← files.locate directory | return []
  let hasSources ← files.isDirectory (directory.join (Path.ofString "src"))
  let candidates := (files.below place).filter fun (names, _) =>
    isSource names && (!hasSources || names.head? == some "src")
  return (candidates.mergeSort fun a b => FileTree.namesLe a.1 b.1).filterMap fun
    | (names, .file octets) => some (Text.join "/" names, octets)
    | (_, .directory) => none

/-- The workspace in a directory. -/
def scan [Outline.ScriptParser] (files : FileTree) (directory : Path) :
    Except NameTooLong Project := do
  let sources ← sourceFiles files directory
  return sources.foldl (fun p (file, octets) => p.addFile file octets) .empty

end Ripple.Workspace
