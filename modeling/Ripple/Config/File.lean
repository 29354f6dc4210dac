import Ripple.Config.Settings
import Ripple.Files.Links
import Ripple.Yaml.Reader

/-!
Configuration files: where they are looked for, and how one is read. A file is YAML if its name says
so and JSON otherwise; relative repository paths are seen from the directory of the file.
-/
namespace Ripple.Config

def defaultNames : List String :=
  ["impact.config.yaml", "impact.config.yml", "impact.config.json", ".impactrc.yaml",
    ".impactrc.json"]

/-- The configuration file in a directory. -/
def find? (t : FileTree) (directory : Path) : Except NameTooLong (Option Path) :=
  defaultNames.findSomeM? fun name => do
    let p := directory.join (Path.ofString name)
    return if (← t.file? p).isSome then some p else none

inductive LoadFault where
  | missing (path : Path)
  | nameTooLong (fault : NameTooLong)
  | directory (path : Path)
  | undecodable (fault : Text.Utf8.Fault)
  | yaml (fault : Yaml.Fault)
  | json (document : List Char) (fault : Json.Fault)
  /-- The document is something other than a mapping. -/
  | rootKind (name : String)
  /-- The content breaks the rules for configurations. -/
  | invalid (path : Path) (complaints : List String)
  | brokenOff (why : Break)
  /-- A repository path has a NUL character. -/
  | nulInPath
  /-- An entry of the document has a key that is no text. -/
  | keyKind
  | settings (fault : Settings.Fault)
  deriving Repr

namespace LoadFault

def message : LoadFault → String
  | missing p => "Config file not found: " ++ p.toString
  | nameTooLong f => f.message
  | directory p => "[Errno 21] Is a directory: " ++ Text.quoted p.toString
  | undecodable f => f.message
  | yaml .malformed => "Invalid YAML in config file: the document is not well formed"
  | yaml f => f.message
  | json document f =>
    match f.problem with
    | .longInteger _ => f.problem.text
    | _ => "Invalid JSON in config file: " ++ f.message document
  | rootKind name => "Config root must be a mapping, not " ++ name
  | invalid p _ => "Invalid config: " ++ p.toString
  | brokenOff why => why.message
  | nulInPath => "embedded null byte"
  | keyKind => "keywords must be strings"
  | settings f => f.message

end LoadFault

/-- A step as complaints in lines show it. -/
def stepText : Step → String
  | .index n => toString n
  | .key name => name

def complaintLine (c : Complaint) : String :=
  let place := Text.join "." (c.place.map stepText)
  (if place.isEmpty then "config" else place) ++ ": " ++ c.flaw.message

/-- The complaint about a document without repositories. -/
def noRepositories : String := "repos: At least one repository is required"

def readDocument (t : LinkedTree) (p : Path) : Except LoadFault ValueGraph := do
  match ← (t.locate p).mapError .nameTooLong with
  | none => throw (.missing p)
  | some (_, .directory) => throw (.directory p)
  | some (_, .file octets) =>
    let text := Text.unifyNewlines (← (Text.Utf8.decode octets).mapError .undecodable)
    if [".yaml", ".yml"].contains p.suffix then (Yaml.parse text).mapError .yaml
    else ((Json.parse text).mapError (.json text)).map .ofValue

/-- A repository's path seen from a directory, if it is relative. -/
def resolvePath (homes : Homes) (t : LinkedTree) (directory : Path) (s : String) :
    Except LoadFault String :=
  match homes.expand (Path.ofString s) with
  | .broken why => .error (.brokenOff why)
  | .flawed _ => .ok s
  | .valid p =>
    if s.isEmpty ∨ p.isAbsolute then .ok s
    else if s.toList.contains '\x00' then .error .nulInPath
    else .ok (t.resolve (directory.join p)).toString

/-- A document with the path of one repository seen from a directory. The mapping is changed in
place: wherever else it stands in the document, it has the new path there too. -/
def resolveRepository (homes : Homes) (t : LinkedTree) (directory : Path) (d : ValueGraph)
    (item : ValueGraph.Cell) : Except LoadFault ValueGraph :=
  match item, d.get? item "path" with
  | .part n, some (.atom (.text s)) => do
    let s ← resolvePath homes t directory s
    return d.put n "path" (.text s)
  | _, some (.atom .brokenText) => .error (.brokenOff .unencodable)
  | _, _ => .ok d

def repositories (d : ValueGraph) : List ValueGraph.Cell :=
  ((Value.find? "repos" d.entries).bind d.items?).getD []

/-- A document with the paths of its repositories seen from a directory. -/
def resolveRepositories (homes : Homes) (t : LinkedTree) (directory : Path) (d : ValueGraph) :
    Except LoadFault ValueGraph :=
  (repositories d).foldlM (resolveRepository homes t directory) d

def isTextKey : Value → Bool
  | .text _ | .brokenText => true
  | _ => false

/-- A document is a mapping, or it is nothing, which counts as an empty one. -/
def checkKind (d : ValueGraph) : Except LoadFault Unit :=
  match d.value 1 d.root with
  | .null | .map _ => .ok ()
  | v => .error (.rootKind v.kindName)

/-- How far below its entries a configuration is looked at: the repositories are a list of mappings
with lists, of whose items the kind counts. -/
def depth : Nat := 4

/-- The configuration in a file, on top of what the environment says. However deep its document is
nested, the stack does not run out. -/
def load (homes : Homes) (environment : List (String × String)) (t : LinkedTree) (p : Path) :
    Except LoadFault Config := do
  let d ← readDocument t p
  checkKind d
  if ((Value.find? "repos" (d.values depth)).getD .null).isHollow then
    throw (.invalid p [noRepositories])
  let entries := (← resolveRepositories homes t p.parent d).values depth
  if !entries.all fun e => isTextKey e.1 then throw .keyKind
  let all ← (Settings.overlay environment entries).mapError .settings
  match Config.check homes all with
  | .valid c => return c
  | .flawed complaints => throw (.invalid p (complaints.map complaintLine))
  | .broken why => throw (.brokenOff why)

end Ripple.Config
