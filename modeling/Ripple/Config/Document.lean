import Ripple.Config.Basic
import Ripple.Result.Document

/-!
The document form of configurations: how each part is checked and read, and how it is written. A
repository's path is expanded when it names a home directory; a relation's source may be given under
either of two names.
-/
namespace Ripple

structure Homes where
  /-- The home directory of the user who runs the program. -/
  own : String
  /-- The home directories of other users by their names. -/
  others : List (String × String)
  deriving DecidableEq, Repr

/-- A path whose first name stands for a home directory, with that directory in its place. -/
def Homes.expand (homes : Homes) (p : Path) : Check Path :=
  match p.root, p.names with
  | "", first :: rest =>
    match first.toList with
    | '~' :: user =>
      let home? :=
        if user.isEmpty then some homes.own else homes.others.lookup (String.ofList user)
      match home? with
      | some home => .valid ((Path.ofString home).join ⟨"", rest⟩)
      | none => .broken .unknownHome
    | _ => .valid p
  | _, _ => .valid p

def RepoKind.check : Checker RepoKind := .member (RepoKind.all.map fun k => (k.text, k))

def AnalyzerKind.check : Checker AnalyzerKind :=
  .member (AnalyzerKind.all.map fun k => (k.text, k))

def ReportFormat.check : Checker ReportFormat :=
  .literal (ReportFormat.all.map fun k => (k.text, k))

def LogLevel.check : Checker LogLevel := .literal (LogLevel.all.map fun k => (k.text, k))

def LogFormat.check : Checker LogFormat := .literal (LogFormat.all.map fun k => (k.text, k))

namespace Checker

def path : Checker Path
  | .text s => .valid (Path.ofString s)
  | _ => .fail .pathExpected

def repositoryPath (homes : Homes) : Checker Path
  | .text s =>
    if s.isEmpty then .fail (.rule "Repository path is required")
    else homes.expand (Path.ofString s)
  | .brokenText => .broken .unencodable
  | v => .broken (.notPathLike v.qualifiedKindName)

end Checker

namespace Repository

def toValue (r : Repository) : Value :=
  .record [("name", .text r.name), ("path", .text r.path.toString), ("type", .text r.kind.text),
    ("analyzers", .listOf (fun a => .text a.text) r.analyzers),
    ("include_paths", .optional (.listOf .text) r.includePaths),
    ("exclude_paths", .optional (.listOf .text) r.excludePaths)]

def check (homes : Homes) : Checker Repository :=
  let texts := Checker.optional (Checker.list Checker.text)
  Checker.record "RepositoryConfig" fun fields =>
    Repository.mk <$> Checker.required "name" (Checker.sizedText 1 (some 100)) fields
      <*> Checker.required "path" (Checker.repositoryPath homes) fields
      <*> Checker.required "type" RepoKind.check fields
      <*> Checker.required "analyzers" (Checker.atLeast 1 (Checker.list AnalyzerKind.check)) fields
      <*> Checker.defaulted "include_paths" texts none fields
      <*> Checker.defaulted "exclude_paths" texts none fields

end Repository

namespace Relation

def toValue (r : Relation) : Value :=
  .record [("from", .text r.source), ("to", .text r.target), ("via", .text r.via.text),
    ("patterns", .optional (.listOf .text) r.patterns)]

/-- The name under which a relation's source is given. -/
def sourceKey (fields : List (Value × Value)) : String :=
  if (Value.find? "from" fields).isNone ∧ (Value.find? "from_" fields).isSome then "from_"
  else "from"

def check : Checker Relation :=
  Checker.record "RelationConfig" fun fields =>
    Relation.mk <$> Checker.required (sourceKey fields) (Checker.sizedText 1 none) fields
      <*> Checker.required "to" (Checker.sizedText 1 none) fields
      <*> Checker.required "via" RelationKind.check fields
      <*> Checker.defaulted "patterns" (Checker.optional (Checker.list Checker.text)) none fields

end Relation

namespace OutputConfig

def standard : OutputConfig := ⟨Path.ofString "./impact-output", [.json, .markdown]⟩

def toValue (o : OutputConfig) : Value :=
  .record [("directory", .text o.directory.toString),
    ("formats", .listOf (fun f => .text f.text) o.formats)]

def check : Checker OutputConfig :=
  Checker.record "OutputConfig" fun fields =>
    OutputConfig.mk <$> Checker.defaulted "directory" Checker.path standard.directory fields
      <*> Checker.defaulted "formats" (Checker.list ReportFormat.check) standard.formats fields

end OutputConfig

namespace LoggingConfig

def standard : LoggingConfig := ⟨.info, .console, none, "10 MB", "7 days"⟩

def toValue (l : LoggingConfig) : Value :=
  .record [("level", .text l.level.text), ("format", .text l.format.text),
    ("file", .optional (fun p => .text p.toString) l.file), ("rotation", .text l.rotation),
    ("retention", .text l.retention)]

def check : Checker LoggingConfig :=
  Checker.record "LoggingConfig" fun fields =>
    LoggingConfig.mk <$> Checker.defaulted "level" LogLevel.check standard.level fields
      <*> Checker.defaulted "format" LogFormat.check standard.format fields
      <*> Checker.defaulted "file" (Checker.optional Checker.path) none fields
      <*> Checker.defaulted "rotation" Checker.text standard.rotation fields
      <*> Checker.defaulted "retention" Checker.text standard.retention fields

end LoggingConfig

namespace Config

def toValue (c : Config) : Value :=
  .record [("repos", .listOf Repository.toValue c.repos),
    ("relations", .listOf Relation.toValue c.relations), ("output", c.output.toValue),
    ("logging", c.logging.toValue)]

def fieldNames : List String := ["repos", "relations", "output", "logging"]

/-- A complaint for every entry that no configuration has. -/
def checkSurplus : List (Value × Value) → Check Unit
  | [] => .valid ()
  | (.text k, _) :: rest =>
    if fieldNames.contains k then checkSurplus rest
    else Check.seq (Check.map (fun _ u => u) ((Check.fail (α := Unit) .surplus).under (.key k)))
      (checkSurplus rest)
  | _ :: rest => checkSurplus rest

/-- A configuration whose parts and whose rules hold. -/
def check (homes : Homes) (entries : List (Value × Value)) : Check Config :=
  let parts :=
    (fun repos relations output logging (_ : Unit) => Config.mk repos relations output logging) <$>
      Checker.defaulted "repos" (Checker.list (Repository.check homes)) [] entries
      <*> Checker.defaulted "relations" (Checker.list Relation.check) [] entries
      <*> Checker.defaulted "output" OutputConfig.check OutputConfig.standard entries
      <*> Checker.defaulted "logging" LoggingConfig.check LoggingConfig.standard entries
      <*> checkSurplus entries
  parts.andThen fun c =>
    match c.brokenRule? with
    | some text => .fail (.rule text)
    | none => .valid c

end Config

end Ripple
