import Ripple.Config.Basic
import Ripple.Git.Client
import Ripple.Ignore.Filter
import Ripple.Impact.Merge

/-!
Analyzers: what they are told, what they may ask, and what they answer. An analyzer looks at one
repository between two versions; it sees the working tree and what git says about it.
-/
namespace Ripple.Analysis

structure Versions where
  base : String
  head : String
  deriving DecidableEq, Repr

/-- The machine on which repositories are analysed: its files, and how git commands turn out in a
directory. -/
structure Host where
  files : FileTree
  git : Path → List String → Git.Outcome

/-- Git in a directory. In a place that is no directory nothing can be started. -/
def Host.client (h : Host) (directory : Path) : Git.Client Id where
  directory := directory
  timeout := Git.defaultTimeout
  execute command :=
    match h.files.isDirectory directory with
    | .ok true => h.git directory command
    | .ok false => .notStarted ("[Errno 20] Not a directory: " ++ Text.quoted directory.toString)
    | .error f => .notStarted f.message

inductive Fault where
  /-- The analyzer of that name gave up. -/
  | gaveUp (message analyzer : String) (recoverable : Bool)
  | nameTooLong (f : NameTooLong)
  /-- Anything else, in words. -/
  | crashed (message : String)
  deriving DecidableEq, Repr

def Fault.message : Fault → String
  | .gaveUp message _ _ => message
  | .nameTooLong f => f.message
  | .crashed message => message

/-- Why an analyzer could not be made. -/
inductive SetupFault where
  | pattern (f : Ignore.Fault)
  | nameTooLong (f : NameTooLong)
  deriving DecidableEq, Repr

def SetupFault.message : SetupFault → String
  | .pattern f => f.message
  | .nameTooLong f => f.message

structure Analyzer where
  name : String
  /-- The schema file that it compares, if it compares one. -/
  schemaPath : Option String
  run : Host → Except Fault (List Impact)

/-- How analyzers of one sort are made, and for which repositories. -/
structure AnalyzerClass where
  handles : Repository → Bool
  make : Host → Repository → Versions → Except SetupFault Analyzer

structure Setting where
  repo : Repository
  versions : Versions
  filter : PathFilter
  deriving DecidableEq, Repr

def Setting.make (repo : Repository) (versions : Versions) : Except SetupFault Setting :=
  match PathFilter.make repo.includePaths repo.excludePaths with
  | .ok filter => .ok ⟨repo, versions, filter⟩
  | .error f => .error (.pattern f)

namespace Setting

def client (s : Setting) (h : Host) : Git.Client Id := h.client s.repo.path

def changedFiles (s : Setting) (h : Host) (analyzer : String) : Except Fault (List String) :=
  match ((s.client h).changedFiles s.versions.base s.versions.head : Id _) with
  | .ok names => .ok (s.filter.select names)
  | .error f => .error (.gaveUp ("Cannot list changed files: " ++ f.message) analyzer true)

def fileDiff (s : Setting) (h : Host) (file : String) : String :=
  ((s.client h).fileDiff file s.versions.base s.versions.head : Id String)

def fileText (s : Setting) (h : Host) (file : String) : Except Fault (Option String) :=
  match (s.client h).fileText h.files file with
  | .ok text? => .ok text?
  | .error f => .error (.nameTooLong f)

def impact (s : Setting) (component file : String) (kind : ReasonKind)
    (source description : String) : Impact :=
  .single s.repo.name component file kind source description none

def impactAt (s : Setting) (line : Nat) (component file : String) (kind : ReasonKind)
    (source description : String) : Impact :=
  .single s.repo.name component file kind source description (some line)

end Setting

def withEnding (endings files : List String) : List String :=
  files.filter fun f => Text.endsWithAny f endings

def withBeginning (beginning : String) (files : List String) : List String :=
  files.filter (Text.startsWith · beginning)

def baseName (file : String) : String := (Path.ofString file).name

/-- The last name of a file without its last ending. -/
def baseStem (file : String) : String := (Path.ofString file).stem

end Ripple.Analysis
