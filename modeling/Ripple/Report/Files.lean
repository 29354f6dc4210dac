import Ripple.Config.Basic
import Ripple.Files.Writing
import Ripple.Json.Writer
import Ripple.Report.Comment
import Ripple.Result.Document

/-!
Writing reports to files: one file for each requested form. Nothing is written if a form that is
asked for does not exist. A report that would show a count with too many digits is not written, nor
are those behind it.
-/
namespace Ripple.Report

def render (r : Result) : ReportFormat → String
  | .json => Json.render Json.pretty r.toValue
  | .markdown => markdown r
  | .github => comment r

def shownCounts (r : Result) : ReportFormat → List Int
  | .json => []
  | .markdown => r.summary.totalChangedFiles :: r.summary.totalImpactedComponents ::
      r.summary.repos.flatMap fun s => [s.changedFiles, s.impactCount]
  | .github => [r.summary.totalChangedFiles, r.summary.totalImpactedComponents]

/-- An integer with more digits is not put into words. -/
def digitLimit : Nat := 4300

/-- No count that the report shows has too many digits. -/
def Legible (r : Result) (format : ReportFormat) : Prop :=
  ∀ n ∈ shownCounts r format, (toString n.natAbs).length ≤ digitLimit

instance (r : Result) (format : ReportFormat) : Decidable (Legible r format) :=
  inferInstanceAs (Decidable (∀ n ∈ shownCounts r format, (toString n.natAbs).length ≤ digitLimit))

def fileName : ReportFormat → String
  | .json => "impact.json"
  | .markdown => "impact.md"
  | .github => "github-comment.md"

def format? (name : String) : Option ReportFormat := ReportFormat.all.find? (·.text = name)

/-- Why reports could not be written. -/
inductive Fault where
  | unknownFormats (names : List String)
  | longCount
  | file (f : WriteFault)
  deriving DecidableEq, Repr

def Fault.message : Fault → String
  | .unknownFormats names => "Unknown output format(s): " ++ Text.join ", " names
  | .longCount =>
    "Exceeds the limit (" ++ toString digitLimit ++ " digits) for integer string conversion; " ++
      "use sys.set_int_max_str_digits() to increase the limit"
  | .file f => f.message

/-- What writing left behind: the files, the reports written, and the fault that ended it. -/
structure Written where
  files : FileTree
  paths : List Path
  fault : Option Fault

/-- Writes reports one after another up to the first fault. -/
def writeEach (r : Result) (directory : Path) : Written → List ReportFormat → Written
  | w, [] => w
  | w, format :: rest =>
    if Legible r format then
      let path := directory.join (Path.ofString (fileName format))
      match w.files.writeText path (render r format) with
      | .ok files => writeEach r directory { w with files, paths := w.paths ++ [path] } rest
      | .error f => { w with fault := some (.file f) }
    else { w with fault := some .longCount }

/-- Writes the reports of the named forms into a directory, which is made if it is missing. -/
def write (r : Result) (files : FileTree) (directory : Path) (names : List String) : Written :=
  let names := distinct names
  let unknown := names.filter fun name => (format? name).isNone
  if unknown.isEmpty then
    match files.makePath directory.names.length directory with
    | .ok made => writeEach r directory ⟨made, [], none⟩ (names.filterMap format?)
    | .error f => ⟨files, [], some (.file f)⟩
  else ⟨files, [], some (.unknownFormats unknown)⟩

end Ripple.Report
