import Ripple.Result.Basic

/-!
The full report in Markdown: the totals, a table of repositories, every impact with its reasons, and
the impacts across repositories.
-/
namespace Ripple.Report

def yesNo (b : Bool) : String := if b then "Yes" else "No"

def inCode (s : String) : String := "\x60" ++ s ++ "\x60"

def heading (level : Nat) (s : String) : String :=
  String.ofList (List.replicate level '#') ++ " " ++ s

def row (cells : List String) : String := "| " ++ Text.join " | " cells ++ " |"

def textOf (lines : List String) : String := Text.join "\n" lines ++ "\n"

namespace Markdown

/-- An item one level down, in a list that belongs to an item. -/
def subItem (s : String) : String := "  - " ++ s

def listItem (title : String) (items : List String) : List String :=
  if items.isEmpty then [] else ("- **" ++ title ++ ":**") :: items.map subItem

def opening (r : Result) : List String :=
  [heading 1 "Impact Analysis Report", "",
    "**Generated:** " ++ r.about.timestamp.longText,
    "**Base:** " ++ inCode r.about.baseRef,
    "**Head:** " ++ inCode r.about.headRef, "",
    heading 2 "Summary", "",
    row ["Metric", "Value"],
    "|--------|-------|",
    row ["Total Changed Files", toString r.summary.totalChangedFiles],
    row ["Total Impacted Components", toString r.summary.totalImpactedComponents],
    row ["Breaking Changes", yesNo r.summary.hasBreakingChanges], "",
    heading 2 "Per-Repository Summary", "",
    row ["Repository", "Changed Files", "Impacted Components"],
    "|------------|---------------|---------------------|"] ++
  r.summary.repos.map (fun s => row [s.name, toString s.changedFiles, toString s.impactCount]) ++
  ["", heading 2 "Detailed Impacts", ""]

def errorLines (repo : RepoResult) : List String :=
  if repo.errors.isEmpty then []
  else [heading 3 (repo.name ++ " (errors)"), ""] ++ repo.errors.map ("- " ++ ·) ++ [""]

def impactLines (i : Impact) : List String :=
  [heading 4 i.component, "", "- **File:** " ++ inCode i.file] ++
    listItem "Reasons" (i.reasons.map fun r => "[" ++ r.kind.text ++ "] " ++ r.description) ++
    listItem "Test hints" (i.testHints.getD []) ++ [""]

def repoLines (repo : RepoResult) : List String :=
  errorLines repo ++
    if repo.impacts.isEmpty then []
    else [heading 3 repo.name, ""] ++ repo.impacts.flatMap impactLines

def crossLines (r : Record) : List String :=
  [heading 3 (r.sourceRepo ++ " -> " ++ r.targetRepo), "",
    "- **Relation:** " ++ r.relation.text,
    "- **Source:** " ++ r.sourceComponent,
    "- **Potentially affected components:**"] ++ r.targets.map subItem ++ [""]

def lines (r : Result) : List String :=
  opening r ++ r.repos.flatMap repoLines ++
    if r.crossImpacts.isEmpty then []
    else
      [heading 2 "Cross-Repository Impacts", "", "These changes may affect other repositories:",
        ""] ++
        r.crossImpacts.flatMap crossLines

end Markdown

/-- The Markdown report. -/
def markdown (r : Result) : String := textOf (Markdown.lines r)

end Ripple.Report
