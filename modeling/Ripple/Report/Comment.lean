import Ripple.Report.Markdown

/-!
The short report for a comment on a pull request: the totals, and everything else folded up.
-/
namespace Ripple.Report

namespace Comment

def folded (title : String) (lines : List String) : List String :=
  ["<details>", "<summary>" ++ title ++ "</summary>", ""] ++ lines ++ ["</details>", ""]

def opening (s : Summary) : List String :=
  [heading 2 "Impact Analysis", "",
    row ["Metric", "Value"],
    "|--------|-------|",
    row ["Changed Files", toString s.totalChangedFiles],
    row ["Impacted Components", toString s.totalImpactedComponents],
    row ["Breaking Changes", yesNo s.hasBreakingChanges], ""]

def impactLines (i : Impact) : List String :=
  ("- **" ++ i.component ++ "** (" ++ inCode i.file ++ ")") ::
    i.reasons.map fun r => Markdown.subItem r.description

def repoLines (repo : RepoResult) : List String :=
  if repo.impacts.isEmpty then []
  else [heading 3 repo.name, ""] ++ repo.impacts.flatMap impactLines ++ [""]

def crossLines (r : Record) : List String :=
  [heading 4 (r.sourceRepo ++ " -> " ++ r.targetRepo), "",
    "- **Via:** " ++ r.relation.text,
    "- **Source:** " ++ r.sourceComponent,
    "- **May affect:** " ++ Text.join ", " r.targets, ""]

def lines (r : Result) : List String :=
  opening r.summary ++
    if r.summary.totalImpactedComponents = 0 then ["**No component impacts detected.**"]
    else
      folded ("Impacted Components (" ++ toString r.summary.totalImpactedComponents ++ ")")
          (r.repos.flatMap repoLines) ++
        (if r.crossImpacts.isEmpty then []
          else folded ("Cross-Repository Impacts (" ++ toString r.crossImpacts.length ++ ")")
            (r.crossImpacts.flatMap crossLines)) ++
        ["---", "*Generated by " ++ toolName ++ " v" ++ r.about.version ++ "*"]

end Comment

/-- The comment for a pull request. -/
def comment (r : Result) : String := textOf (Comment.lines r)

end Ripple.Report
