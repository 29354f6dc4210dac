import Ripple.Files.Path
import Ripple.Relation.Basic

/-!
Configurations: the repositories to analyse, the relations between them, where reports go and what
is logged.
-/
namespace Ripple

inductive RepoKind where
  | angular
  | react
  | vue
  | nextjs
  | graphqlNode
  | go
  | node
  deriving DecidableEq, Repr

namespace RepoKind

def text : RepoKind → String
  | .angular => "angular"
  | .react => "react"
  | .vue => "vue"
  | .nextjs => "nextjs"
  | .graphqlNode => "graphql-node"
  | .go => "go"
  | .node => "node"

def all : List RepoKind := [.angular, .react, .vue, .nextjs, .graphqlNode, .go, .node]

end RepoKind

inductive AnalyzerKind where
  | nx
  | tsMorph
  | madge
  | graphqlInspector
  | goAst
  deriving DecidableEq, Repr

namespace AnalyzerKind

def text : AnalyzerKind → String
  | .nx => "nx"
  | .tsMorph => "ts-morph"
  | .madge => "madge"
  | .graphqlInspector => "graphql-inspector"
  | .goAst => "go-ast"

def all : List AnalyzerKind := [.nx, .tsMorph, .madge, .graphqlInspector, .goAst]

end AnalyzerKind

structure Repository where
  name : String
  path : Path
  kind : RepoKind
  analyzers : List AnalyzerKind
  includePaths : Option (List String)
  excludePaths : Option (List String)
  deriving DecidableEq, Repr

inductive ReportFormat where
  | json
  | markdown
  | github
  deriving DecidableEq, Repr

namespace ReportFormat

def text : ReportFormat → String
  | .json => "json"
  | .markdown => "markdown"
  | .github => "github"

def all : List ReportFormat := [.json, .markdown, .github]

end ReportFormat

structure OutputConfig where
  directory : Path
  formats : List ReportFormat
  deriving DecidableEq, Repr

/-- How severe a log event has to be to be shown. -/
inductive LogLevel where
  | debug
  | info
  | warning
  | error
  deriving DecidableEq, Repr

namespace LogLevel

def text : LogLevel → String
  | .debug => "DEBUG"
  | .info => "INFO"
  | .warning => "WARNING"
  | .error => "ERROR"

def all : List LogLevel := [.debug, .info, .warning, .error]

def severity : LogLevel → Nat
  | .debug => 10
  | .info => 20
  | .warning => 30
  | .error => 40

end LogLevel

/-- Whether log lines are for people or for programs. -/
inductive LogFormat where
  | console
  | json
  deriving DecidableEq, Repr

namespace LogFormat

def text : LogFormat → String
  | .console => "console"
  | .json => "json"

def all : List LogFormat := [.console, .json]

end LogFormat

structure LoggingConfig where
  level : LogLevel
  format : LogFormat
  file : Option Path
  rotation : String
  retention : String
  deriving DecidableEq, Repr

structure Config where
  repos : List Repository
  relations : List Relation
  output : OutputConfig
  logging : LoggingConfig
  deriving DecidableEq, Repr

namespace Config

def repository? (c : Config) (name : String) : Option Repository := c.repos.find? (·.name = name)

/-- The repository names that occur more than once, each once, in alphabetical order. -/
def duplicateNames (names : List String) : List String :=
  (distinct (names.filter fun n => 1 < names.count n)).mergeSort (· ≤ ·)

/-- The first rule that a configuration breaks, in words. -/
def brokenRule? (c : Config) : Option String :=
  let names := c.repos.map (·.name)
  let duplicates := duplicateNames names
  if !duplicates.isEmpty then
    some ("Duplicate repository names: " ++ Text.join ", " duplicates)
  else if c.relations.any fun r => !names.contains r.source || !names.contains r.target then
    some "All relation references must point to defined repositories"
  else none

end Config

end Ripple
