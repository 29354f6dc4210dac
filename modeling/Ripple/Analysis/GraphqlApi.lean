import Ripple.Analysis.Basic
import Ripple.Analysis.Handler
import Ripple.Graphql.Comparison

/-!
The analyzer for GraphQL services and clients. It compares the schema of two versions, and it
reports changed resolvers and operations.
-/
namespace Ripple.Analysis.GraphqlApi

open Graphql (SchemaChange Criticality)

def name : String := "graphql"

/-- The places where a schema is looked for, in order of preference. -/
def schemaCandidates : List String :=
  ["schema.graphql", "src/schema.graphql", "src/graphql/schema.graphql", "graphql/schema.graphql",
    "src/schema/schema.graphql", "schema/schema.graphql"]

def endings : List String := [".graphql", ".gql"]

/-- The schema file of a repository: the first candidate that is there, or the first one. -/
def findSchema (files : FileTree) (directory : Path) : List String → Except NameTooLong String
  | [] => .ok "schema.graphql"
  | candidate :: rest => do
    if ← files.exists? (directory.join (Path.ofString candidate)) then return candidate
    findSchema files directory rest

def changedComponent (c : SchemaChange) : String := if c.path = "" then "GraphQL Schema" else c.path

def reasonOf (c : Criticality) : ReasonKind := if c = .breaking then .schema else .direct

def describe (c : SchemaChange) : String := "[" ++ c.criticality.text ++ "] " ++ c.message

def schemaImpacts (s : Setting) (schemaPath : String) (changes : List SchemaChange) : List Impact :=
  changes.map fun c =>
    s.impact (changedComponent c) schemaPath (reasonOf c.criticality) "schema-diff" (describe c)

/-- The impacts of changed schema files for which no change of the schema is known. -/
def schemaFileImpacts (s : Setting) (files : List String) : List Impact :=
  (withEnding endings files).map fun file =>
    s.impact "GraphQL Schema" file .schema file "GraphQL schema file was modified"

def schemaVersion (s : Setting) (h : Host) (schemaPath version : String) : Option String :=
  ((s.client h).showFile version schemaPath : Id _)

/-- The changes of the schema between the two versions. There are none if one of them lacks the
schema or has one that cannot be built. -/
def schemaChanges (s : Setting) (h : Host) (schemaPath : String) : List SchemaChange :=
  match schemaVersion s h schemaPath s.versions.base,
    schemaVersion s h schemaPath s.versions.head with
  | some old, some new =>
    match Graphql.schemaChanges old new with
    | .ok changes => changes
    | .error _ => []
  | _, _ => []

/-- The impacts of what is known about the schema: its changes or, if there are none, the changed
files. -/
def ofSchema (s : Setting) (h : Host) (schemaPath : String) (changed : List String) :
    List Impact :=
  let changes := schemaChanges s h schemaPath
  if changes.isEmpty then schemaFileImpacts s changed else schemaImpacts s schemaPath changes

def dropEnding (ending s : String) : Option String :=
  if Text.endsWith s ending then some (String.ofList (s.toList.take (s.length - ending.length)))
  else none

def resolverName (file : String) : String :=
  let stem := baseStem file
  ((dropEnding ".resolver" stem).or (dropEnding "Resolver" stem)).getD stem

def resolverDecorator : Regex :=
  let quote : Regex := .oneOf false [.range 39 39, .range 34 34]
  .concat [.char '@', .group 1 (.alt (.literal "Query".toList) (.literal "Mutation".toList)),
    .char '(', .loop 0 (some 1) false (.concat [quote, .group 2 (wordChars 1), quote]), .char ')']

def namedOperation : Regex :=
  .concat [.alt (.literal "query".toList) (.alt (.literal "mutation".toList)
      (.literal "subscription".toList)),
    .oneOf false [.blank false], blanks, .group 1 (wordChars 1)]

def resolverImpacts (s : Setting) (file diff : String) : List Impact :=
  let resolver := resolverName file
  s.impact (resolver ++ " Resolver") file .direct file
    ("Resolver " ++ resolver ++ " was modified") ::
    (resolverDecorator.findAll diff.toList).map fun groups =>
      let kind := (groups.text? 1).getD ""
      let operation := (groups.text? 2).getD "unknown"
      s.impact (kind ++ ": " ++ operation) file .direct file
        (kind ++ " " ++ operation ++ " resolver was modified")

def operationImpacts (s : Setting) (file content : String) : List Impact :=
  let operations :=
    (namedOperation.findAll content.toList).map fun groups => (groups.text? 1).getD ""
  if content = "" then []
  else if operations.isEmpty then
    [s.impact (baseName file) file .direct file "GraphQL file was modified"]
  else
    operations.map fun operation =>
      s.impact operation file .direct file ("GraphQL operation " ++ operation ++ " was modified")

/-- The impacts of all changed files with operations; the schema's own files have none. -/
def operationsIn (s : Setting) (h : Host) : List String → Except Fault (List Impact)
  | [] => .ok []
  | file :: rest => do
    if Text.has file "schema" then operationsIn s h rest
    else
      let content? ← s.fileText h file
      let others ← operationsIn s h rest
      return operationImpacts s file (content?.getD "") ++ others

def isSchemaFile (file : String) : Bool :=
  Text.has file "schema" || Text.has file "typeDefs" || Text.endsWith file ".graphql"

def isResolverFile (file : String) : Bool := Text.hasAny file ["resolver", "Resolver"]

def impacts (s : Setting) (h : Host) (schemaPath : String) (changed : List String) :
    Except Fault (List Impact) := do
  let documents := withEnding endings changed
  let schemas := changed.filter isSchemaFile
  let resolvers := changed.filter isResolverFile
  if documents.isEmpty && schemas.isEmpty && resolvers.isEmpty then return []
  let ofResolvers := resolvers.flatMap fun file => resolverImpacts s file (s.fileDiff h file)
  let ofOperations ← operationsIn s h documents
  return Impact.merge (ofSchema s h schemaPath schemas ++ ofResolvers ++ ofOperations)

def analyze (s : Setting) (schemaPath : String) (h : Host) : Except Fault (List Impact) := do
  impacts s h schemaPath (← s.changedFiles h name)

def analyzers : AnalyzerClass where
  handles _ := true
  make h repo versions := do
    let s ← Setting.make repo versions
    let schemaPath ← (findSchema h.files repo.path schemaCandidates).mapError .nameTooLong
    return ⟨name, some schemaPath, analyze s schemaPath⟩

end Ripple.Analysis.GraphqlApi
