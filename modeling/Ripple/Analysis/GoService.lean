import Ripple.Analysis.Basic
import Ripple.Analysis.Handler
import Ripple.Outline.GoFile

/-!
The analyzer for Go projects. It reports handlers, structs that are written as JSON, interfaces, the
use of queues and gateways, and changes to the module's dependencies or the environment.
-/
namespace Ripple.Analysis.GoService

def name : String := "go"

def queueMarkers : List String := ["events.SQSEvent", "sqs."]

def gatewayMarkers : List String :=
  ["events.APIGatewayProxyRequest", "events.APIGatewayV2HTTPRequest"]

def quoteMark : Regex := .oneOf false [.range 34 34, .range 39 39]

def environmentRead : Regex :=
  .concat [.literal "os.Getenv".toList, blanks, .char '(', blanks, quoteMark, wordChars 1,
    quoteMark, blanks, .char ')']

def dependencyImpacts (s : Setting) (files : List String) : List Impact :=
  (withEnding ["go.mod", "go.sum"] files).map fun file =>
    s.impact "Go Dependencies" file .dependency file
      "Go module dependencies changed - may affect all functions"

def fileImpacts (s : Setting) (file content diff : String) : List Impact :=
  let found := Outline.GoFile.read content
  let stem := baseStem file
  let handlers := found.functions.filter fun f => isHandler content.toList f.name
  let contracts := found.structs.filter (·.hasJsonTags)
  handlers.map (fun f =>
      s.impactAt f.line ("Lambda: " ++ f.name) file .direct file
        ("Lambda handler " ++ f.name ++ " was modified")) ++
    contracts.map (fun t =>
      s.impactAt t.line ("Struct: " ++ t.name) file .schema file
        ("Data structure " ++ t.name ++ " was modified - may affect API contract")) ++
    found.interfaces.map (fun i =>
      s.impactAt i.line ("Interface: " ++ i.name) file .direct file
        ("Interface " ++ i.name ++ " was modified")) ++
    (if Text.hasAny content queueMarkers then
      [s.impact ("SQS Handler: " ++ stem) file .direct file "SQS message handler was modified"]
    else []) ++
    (if Text.hasAny content gatewayMarkers then
      [s.impact ("API Handler: " ++ stem) file .direct file "API Gateway handler was modified"]
    else []) ++
    if environmentRead.occursIn diff.toList then
      [s.impact "Environment Config" file .config file
        ("Environment variable usage changed in " ++ baseName file)]
    else []

def readAll (s : Setting) (h : Host) : List String → Except Fault (List (String × String))
  | [] => .ok []
  | file :: rest => do
    let content? ← s.fileText h file
    let others ← readAll s h rest
    return content?.toList.map (file, ·) ++ others

def impacts (s : Setting) (h : Host) (changed : List String) : Except Fault (List Impact) := do
  let contents ← readAll s h (distinct (withEnding [".go"] changed))
  let found := contents.flatMap fun (file, content) =>
    fileImpacts s file content (s.fileDiff h file)
  return Impact.merge (dependencyImpacts s changed ++ found)

def analyze (s : Setting) (h : Host) : Except Fault (List Impact) := do
  impacts s h (← s.changedFiles h name)

def analyzers : AnalyzerClass where
  handles _ := true
  make _ repo versions := do
    let s ← Setting.make repo versions
    return ⟨name, none, analyze s⟩

end Ripple.Analysis.GoService
