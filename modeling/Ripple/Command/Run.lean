import Ripple.Command.Basic
import Ripple.Command.Help
import Ripple.Config.Template
import Ripple.Outline.ScriptFile
import Ripple.Regex.Names

/-!
The commands: analysing a change, checking a configuration file, and making one to start from.
-/
namespace Ripple.Command

def helpOption : OptionForm := ⟨"--help", none, false⟩

def configOption : OptionForm := ⟨"--config", some 'c', true⟩

def outputOption : OptionForm := ⟨"--output", some 'o', true⟩

def formatOption : OptionForm := ⟨"--format", some 'f', true⟩

inductive Name where
  | analyze
  | init
  | validate
  deriving DecidableEq, Repr

namespace Name

def text : Name → String
  | .analyze => "analyze"
  | .init => "init"
  | .validate => "validate"

def all : List Name := [.analyze, .init, .validate]

def forms : Name → List OptionForm
  | .analyze =>
    [configOption, ⟨"--base", some 'b', true⟩, ⟨"--head", none, true⟩, outputOption, formatOption,
      helpOption]
  | .init => [formatOption, helpOption]
  | .validate => [configOption, helpOption]

def help : Name → List String
  | .analyze => Help.analyze
  | .init => Help.init
  | .validate => Help.validate

end Name

/-- Ends a command whose arguments are wrong, with the usage of the command if it helps. -/
def refuse {α : Type} (command usage : String) (f : UsageFault) : Program α := do
  if f.showsUsage then
    complain ("Usage: " ++ command ++ " " ++ usage)
    complain ("Try '" ++ command ++ " --help' for help.")
    complain ""
  complain ("Error: " ++ f.message)
  exit 2

def fail {α : Type} (message : String) : Program α := do
  complain ("Error: " ++ message)
  exit 1

def resolveConfig (w : World) (named : Option String) : Program Path := do
  match named with
  | some s => return Path.ofString s
  | none =>
    match ← orCrash .path (Config.find? w.host.files ⟨"/", w.host.files.current⟩) with
    | some p => return p
    | none => fail "No config file found. Run 'impact init' to create one or pass --config."

/-- Whether a fault is one of the configuration file's content, and not one of reading it. -/
def isContentFault : Config.LoadFault → Bool
  | .missing _ | .undecodable _ | .json .. | .rootKind _ | .nulInPath | .settings _
  | .brokenOff .unencodable => true
  | .yaml f =>
    match f with
    | .escapeTooLarge n => n < Nat.pow 2 31
    | .endless | .emptyNumber | .badBoolean _ | .badTimestamp => false
    | _ => true
  | _ => false

def loadConfig (w : World) (p : Path) : Program Config := do
  match Config.load w.homes w.environment w.host.files p with
  | .ok c => return c
  | .error f =>
    match f with
    | .invalid _ complaints =>
      complain ("Config validation failed: " ++ f.message)
      complaints.forM fun c => complain ("  - " ++ c)
      exit 1
    | _ =>
      if isContentFault f then
        complain ("Failed to load config: " ++ f.message)
        exit 1
      else throw (.crash (.load f))

/-- Sets up the log. A log file that is missing is made. -/
def setUpLog (c : LoggingConfig) : Program Unit := do
  orCrash .log (Log.checkConfig c)
  match c.file with
  | none => return
  | some file =>
    let files := (← get).files
    let p := files.resolve file
    let files ← orCrash .file (files.makePath p.names.length p.parent)
    if (← orCrash .path (files.file? p)).isNone then
      let files ← orCrash .file (files.writeText p "")
      modify fun c => { c with files }

def formatNames (s : String) : List String :=
  ((Text.split ',' s).map Text.strip).filter fun name => name ≠ ""

def repoLines (r : RepoResult) : List String :=
  ("  " ++ (if r.errors.isEmpty then "[OK]" else "[WARN]") ++ " " ++ r.name ++ ": " ++
      toString r.changedFiles ++ " changed files, " ++ toString r.impacts.length ++ " impacts") ::
    r.errors.map ("         " ++ ·)

def totalLines (s : Summary) : List String :=
  ["", "Analysis complete",
    "  Total changed files: " ++ toString s.totalChangedFiles,
    "  Total impacted components: " ++ toString s.totalImpactedComponents] ++
  if s.hasBreakingChanges then ["  Breaking changes detected"] else []

variable [Regex.Names] [Outline.ScriptParser]

/-- Analyses what changed between two versions and writes the reports. -/
def analyze (w : World) (a : Arguments) : Program Unit := do
  let path ← resolveConfig w (a.value? "--config")
  let c ← loadConfig w path
  setUpLog c.logging
  let versions : Analysis.Versions :=
    ⟨(a.value? "--base").getD "origin/develop", (a.value? "--head").getD "HEAD"⟩
  let requested :=
    match a.value? "--format" with
    | none | some "" => c.output.formats.map ReportFormat.text
    | some s => formatNames s
  let directory := ((a.value? "--output").map Path.ofString).getD c.output.directory
  say ("Loaded config from " ++ path.toString)
  say ("Analyzing " ++ toString c.repos.length ++ " repositories (" ++ versions.base ++ "..." ++
    versions.head ++ ")")
  let run : Analysis.Run := ⟨.standard, .standard, w.host, versions, none, w.now⟩
  let result ← orCrash .run (run.result c)
  (result.repos.flatMap repoLines).forM say
  say ("Cross-repo impacts: " ++ toString result.crossImpacts.length)
  let written := Report.write result (← get).files directory requested
  modify fun c => { c with files := written.files }
  match written.fault with
  | some (.file f) => throw (.crash (.file f))
  | some f => fail f.message
  | none => pure ()
  written.paths.forM fun p => say ("Wrote " ++ p.toString)
  (totalLines result.summary).forM say

def validate (w : World) (a : Arguments) : Program Unit := do
  let path ← resolveConfig w (a.value? "--config")
  let c ← loadConfig w path
  say ("Config is valid: " ++ path.toString)
  say ("  Repositories: " ++ toString c.repos.length)
  say ("  Relations: " ++ toString c.relations.length)
  c.repos.forM fun repo => do
    if ← orCrash .path (w.host.files.exists? repo.path) then
      say ("  [OK] Repository '" ++ repo.name ++ "' at " ++ repo.path.toString)
    else say ("  [WARN] Repository '" ++ repo.name ++ "' path not found: " ++ repo.path.toString)

def init (a : Arguments) : Program Unit := do
  let format := (a.value? "--format").getD "yaml"
  let path := Path.ofString (Config.Template.fileName format)
  let files := (← get).files
  if ← orCrash .path (files.exists? path) then
    complain (path.toString ++ " already exists")
    exit 1
  let files ← orCrash .file (files.writeText path (Config.Template.text format))
  modify fun c => { c with files }
  say ("Created " ++ path.toString)
  say "Edit the config file to match your repository structure."

def badValue? (w : World) (name : Name) (a : Arguments) : Option UsageFault :=
  match name with
  | .analyze =>
    (a.value? "--output").bind fun s =>
      if ((w.host.files.file? (Path.ofString s)).toOption.join).isSome then
        some (.badValue outputOption ("Directory " ++ Text.quoted s ++ " is a file."))
      else none
  | .init =>
    (a.value? "--format").bind fun s =>
      if ["yaml", "json"].contains s then none
      else some (.badValue formatOption (Text.quoted s ++ " is not one of 'yaml', 'json'."))
  | .validate => none

def runNamed (w : World) (name : Name) (arguments : List String) : Program Unit := do
  let refused (f : UsageFault) : Program Unit := refuse ("impact " ++ name.text) "[OPTIONS]" f
  match argumentsOf name.forms true arguments with
  | .error f => refused f
  | .ok a =>
    if a.has "--help" then name.help.forM say
    else
      match badValue? w name a, a.rest with
      | some f, _ => refused f
      | none, _ :: _ => refused (.extraArguments a.rest)
      | none, [] =>
        match name with
        | .analyze => analyze w a
        | .init => init a
        | .validate => validate w a

def mainForms : List OptionForm := [⟨"--version", none, false⟩, helpOption]

def runMain (w : World) (arguments : List String) : Program Unit := do
  let refused (f : UsageFault) : Program Unit := refuse "impact" "[OPTIONS] COMMAND [ARGS]..." f
  if arguments.isEmpty then
    Help.overview.forM complain
    exit 2
  match argumentsOf mainForms false arguments with
  | .error f => refused f
  | .ok a =>
    match a.options, a.rest with
    | (form, _) :: _, _ =>
      if form = helpOption then Help.overview.forM say
      else say ("impact, version " ++ toolVersion)
    | [], [] => refused .commandMissing
    | [], command :: rest =>
      match Name.all.find? (·.text = command) with
      | some name => runNamed w name rest
      | none =>
        if Text.startsWith command "-" then
          match argumentsOf mainForms false (command :: rest) with
          | .error f => refused f
          | .ok _ => refused (.noSuchCommand command [])
        else
          refused (.noSuchCommand command
            (Text.Similar.resembling command (Name.all.map Name.text)))

def namedConfig? (arguments : List String) : Option Path :=
  match arguments with
  | command :: rest =>
    (Name.all.find? (·.text = command)).bind fun name =>
      ((argumentsOf name.forms true rest).toOption.bind (·.value? "--config")).map Path.ofString
  | [] => none

/-- The directories of the repositories in the configuration file that a command uses, as far as
they are not below the current one. -/
def repositoriesOutside (w : World) (arguments : List String) : List (List String) :=
  let files := w.host.files
  let found := (Config.find? files ⟨"/", files.current⟩).toOption.join
  let config? := ((namedConfig? arguments).or found).bind fun p =>
    (Config.load w.homes w.environment files p).toOption
  let places := (config?.elim [] (·.repos)).map fun repo => (files.resolve repo.path).names
  places.filter fun place => !files.current.isPrefixOf place

/-- How the program ends when it is started with arguments. -/
def run (w : World) (arguments : List String) : Outcome :=
  (runMain w arguments).outcome w.host.files

end Ripple.Command
