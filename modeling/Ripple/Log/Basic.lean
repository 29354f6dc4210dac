import Ripple.Config.Basic
import Ripple.Log.Rotation
import Ripple.Log.Template

/-!
The log: which events are shown, and how. Events come from this program, with a named level and
places in braces, or from libraries, with a numbered level and places behind percent signs.
-/
namespace Ripple.Log

structure Level where
  name : String
  severity : Nat
  deriving DecidableEq, Repr

namespace Level

def named : List Level :=
  [⟨"TRACE", 5⟩, ⟨"DEBUG", 10⟩, ⟨"INFO", 20⟩, ⟨"SUCCESS", 25⟩, ⟨"WARNING", 30⟩, ⟨"ERROR", 40⟩,
    ⟨"CRITICAL", 50⟩]

/-- The level of a library's event. Only the levels that libraries know by name have one. -/
def ofSeverity (n : Nat) : Level :=
  match [10, 20, 30, 40, 50].contains n, named.find? (·.severity = n) with
  | true, some level => level
  | _, _ => ⟨"Level " ++ toString n, n⟩

end Level

structure Event where
  level : Level
  /-- The repository that it is about. -/
  repo : String
  message : String
  deriving DecidableEq, Repr

/-- What stands for the repository of an event that is about none. -/
def noRepo : String := "-"

inductive Call where
  | own (level : String) (message : String) (arguments : List Argument) (repo : Option String)
  | library (severity : Int) (message : String) (arguments : List Argument)
  deriving DecidableEq, Repr

inductive Fault where
  | unknownLevel (name : String)
  | template (f : TemplateFault)
  | rotation (f : RotationFault)
  deriving DecidableEq, Repr

def Fault.message : Fault → String
  | .unknownLevel name => "Level '" ++ name ++ "' does not exist"
  | .template f => f.message
  | .rotation f => f.message

/-- The event that a request leads to if events below `threshold` are dropped. A dropped event of
the program is not even put together; one of a library is. -/
def Call.event? (threshold : Nat) : Call → Except Fault (Option Event)
  | .own name message arguments repo => do
    let some level := Level.named.find? (·.name = name) | throw (.unknownLevel name)
    if level.severity < threshold then return none
    let filled ←
      if arguments.isEmpty then pure message
      else (fillBraces message arguments).mapError .template
    return some ⟨level, repo.getD noRepo, filled⟩
  | .library severity message arguments => do
    if severity ≤ 0 then return none
    let filled ←
      if arguments.isEmpty then pure message
      else (fillPercent message arguments).mapError .template
    let level := Level.ofSeverity severity.toNat
    return if level.severity < threshold then none else some ⟨level, noRepo, filled⟩

/-- The event that tells how the log was set up. -/
def setUpCall (c : LoggingConfig) : Call :=
  .own "DEBUG" "Logging configured (level=\x7b\x7d, format=\x7b\x7d)"
    [.text c.level.text, .text c.format.text] none

/-- Whether a log can be set up as configured. Rotation only matters where there is a file. -/
def checkConfig (c : LoggingConfig) : Except Fault Unit :=
  if c.file.isSome then do
    (Rotation.checkRotation c.rotation).mapError .rotation
    (Rotation.checkRetention c.retention).mapError .rotation
  else .ok ()

/-- The events shown for requests, the first one about the set-up. -/
def events (c : LoggingConfig) (calls : List Call) : Except Fault (List Event) := do
  checkConfig c
  let shown ← (setUpCall c :: calls).mapM (Call.event? c.level.severity)
  return shown.filterMap id

def Event.consoleLine (e : Event) : String :=
  Text.padRight 7 e.level.name ++ " [" ++ e.repo ++ "] " ++ e.message

/-- The fields of an event's line in a file that do not depend on time and place. -/
def Event.fileFields (e : Event) : List String :=
  [Text.padRight 8 e.level.name, e.repo, e.message]

end Ripple.Log
