import Ripple.Git.Client

/-!
Clients whose commands turn out as a script says, with a record of what was started.
-/
namespace Ripple.Git

structure Session where
  /-- The outcomes still to come. -/
  script : List Outcome
  /-- The commands tried so far. -/
  commands : List (List String)
  /-- For each process that started, whether it had to be killed. -/
  killed : List Bool
  deriving DecidableEq, Repr

namespace Session

def start (script : List Outcome) : Session := ⟨script, [], []⟩

/-- Takes the next outcome for a command. Beyond the end of the script nothing can be started. -/
def execute (command : List String) : StateM Session Outcome := fun s =>
  let outcome := s.script.headD (.notStarted "")
  let killed :=
    match outcome with
    | .ended .. => [false]
    | .hung => [true]
    | .notStarted _ => []
  (outcome, ⟨s.script.tail, s.commands ++ [command], s.killed ++ killed⟩)

/-- A client that works off the script of a session. -/
def client (directory : Path) (timeout : String) : Client (StateM Session) :=
  ⟨directory, timeout, execute⟩

end Session

end Ripple.Git
