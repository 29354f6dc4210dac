import Ripple.Analysis.Pipeline
import Ripple.Command.Option
import Ripple.Config.File
import Ripple.Log.Basic
import Ripple.Report.Files

/-!
Commands as programs that print, change files and end with a code. What a program has printed and
written before it stops stays.
-/
namespace Ripple.Command

structure World where
  host : Analysis.Host
  homes : Homes
  /-- The environment variables. -/
  environment : List (String × String)
  now : Timestamp

/-- What a command has printed, and the files as it leaves them. -/
structure Console where
  output : String
  errors : String
  files : FileTree

/-- A fault that a command has no answer to. -/
inductive Crash where
  | load (f : Config.LoadFault)
  | run (f : Analysis.RunFault)
  | file (f : WriteFault)
  | log (f : Log.Fault)
  | path (f : NameTooLong)

def Crash.message : Crash → String
  | .load f => f.message
  | .run f => f.message
  | .file f => f.message
  | .log f => f.message
  | .path f => f.message

/-- The end of a command before its last step: with a code, or by a fault. -/
inductive Stop where
  | exit (code : Nat)
  | crash (c : Crash)

abbrev Program := ExceptT Stop (StateM Console)

def say (line : String) : Program Unit :=
  modify fun c => { c with output := c.output ++ line ++ "\n" }

def complain (line : String) : Program Unit :=
  modify fun c => { c with errors := c.errors ++ line ++ "\n" }

def exit {α : Type} (code : Nat) : Program α := throw (.exit code)

/-- The result of a step, whose fault ends the command. -/
def orCrash {α ε : Type} (crash : ε → Crash) : Except ε α → Program α
  | .ok a => return a
  | .error f => throw (.crash (crash f))

structure Outcome where
  code : Nat
  output : String
  errors : String
  files : FileTree
  crash : Option Crash

def Program.outcome (p : Program Unit) (files : FileTree) : Outcome :=
  let (ending, c) := p.run ⟨"", "", files⟩
  let ended (code : Nat) (crash : Option Crash) : Outcome :=
    ⟨code, c.output, c.errors, c.files, crash⟩
  match ending with
  | .ok () => ended 0 none
  | .error (.exit code) => ended code none
  | .error (.crash f) => ended 1 (some f)

end Ripple.Command
