import Ripple.Regex.Basic
import Ripple.Text.Basic

/-!
Go functions that run as Lambda handlers, recognised by the way their names are used in a file or
by the names themselves.
-/
namespace Ripple.Analysis

open Regex (concat literal)

def blanks : Regex := .loop 0 none false (.oneOf false [.blank false])

def wordChars (least : Nat) : Regex := .loop least none false (.oneOf false [.word false])

/-- A call of a registration function with the name, perhaps a member of something, as argument. -/
def registration (function name : String) : Regex :=
  concat [literal function.toList, blanks, .char '(', blanks, wordChars 0,
    .loop 0 (some 1) false (.char '.'), blanks, literal name.toList]

def handlerAssignment (name : String) : Regex :=
  concat [literal "Handler".toList, blanks, .alt (.char ':') (.char '='), blanks,
    literal name.toList]

def contextFirst (name : String) : Regex :=
  concat [literal name.toList, blanks, .char '(', blanks, literal "ctx".toList,
    .seq (.oneOf false [.blank false]) blanks,
    literal "context.Context".toList]

def handlerUses (name : String) : List Regex :=
  [registration "lambda.Start" name, registration "lambda.StartWithOptions" name,
    handlerAssignment name, contextFirst name]

/-- How the names of handlers start by convention. -/
def handlerBeginnings : List String := ["Handle", "Process", "Execute", "Run", "Handler"]

/-- Whether a function of a file looks like a handler. -/
def isHandler (content : List Char) (name : String) : Bool :=
  (handlerUses name).any (·.occursIn content) ||
    handlerBeginnings.any (Text.startsWith name)

end Ripple.Analysis
