import Ripple.Text.Basic
import Ripple.Text.Printable
import Ripple.Text.Similar

/-!
Reading the arguments of a command: options with two dashes, options with one dash that may be
written together, and everything else.
-/
namespace Ripple.Command

structure OptionForm where
  long : String
  short : Option Char
  takesValue : Bool
  deriving DecidableEq, Repr

inductive UsageFault where
  | noSuchOption (name : String) (similar : List String)
  | valueUnexpected (name : String)
  | valueMissing (name : String)
  | extraArguments (arguments : List String)
  | noSuchCommand (name : String) (similar : List String)
  | commandMissing
  /-- The value of an option is refused for a reason. -/
  | badValue (option : OptionForm) (reason : String)
  deriving DecidableEq, Repr

namespace UsageFault

/-- A message with a hint at what may have been meant. -/
def hinted (message kind : String) (similar : List String) : String :=
  match similar with
  | [] => message
  | [only] => message ++ " Did you mean " ++ Text.quoted only ++ "?"
  | several =>
    message ++ " (Possible " ++ kind ++ ": " ++
      Text.join ", " ((several.mergeSort (· ≤ ·)).map Text.quoted) ++ ")"

def message : UsageFault → String
  | noSuchOption name similar =>
    hinted ("No such option " ++ Text.quoted name ++ ".") "options" similar
  | valueUnexpected name => "Option " ++ Text.quoted name ++ " does not take a value."
  | valueMissing name => "Option " ++ Text.quoted name ++ " requires an argument."
  | extraArguments arguments =>
    "Got unexpected extra argument" ++ (if arguments.length = 1 then "" else "s") ++ " (" ++
      Text.join " " arguments ++ ")"
  | noSuchCommand name similar =>
    hinted ("No such command " ++ Text.quoted name ++ ".") "commands" similar
  | commandMissing => "Missing command."
  | badValue option reason =>
    let names := option.long :: option.short.toList.map fun c => String.ofList ['-', c]
    "Invalid value for " ++ Text.join " / " (names.map fun n => "'" ++ n ++ "'") ++ ": " ++ reason

/-- Whether the usage of the command is shown along with the message. -/
def showsUsage : UsageFault → Bool
  | valueUnexpected _ | valueMissing _ => false
  | _ => true

end UsageFault

/-- Arguments that have been read: the options with their values in order, and the rest. -/
structure Arguments where
  options : List (OptionForm × String)
  rest : List String
  deriving DecidableEq, Repr

namespace Arguments

def value? (a : Arguments) (long : String) : Option String :=
  (a.options.reverse.find? fun (o, _) => o.long = long).map (·.2)

def has (a : Arguments) (long : String) : Bool := (a.value? long).isSome

def add (a : Arguments) (o : OptionForm) (value : String) : Arguments :=
  { a with options := a.options ++ [(o, value)] }

end Arguments

def takeValue (name : String) : List String → Except UsageFault (String × List String)
  | [] => .error (.valueMissing name)
  | value :: rest => .ok (value, rest)

def readLong (forms : List OptionForm) (name : String) (attached : Option String)
    (rest : List String) : Except UsageFault ((OptionForm × String) × List String) :=
  match forms.find? (·.long = name) with
  | none => .error (.noSuchOption name (Text.Similar.resembling name (forms.map (·.long))))
  | some form =>
    if form.takesValue then
      (takeValue name (attached.toList ++ rest)).map fun (value, rest) => ((form, value), rest)
    else
      match attached with
      | some _ => .error (.valueUnexpected name)
      | none => .ok ((form, ""), rest)

/-- Reads options written together behind one dash. The text behind one that takes a value is its
value. -/
def readShort (forms : List OptionForm) :
    List Char → List String → Except UsageFault (List (OptionForm × String) × List String)
  | [], rest => .ok ([], rest)
  | c :: more, rest =>
    let name := String.ofList ['-', c]
    match forms.find? (·.short = some c) with
    | none => .error (.noSuchOption name [])
    | some form =>
      if form.takesValue then
        let attached := if more.isEmpty then [] else [String.ofList more]
        (takeValue name (attached ++ rest)).map fun (value, rest) => ([(form, value)], rest)
      else
        (readShort forms more rest).map fun (others, rest) => ((form, "") :: others, rest)

/-- Reads arguments. Unless `interspersed`, the first one that is no option ends the options. -/
def readArguments (forms : List OptionForm) (interspersed : Bool) :
    Nat → Arguments → List String → Except UsageFault Arguments
  | 0, done, _ => .ok done
  | _ + 1, done, [] => .ok done
  | fuel + 1, done, argument :: rest =>
    match argument.toList with
    | ['-', '-'] => .ok { done with rest := done.rest ++ rest }
    | '-' :: c :: more =>
      let name := argument.toList.takeWhile (· != '=')
      let attached :=
        if name.length < argument.length then
          some (String.ofList (argument.toList.drop (name.length + 1)))
        else none
      match readLong forms (String.ofList name) attached rest with
      | .ok ((form, value), rest) =>
        readArguments forms interspersed fuel (done.add form value) rest
      | .error f =>
        let isUnknown := match f with
          | .noSuchOption .. => true
          | _ => false
        if c = '-' || !isUnknown then .error f
        else
          match readShort forms (c :: more) rest with
          | .ok (found, rest) =>
            readArguments forms interspersed fuel { done with options := done.options ++ found }
              rest
          | .error f => .error f
    | _ =>
      if interspersed then
        readArguments forms interspersed fuel { done with rest := done.rest ++ [argument] } rest
      else .ok { done with rest := done.rest ++ argument :: rest }

def argumentsOf (forms : List OptionForm) (interspersed : Bool) (arguments : List String) :
    Except UsageFault Arguments :=
  readArguments forms interspersed (arguments.length + 1) ⟨[], []⟩ arguments

end Ripple.Command
