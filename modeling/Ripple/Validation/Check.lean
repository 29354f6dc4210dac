import Ripple.Value.Basic

/-!
Validation of documents: a check turns a `Value` into a meaningful one, or collects everything that
is wrong with it, each complaint with its place. A check may also break off altogether, when a value
is of a kind that one of its steps cannot handle.
-/
namespace Ripple

/-- One step down into a document. -/
inductive Step where
  | index (n : Nat)
  | key (name : String)
  deriving DecidableEq, Repr

inductive Flaw where
  | missing
  | surplus
  | textExpected
  | textUnreadable
  | textTooShort (least : Nat)
  | textTooLong (most : Nat)
  | integerExpected
  | integerUnreadable
  | integerTooLong
  | integerHasFraction
  | notFinite
  | truthExpected
  | truthUnreadable
  /-- None of the members of a closed list of names. -/
  | notMember (choices : List String)
  /-- None of a few fixed texts. -/
  | notLiteral (choices : List String)
  | listExpected
  | tupleExpected
  | tooFewItems (least actual : Nat)
  | recordExpected (name : String)
  | stampExpected
  | stampUnreadable (why : String)
  /-- Neither an instant nor a day. -/
  | dayUnreadable (why : String)
  | pathExpected
  | frozen
  /-- A rule of the domain is broken. -/
  | rule (text : String)
  deriving DecidableEq, Repr

namespace Flaw

def code : Flaw → String
  | .missing => "missing"
  | .surplus => "extra_forbidden"
  | .textExpected => "string_type"
  | .textUnreadable => "string_unicode"
  | .textTooShort _ => "string_too_short"
  | .textTooLong _ => "string_too_long"
  | .integerExpected => "int_type"
  | .integerUnreadable => "int_parsing"
  | .integerTooLong => "int_parsing_size"
  | .integerHasFraction => "int_from_float"
  | .notFinite => "finite_number"
  | .truthExpected => "bool_type"
  | .truthUnreadable => "bool_parsing"
  | .notMember _ => "enum"
  | .notLiteral _ => "literal_error"
  | .listExpected => "list_type"
  | .tupleExpected => "tuple_type"
  | .tooFewItems .. => "too_short"
  | .recordExpected _ => "model_type"
  | .stampExpected => "datetime_type"
  | .stampUnreadable _ => "datetime_parsing"
  | .dayUnreadable _ => "datetime_from_date_parsing"
  | .pathExpected => "path_type"
  | .frozen => "frozen_instance"
  | .rule _ => "value_error"

def counted (n : Nat) (noun : String) : String :=
  toString n ++ " " ++ noun ++ (if n = 1 then "" else "s")

/-- Quoted names, separated by commas and an "or" before the last. -/
def alternatives : List String → String
  | [] => ""
  | [a] => "'" ++ a ++ "'"
  | [a, b] => "'" ++ a ++ "' or '" ++ b ++ "'"
  | a :: rest => "'" ++ a ++ "', " ++ alternatives rest

def message : Flaw → String
  | .missing => "Field required"
  | .surplus => "Extra inputs are not permitted"
  | .textExpected => "Input should be a valid string"
  | .textUnreadable =>
    "Input should be a valid string, unable to parse raw data as a unicode string"
  | .textTooShort least => "String should have at least " ++ counted least "character"
  | .textTooLong most => "String should have at most " ++ counted most "character"
  | .integerExpected => "Input should be a valid integer"
  | .integerUnreadable => "Input should be a valid integer, unable to parse string as an integer"
  | .integerTooLong => "Unable to parse input string as an integer, exceeded maximum size"
  | .integerHasFraction => "Input should be a valid integer, got a number with a fractional part"
  | .notFinite => "Input should be a finite number"
  | .truthExpected => "Input should be a valid boolean"
  | .truthUnreadable => "Input should be a valid boolean, unable to interpret input"
  | .notMember choices | .notLiteral choices => "Input should be " ++ alternatives choices
  | .listExpected => "Input should be a valid list"
  | .tupleExpected => "Input should be a valid tuple"
  | .tooFewItems least actual =>
    "List should have at least " ++ counted least "item" ++ " after validation, not " ++
      toString actual
  | .recordExpected name => "Input should be a valid dictionary or instance of " ++ name
  | .stampExpected => "Input should be a valid datetime"
  | .stampUnreadable why => "Input should be a valid datetime, " ++ why
  | .dayUnreadable why => "Input should be a valid datetime or date, " ++ why
  | .pathExpected => "Input is not a valid path for <class 'pathlib.Path'>"
  | .frozen => "Instance is frozen"
  | .rule text => "Value error, " ++ text

end Flaw

structure Complaint where
  place : List Step
  flaw : Flaw
  deriving DecidableEq, Repr

/-- Why a check broke off. -/
inductive Break where
  /-- A path was expected and the value is of a kind that has no user directory to expand. -/
  | notPathLike (kindName : String)
  /-- A path names the home directory of an unknown user. -/
  | unknownHome
  /-- A path has half of a surrogate pair, which no file system takes. -/
  | unencodable
  deriving DecidableEq, Repr

def Break.message : Break → String
  | .notPathLike kindName => "'" ++ kindName ++ "' object has no attribute 'expanduser'"
  | .unknownHome => "Could not determine home directory."
  | .unencodable => "'utf-8' codec can't encode a path: surrogates not allowed"

/-- The outcome of checking a value. -/
inductive Check (α : Type) where
  | valid (a : α)
  | flawed (complaints : List Complaint)
  | broken (why : Break)
  deriving DecidableEq, Repr

namespace Check

protected def map {α β : Type} (f : α → β) : Check α → Check β
  | .valid a => .valid (f a)
  | .flawed cs => .flawed cs
  | .broken why => .broken why

/-- Both outcomes: all complaints are kept, and the first break counts. -/
protected def seq {α β : Type} (f : Check (α → β)) (x : Check α) : Check β :=
  match f, x with
  | .broken why, _ => .broken why
  | _, .broken why => .broken why
  | .valid f, .valid a => .valid (f a)
  | .flawed cs, .valid _ => .flawed cs
  | .valid _, .flawed cs => .flawed cs
  | .flawed cs, .flawed ds => .flawed (cs ++ ds)

/-- A further check of a valid value. -/
protected def andThen {α β : Type} (x : Check α) (f : α → Check β) : Check β :=
  match x with
  | .valid a => f a
  | .flawed cs => .flawed cs
  | .broken why => .broken why

instance : Functor Check where
  map := Check.map

instance : Seq Check where
  seq f x := Check.seq f (x ())

instance : Pure Check where
  pure := .valid

def fail {α : Type} (flaw : Flaw) : Check α := .flawed [⟨[], flaw⟩]

/-- The check of a part, whose complaints get one step more. -/
def under {α : Type} (step : Step) : Check α → Check α
  | .valid a => .valid a
  | .flawed cs => .flawed (cs.map fun c => { c with place := step :: c.place })
  | .broken why => .broken why

def items {α : Type} (check : Value → Check α) : Nat → List Value → Check (List α)
  | _, [] => .valid []
  | n, v :: rest =>
    Check.seq (Check.map List.cons ((check v).under (.index n))) (items check (n + 1) rest)

end Check

/-- How a kind of value is checked. -/
abbrev Checker (α : Type) := Value → Check α

namespace Checker

def text : Checker String
  | .text s => .valid s
  | .brokenText => .fail .textUnreadable
  | .bytes octets =>
    match String.fromUTF8? ⟨octets.toArray⟩ with
    | some s => .valid s
    | none => .fail .textUnreadable
  | _ => .fail .textExpected

def sizedText (least : Nat) (most : Option Nat) : Checker String := fun v =>
  (text v).andThen fun s =>
    if s.length < least then .fail (.textTooShort least)
    else
      match most with
      | some most => if most < s.length then .fail (.textTooLong most) else .valid s
      | none => .valid s

def member {α : Type} (choices : List (String × α)) : Checker α
  | .text s =>
    match choices.lookup s with
    | some a => .valid a
    | none => .fail (.notMember (choices.map (·.1)))
  | _ => .fail (.notMember (choices.map (·.1)))

def literal {α : Type} (choices : List (String × α)) : Checker α
  | .text s =>
    match choices.lookup s with
    | some a => .valid a
    | none => .fail (.notLiteral (choices.map (·.1)))
  | _ => .fail (.notLiteral (choices.map (·.1)))

def optional {α : Type} (check : Checker α) : Checker (Option α)
  | .null => .valid none
  | v => (check v).map some

def list {α : Type} (check : Checker α) : Checker (List α)
  | .list vs | .set vs => Check.items check 0 vs
  | _ => .fail .listExpected

/-- A list of fixed content; it is written like a list. -/
def tuple {α : Type} (check : Checker α) : Checker (List α)
  | .list vs | .set vs => Check.items check 0 vs
  | _ => .fail .tupleExpected

def atLeast {α : Type} (least : Nat) (check : Checker (List α)) : Checker (List α) := fun v =>
  (check v).andThen fun as =>
    if as.length < least then .fail (.tooFewItems least as.length) else .valid as

def record {α : Type} (name : String) (fields : List (Value × Value) → Check α) : Checker α
  | .map entries => fields entries
  | _ => .fail (.recordExpected name)

def required {α : Type} (name : String) (check : Checker α) (entries : List (Value × Value)) :
    Check α :=
  match Value.find? name entries with
  | some v => (check v).under (.key name)
  | none => (Check.fail .missing).under (.key name)

def defaulted {α : Type} (name : String) (check : Checker α) (default : α)
    (entries : List (Value × Value)) : Check α :=
  match Value.find? name entries with
  | some v => (check v).under (.key name)
  | none => .valid default

end Checker

end Ripple
