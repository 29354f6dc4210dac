import Ripple.Outline.Token
import Ripple.Text.Basic

/-!
Tokens of TypeScript source files. The lexer keeps track of the open brackets for two reasons: the
closing brace of a template's hole continues the template, and whether a slash starts a regular
expression behind a closing bracket depends on what the bracket was opened for. Behind a point every
word is a name, and an exclamation mark behind an operand on its line takes no operand of its own.
-/
namespace Ripple.Outline.ScriptSource

inductive Frame where
  /-- `expressionBehind` says that an expression may start behind the closing bracket. -/
  | bracket (expressionBehind : Bool)
  /-- a hole of a template -/
  | hole
  deriving DecidableEq, Repr

structure State where
  /-- The brackets that are open, the last one first. -/
  frames : List Frame
  /-- Whether an expression may start here, so that a slash is no division. -/
  expressionNext : Bool
  /-- Whether the last token is a point. -/
  isBehindPoint : Bool
  /-- Whether a line has ended since the last token. -/
  isLineBroken : Bool
  deriving DecidableEq, Repr

namespace State

def start : State := ⟨[], true, false, false⟩

/-- The state behind a token that is no bracket and no point. -/
def behind (state : State) (expressionNext : Bool) : State :=
  ⟨state.frames, expressionNext, false, false⟩

def past (state : State) (breaksLine : Bool) : State :=
  { state with isLineBroken := state.isLineBroken || breaksLine }

end State

/-- The marks of more than one character that matter, each before those it starts with. -/
def marks : List String :=
  ["...", "=>", "++", "--", ">=", "<=", "==", "!=", "?.", "**", "&&", "||", "??"]

/-- Words that ask for an operand. -/
def operandWords : List String :=
  ["return", "throw", "typeof", "delete", "new", "in", "instanceof", "case", "extends", "await",
    "yield"]

/-- Words behind which an expression starts. Among them are a type and a common name. -/
def expressionWords : List String := operandWords ++ ["void", "of", "do", "else"]

/-- Words whose round brackets are followed by a statement. -/
def conditionWords : List String := ["if", "while", "for", "with"]

/-- Whether a brace behind a token opens a block and not an object. -/
def opensBlock (state : State) : Option Token → Bool
  | none => true
  | some t =>
    t.isMark "=>" || t.isMark ";" || t.isWord "do" || t.isWord "else" || t.text == "\x7b" ||
      t.text == "\x7d" || !state.expressionNext

/-- The characters of names are all that serve no other purpose. -/
def isNameChar (c : Char) : Bool :=
  !(c.toNat < 32 || Text.isBlank c || [0x7f, 0xfeff, 0x2060, 0x200b].contains c.toNat ||
    ":;\x60\"'@.,|^&<=>+-*/\\%?!~()[]\x7b\x7d".toList.contains c)

/-- The length of a stretch of template up to and with its end or the start of a hole, and whether
it is the end. -/
def templateLength : List Char → Nat × Bool
  | [] => (0, true)
  | '\\' :: _ :: rest => ((templateLength rest).1 + 2, (templateLength rest).2)
  | '$' :: '\x7b' :: _ => (2, false)
  | c :: rest =>
    if c = '\x60' then (1, true) else ((templateLength rest).1 + 1, (templateLength rest).2)

/-- The length of a regular expression behind its first slash, its flags included, if it ends on
the line. -/
def patternLength (inClass : Bool) : List Char → Option Nat
  | [] => none
  | '\\' :: _ :: rest => (patternLength inClass rest).map (· + 2)
  | c :: rest =>
    if c = '\n' then none
    else if c = '/' ∧ !inClass then some ((rest.takeWhile Char.isAlpha).length + 1)
    else
      let inClass := if c = '[' then true else if c = ']' then false else inClass
      (patternLength inClass rest).map (· + 1)

def isLineEnd (c : Char) : Bool := c == '\n' || c == '\r' || c == '\u2028' || c == '\u2029'

def bracket (state : State) (previous : Option Token) (c : Char) : Piece State :=
  let opening (expressionBehind : Bool) : Piece State :=
    ⟨some .opening, 1, ⟨.bracket expressionBehind :: state.frames, true, false, false⟩⟩
  if c = '(' then opening (previous.any fun t => t.shape == .word && conditionWords.contains t.text)
  else if c = '[' then opening false
  else if c = '\x7b' then opening (opensBlock state previous)
  else
    let expressionBehind :=
      match state.frames with
      | .bracket expressionBehind :: _ => expressionBehind
      | _ => false
    ⟨some .closing, 1, ⟨state.frames.tail, expressionBehind, false, false⟩⟩

def behindMark (state : State) (mark : String) : State :=
  if mark = "." || mark = "?." then ⟨state.frames, false, true, false⟩
  else if mark = "++" || mark = "--" then state.behind false
  -- behind an operand the mark says that there is a value, unless a new statement starts with it
  else if mark = "!" then state.behind (state.expressionNext || state.isLineBroken)
  else state.behind true

/-- What stands at the start of a text behind the token `previous`. -/
def step (state : State) (previous : Option Token) (s : List Char) : Piece State :=
  let between (length : Nat) : Piece State :=
    ⟨none, length, state.past ((s.take length).any isLineEnd)⟩
  let operand (shape : Shape) (length : Nat) : Piece State :=
    ⟨some shape, length, state.behind false⟩
  match s with
  | [] => between 0
  | '/' :: '/' :: rest => between ((rest.takeWhile fun c => !isLineEnd c).length + 2)
  | '/' :: '*' :: rest => between (pairLength '*' '/' rest + 2)
  | c :: rest =>
    if Text.isBlank c || c == '\ufeff' || c == '\u2060' || c == '\u200b' then between 1
    else if c = '#' ∧ rest.head? = some '!' then between (s.takeWhile fun c => !isLineEnd c).length
    else if c = '"' || c = '\'' then operand .quoted (quotedLength c rest + 1)
    else if c = '\x60' then
      match templateLength rest with
      | (length, true) => operand .template (length + 1)
      | (length, false) => ⟨some .opening, length + 1, ⟨.hole :: state.frames, true, false, false⟩⟩
    else if c = '\x7d' ∧ state.frames.head? = some .hole then
      match templateLength rest with
      | (length, true) => ⟨some .closing, length + 1, ⟨state.frames.tail, false, false, false⟩⟩
      | (length, false) => ⟨some .mark, length + 1, state.behind true⟩
    else if c.isDigit || (c == '.' && (rest.head?.map Char.isDigit).getD false) then
      operand .number (numberAt s)
    else if isNameChar c then
      let word := s.takeWhile isNameChar
      ⟨some .word, word.length, state.behind
        (!state.isBehindPoint && expressionWords.contains (String.ofList word))⟩
    else if "([\x7b)]\x7d".toList.contains c then bracket state previous c
    else if c = '/' ∧ state.expressionNext then
      match patternLength false rest with
      | some length => operand .pattern (length + 1)
      | none => ⟨some .mark, 1, state.behind true⟩
    else
      let mark := (markAt? marks s).getD (String.singleton c)
      ⟨some .mark, mark.length, behindMark state mark⟩

end Ripple.Outline.ScriptSource
