import Ripple.Outline.Token
import Ripple.Text.Basic
import Ripple.Text.Word

/-!
Tokens of Go source files. A line end behind a token that can end a statement is a token too.
-/
namespace Ripple.Outline.GoSource

def keywords : List String :=
  ["break", "case", "chan", "const", "continue", "default", "defer", "else", "fallthrough", "for",
    "func", "go", "goto", "if", "import", "interface", "map", "package", "range", "return",
    "select", "struct", "switch", "type", "var"]

/-- The marks of more than one character, each before those it starts with. -/
def marks : List String :=
  ["...", "<<=", ">>=", "&^=", "++", "--", "&&", "||", "<-", ":=", "==", "!=", "<=", ">=", "&^",
    "<<", ">>", "+=", "-=", "*=", "/=", "%=", "&=", "|=", "^="]

/-- Whether a line end behind a token ends the statement. -/
def endsStatement : Option Token → Bool
  | none => false
  | some t =>
    match t.shape with
    | .word =>
      !keywords.contains t.text ||
        ["break", "continue", "fallthrough", "return"].contains t.text
    | .number | .quoted | .closing => true
    | .mark => t.text == "++" || t.text == "--"
    | _ => false

def isNameStart (c : Char) : Bool := Text.isWord c && !c.isDigit

/-- What stands at the start of a text behind the token `previous`. -/
def step (_ : Unit) (previous : Option Token) (s : List Char) : Piece Unit :=
  let piece (shape : Option Shape) (length : Nat) : Piece Unit := ⟨shape, length, ()⟩
  let lineEnd : Option Shape := if endsStatement previous then some .ending else none
  match s with
  | [] => piece none 0
  | '/' :: '/' :: rest => piece none ((rest.takeWhile (· != '\n')).length + 2)
  | '/' :: '*' :: rest =>
    let length := pairLength '*' '/' rest + 2
    piece (if (s.take length).contains '\n' then lineEnd else none) length
  | c :: rest =>
    if c = '\n' then piece lineEnd 1
    else if Text.isBlank c || c == '\ufeff' then piece none 1
    else if c = '"' || c = '\'' then piece (some .quoted) (quotedLength c rest + 1)
    else if c = '\x60' then piece (some .quoted) ((rest.takeWhile (· != '\x60')).length + 2)
    else if c.isDigit || (c == '.' && (rest.head?.map Char.isDigit).getD false) then
      piece (some .number) (numberAt s)
    else if isNameStart c then piece (some .word) (s.takeWhile Text.isWord).length
    else if c = '(' || c = '[' || c = '\x7b' then piece (some .opening) 1
    else if c = ')' || c = ']' || c = '\x7d' then piece (some .closing) 1
    else piece (some .mark) (((markAt? marks s).map String.length).getD 1)

end Ripple.Outline.GoSource
