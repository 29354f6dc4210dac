/-!
Tokens of program texts, with the places they take up, and the loop that cuts a text into them.
What stands at a place is for each language to say.
-/
namespace Ripple.Outline

inductive Shape where
  /-- a name or a keyword -/
  | word
  | number
  /-- a string or a character in quotes -/
  | quoted
  /-- a template without holes -/
  | template
  /-- a regular expression -/
  | pattern
  /-- an opening bracket, or a template up to its first hole -/
  | opening
  /-- a closing bracket, or a template from its last hole on -/
  | closing
  /-- other punctuation -/
  | mark
  /-- the end of a line that ends a statement -/
  | ending
  deriving DecidableEq, Repr

structure Token where
  shape : Shape
  text : String
  /-- The line it starts on, counted from one. -/
  line : Nat
  /-- The number of characters before it. -/
  start : Nat
  /-- The number of characters up to its end. -/
  stop : Nat
  deriving DecidableEq, Repr

namespace Token

def isWord (t : Token) (text : String) : Bool := t.shape == .word && t.text == text

def isMark (t : Token) (text : String) : Bool := t.shape == .mark && t.text == text

end Token

/-- What stands at a place of a text: a token, or something between tokens if there is no shape,
with its length and the state of the lexer behind it. -/
structure Piece (σ : Type) where
  shape : Option Shape
  length : Nat
  state : σ

def countLines (s : List Char) : Nat := s.count '\n'

/-- The tokens from a place on. A step is told its state, the token before and the text that is
left; a piece is at least one character long. -/
def tokensFrom {σ : Type} (step : σ → Option Token → List Char → Piece σ) :
    Nat → σ → Option Token → Nat → Nat → List Char → List Token
  | 0, _, _, _, _, _ => []
  | _ + 1, _, _, _, _, [] => []
  | fuel + 1, state, previous, start, line, s =>
    let piece := step state previous s
    let length := max 1 piece.length
    let taken := s.take length
    let go := fun previous =>
      tokensFrom step fuel piece.state previous (start + length) (line + countLines taken)
        (s.drop length)
    match piece.shape with
    | none => go previous
    | some shape =>
      let t : Token := ⟨shape, String.ofList taken, line, start, start + taken.length⟩
      t :: go (some t)

def tokens {σ : Type} (step : σ → Option Token → List Char → Piece σ) (state : σ)
    (s : List Char) : List Token :=
  tokensFrom step s.length state none 0 1 s

/-- The number of characters up to and with the first `quote`, where a backslash guards the
character behind it. -/
def quotedLength (quote : Char) : List Char → Nat
  | [] => 0
  | '\\' :: _ :: rest => quotedLength quote rest + 2
  | c :: rest => if c = quote then 1 else quotedLength quote rest + 1

/-- The number of characters up to and with the first occurrence of the two characters. -/
def pairLength (first second : Char) : List Char → Nat
  | [] => 0
  | [_] => 1
  | c :: d :: rest => if c = first ∧ d = second then 2 else pairLength first second (d :: rest) + 1

/-- The length of a number: digits, letters, points, and a sign behind the letter of an exponent. A
hexadecimal number has no exponent of that letter. -/
def numberLength (exponents : List Char) : List Char → Nat
  | [] => 0
  | [c] => if c.isAlphanum || c == '_' || c == '.' then 1 else 0
  | c :: d :: rest =>
    if exponents.contains c && (d == '+' || d == '-') then numberLength exponents rest + 2
    else if c.isAlphanum || c == '_' || c == '.' then numberLength exponents (d :: rest) + 1
    else 0

def numberAt (s : List Char) : Nat :=
  match s with
  | '0' :: x :: _ => numberLength (if x == 'x' || x == 'X' then ['p', 'P'] else ['e', 'E']) s
  | _ => numberLength ['e', 'E'] s

/-- The first of several marks that a text starts with. -/
def markAt? (marks : List String) (s : List Char) : Option String :=
  marks.find? fun m => m.toList.isPrefixOf s

/-- The part of a text between two places. -/
def slice (source : List Char) (start stop : Nat) : String :=
  String.ofList ((source.drop start).take (stop - start))

end Ripple.Outline
