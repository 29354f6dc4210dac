import Ripple.Value.Basic

/-!
Writing JSON documents: on one line, or one item to a line with an indentation of two blanks for
each level. Characters beyond the basic Latin block stay as they are or become escapes of UTF-16
code units, as the `Spelling` says.
-/
namespace Ripple.Json

/-- How a document is spelled. -/
structure Spelling where
  /-- One item to a line. -/
  indented : Bool
  /-- Escapes for all characters beyond the basic Latin block. -/
  latinOnly : Bool
  deriving DecidableEq, Repr

def hexFour (n : Nat) : List Char :=
  [Nat.digitChar (n / 4096 % 16), Nat.digitChar (n / 256 % 16), Nat.digitChar (n / 16 % 16),
    Nat.digitChar (n % 16)]

def unitEscape (n : Nat) : List Char := '\\' :: 'u' :: hexFour n

def charText (latinOnly : Bool) (c : Char) : List Char :=
  match c with
  | '"' => ['\\', '"']
  | '\\' => ['\\', '\\']
  | '\n' => ['\\', 'n']
  | '\r' => ['\\', 'r']
  | '\t' => ['\\', 't']
  | '\x08' => ['\\', 'b']
  | '\x0c' => ['\\', 'f']
  | _ =>
    let n := c.toNat
    if n < 32 then unitEscape n
    else if n < 0x80 || !latinOnly then [c]
    else if n < 0x10000 then unitEscape n
    else unitEscape (0xd800 + (n - 0x10000) / 0x400) ++ unitEscape (0xdc00 + (n - 0x10000) % 0x400)

def stringText (latinOnly : Bool) (s : String) : List Char :=
  '"' :: (s.toList.flatMap (charText latinOnly) ++ ['"'])

def newLine (spelling : Spelling) (level : Nat) : List Char :=
  if spelling.indented then '\n' :: List.replicate (2 * level) ' ' else []

/-- Items between brackets: each on a line of its own, separated by commas. -/
def bracketed (spelling : Spelling) (level : Nat) (opening closing : Char) :
    List (List Char) → List Char
  | [] => [opening, closing]
  | first :: rest =>
    opening :: (newLine spelling (level + 1) ++ first ++
      (rest.flatMap fun item => ',' :: (newLine spelling (level + 1) ++ item)) ++
      newLine spelling level ++ [closing])

mutual

/-- A value at a level of indentation. Values without a form of their own are written as texts. -/
def valueText (spelling : Spelling) (level : Nat) : Value → List Char
  | .null => "null".toList
  | .bool b => (if b then "true" else "false").toList
  | .int i => (toString i).toList
  | .float .nan => "NaN".toList
  | .float (.infinite negative) => (if negative then "-Infinity" else "Infinity").toList
  | .float x => x.text.toList
  | .text s => stringText spelling.latinOnly s
  | .brokenText => stringText spelling.latinOnly ""
  | .bytes octets =>
    stringText spelling.latinOnly (String.ofList (octets.map fun b => Char.ofNat b.toNat))
  | .date d => stringText spelling.latinOnly
      (zeroPadded 4 d.year ++ "-" ++ zeroPadded 2 d.month ++ "-" ++ zeroPadded 2 d.day)
  | .stamp t => stringText spelling.latinOnly t.text
  | .list items => bracketed spelling level '[' ']' (itemTexts spelling (level + 1) items)
  | .set items => bracketed spelling level '[' ']' (itemTexts spelling (level + 1) items)
  | .map entries =>
    bracketed spelling level '\x7b' '\x7d' (memberTexts spelling (level + 1) entries)

def itemTexts (spelling : Spelling) (level : Nat) : List Value → List (List Char)
  | [] => []
  | v :: rest => valueText spelling level v :: itemTexts spelling level rest

def memberTexts (spelling : Spelling) (level : Nat) : List (Value × Value) → List (List Char)
  | [] => []
  | (k, v) :: rest =>
    (valueText spelling level k ++ ':' :: ((if spelling.indented then [' '] else []) ++
      valueText spelling level v)) :: memberTexts spelling level rest

end

def render (spelling : Spelling) (v : Value) : String := String.ofList (valueText spelling 0 v)

/-- One item to a line, all characters as they are. -/
def pretty : Spelling := ⟨true, false⟩

/-- On one line, with escapes beyond the basic Latin block. -/
def compact : Spelling := ⟨false, true⟩

end Ripple.Json
