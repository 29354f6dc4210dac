/-!
Small questions about texts: whether one text starts, ends or contains another, cutting at a
separator or into lines, joining, the blanks at both ends, and lower case. All are stated on lists
of characters and lifted to `String`.
-/
namespace Ripple.Text

/-- Whether `p` stands somewhere in a list, as a block of consecutive elements. -/
def occursIn (p : List Char) : List Char → Bool
  | [] => p.isEmpty
  | c :: rest => p.isPrefixOf (c :: rest) || occursIn p rest

def has (s part : String) : Bool := occursIn part.toList s.toList

def startsWith (s head : String) : Bool := head.toList.isPrefixOf s.toList

def endsWith (s tail : String) : Bool := tail.toList.isSuffixOf s.toList

/-- Whether a text contains one of several others. -/
def hasAny (s : String) (parts : List String) : Bool := parts.any (has s)

def endsWithAny (s : String) (tails : List String) : Bool := tails.any (endsWith s)

def join (separator : String) : List String → String
  | [] => ""
  | [s] => s
  | s :: rest => s ++ separator ++ join separator rest

/-- The pieces of a list between the elements that satisfy `p`; there is always at least one. -/
def splitBy {α : Type} (p : α → Bool) : List α → List (List α)
  | [] => [[]]
  | c :: rest =>
    if p c then [] :: splitBy p rest
    else
      match splitBy p rest with
      | [] => [[c]]
      | piece :: pieces => (c :: piece) :: pieces

/-- The pieces of a text between the occurrences of one character. -/
def split (separator : Char) (s : String) : List String :=
  (splitBy (· == separator) s.toList).map String.ofList

def afterLast (c : Char) (s : List Char) : List Char := (splitBy (· == c) s).getLastD []

def lineBlock (lines : List String) : String :=
  lines.foldr (fun line rest => line ++ "\n" ++ rest) ""

def padRight (width : Nat) (s : String) : String :=
  s ++ String.ofList (List.replicate (width - s.length) ' ')

/-- White space of any script, the information separators included. -/
def isBlank (c : Char) : Bool :=
  let n := c.toNat
  (9 ≤ n && n ≤ 13) || (28 ≤ n && n ≤ 32) || n == 0x85 || n == 0xa0 || n == 0x1680 ||
    (0x2000 ≤ n && n ≤ 0x200a) || n == 0x2028 || n == 0x2029 || n == 0x202f || n == 0x205f ||
    n == 0x3000

/-- A list without the elements of a class at its two ends. -/
def stripBy {α : Type} (p : α → Bool) (s : List α) : List α :=
  ((s.dropWhile p).reverse.dropWhile p).reverse

def strip (s : String) : String :=
  String.ofList (stripBy isBlank s.toList)

/-- The characters that end a line, apart from the pair of carriage return and line feed. -/
def isLineEnd (c : Char) : Bool :=
  let n := c.toNat
  (10 ≤ n && n ≤ 13) || (28 ≤ n && n ≤ 30) || n == 0x85 || n == 0x2028 || n == 0x2029

/-- The lines of a list of characters without their ends; `line` is the reversed current line. -/
def linesFrom (line : List Char) : List Char → List (List Char)
  | [] => if line.isEmpty then [] else [line.reverse]
  | '\r' :: '\n' :: rest => line.reverse :: linesFrom [] rest
  | c :: rest =>
    if isLineEnd c then line.reverse :: linesFrom [] rest else linesFrom (c :: line) rest

def lines (s : String) : List String := (linesFrom [] s.toList).map String.ofList

/-- Every carriage return, with the line feed behind it if there is one, read as a line feed. -/
def unifyNewlines : List Char → List Char
  | [] => []
  | '\r' :: '\n' :: rest => '\n' :: unifyNewlines rest
  | '\r' :: rest => '\n' :: unifyNewlines rest
  | c :: rest => c :: unifyNewlines rest

/-- The lower-case form of a character, exact wherever that form contains a basic Latin letter: the
letters with such a form are the 26 capitals, the Kelvin sign and the dotted capital I. -/
def lowerChar (c : Char) : List Char :=
  if 'A' ≤ c ∧ c ≤ 'Z' then [Char.ofNat (c.toNat + 32)]
  else if c = '\u212a' then ['k']
  else if c = '\u0130' then ['i', '\u0307']
  else [c]

def lower (s : String) : String := String.ofList (s.toList.flatMap lowerChar)

end Ripple.Text
