import Ripple.Graphql.Document
import Ripple.Graphql.Token
import Ripple.Text.Basic
import Ripple.Text.Natural

/-!
The text of a literal, and a literal with its fields in natural order. Two literals that differ only
in the order of fields are the same once sorted.
-/
namespace Ripple.Graphql.Literal

/-- A literal on one line has at most this many characters. -/
def maxLine : Nat := 80

def escaped (c : Char) : List Char :=
  match [('"', "\\\""), ('\\', "\\\\"), ('\x08', "\\b"), ('\x0c', "\\f"), ('\n', "\\n"),
      ('\r', "\\r"), ('\t', "\\t")].lookup c with
  | some s => s.toList
  | none =>
    if c.toNat < 32 ∨ 127 ≤ c.toNat ∧ c.toNat < 160 then ("\\u" ++ Lexer.hexUpper c.toNat).toList
    else [c]

def quoted (s : String) : String := "\"" ++ String.ofList (s.toList.flatMap escaped) ++ "\""

/-- Three quotes in a row, written so that they end no block string. -/
def escapeBlock : List Char → List Char
  | '"' :: '"' :: '"' :: rest => '\\' :: '"' :: '"' :: '"' :: escapeBlock rest
  | c :: rest => c :: escapeBlock rest
  | [] => []

def blockLines : List Char → List (List Char)
  | [] => [[]]
  | '\r' :: '\n' :: rest => [] :: blockLines rest
  | c :: rest =>
    if c == '\n' || c == '\r' then [] :: blockLines rest
    else
      match blockLines rest with
      | [] => [[c]]
      | line :: more => (c :: line) :: more

def startsBlank (l : List Char) : Bool := (l.head?.map Lexer.isIndent).getD false

/-- A block string. It takes lines of its own if it is long or if its ends would be misread. -/
def blockQuoted (s : String) : String :=
  let text := escapeBlock s.toList
  let lines := blockLines text
  let single := lines.length = 1
  let leading := 1 < lines.length ∧ (lines.drop 1).all fun l => l.isEmpty || startsBlank l
  let tripled := "\\\"\"\"".toList.isSuffixOf text
  let trailing := (s.toList.getLast? = some '"' ∧ !tripled) ∨ s.toList.getLast? = some '\\'
  let spread := !single ∨ 70 < s.length ∨ trailing ∨ leading ∨ tripled
  let sameLine := single ∧ startsBlank s.toList
  let quotes := "\"\"\""
  quotes ++ (if (spread ∧ !sameLine) ∨ leading then "\n" else "") ++ String.ofList text ++
    (if spread ∨ trailing then "\n" else "") ++ quotes

/-- A text with its lines, but the first one, set in by two blanks. -/
def indented (s : String) : String :=
  String.ofList (s.toList.flatMap fun c => if c = '\n' then ['\n', ' ', ' '] else [c])

def bracketed (open_ close : String) (padding : String) (items : List String) : String :=
  let line := open_ ++ padding ++ ", ".intercalate items ++ padding ++ close
  if line.length ≤ maxLine then line
  else open_ ++ "\n  " ++ indented ("\n".intercalate items) ++ "\n" ++ close

def text : Literal → String
  | .reference name => "$" ++ name
  | .int s | .float s => s
  | .string s isBlock => if isBlock then blockQuoted s else quoted s
  | .boolean b => if b then "true" else "false"
  | .null => "null"
  | .enum name => name
  | .list items => bracketed "[" "]" "" (texts items)
  | .object fields => bracketed "\x7b" "\x7d" " " (fieldTexts fields)
where
  texts : List Literal → List String
    | [] => []
    | l :: rest => l.text :: texts rest
  fieldTexts : List (String × Literal) → List String
    | [] => []
    | (key, l) :: rest => (key ++ ": " ++ l.text) :: fieldTexts rest

/-- A literal with the fields of its objects in natural order. -/
def sorted : Literal → Literal
  | .list items => .list (sortedItems items)
  | .object fields => .object ((sortedFields fields).mergeSort fun a b => Text.Natural.le a.1 b.1)
  | l => l
where
  sortedItems : List Literal → List Literal
    | [] => []
    | l :: rest => l.sorted :: sortedItems rest
  sortedFields : List (String × Literal) → List (String × Literal)
    | [] => []
    | (key, l) :: rest => (key, l.sorted) :: sortedFields rest

end Ripple.Graphql.Literal
