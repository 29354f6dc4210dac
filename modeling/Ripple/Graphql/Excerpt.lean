import Ripple.Graphql.Printer

/-!
Excerpts of a document that point at a place: the line of the place with its neighbours and a caret
below. A very long line is shown in pieces.
-/
namespace Ripple.Graphql.Excerpt

def blanks (n : Nat) : List Char := List.replicate n ' '

def padLeft (width : Nat) (s : List Char) : List Char := blanks (width - s.length) ++ s

/-- Lines behind their heads, which are filled up to one width; an empty line has its head alone. -/
def table (rows : List (String × List Char)) : List (List Char) :=
  let width := (rows.map fun r => r.1.length).foldl max 0
  rows.map fun (head, line) =>
    padLeft width head.toList ++ (if line.isEmpty then [] else ' ' :: line)

def pieces (size : Nat) : Nat → List Char → List (List Char)
  | 0, _ => []
  | _, [] => []
  | n + 1, line => line.take size :: pieces size n (line.drop size)

/-- The rows that show a place in a line of at most this length are the line and its neighbours. -/
def longLine : Nat := 120

def pieceSize : Nat := 80

def caret (column : Nat) : List Char := padLeft column ['^']

def rows (lines : List (List Char)) (line column : Nat) : List (String × List Char) :=
  let here := lines.getD (line - 1) []
  let head (n : Nat) : String := toString n ++ " |"
  if longLine < here.length then
    let parts := pieces pieceSize here.length here
    let last := column / pieceSize
    [(head line, parts.headD [])] ++ ((parts.drop 1).take last).map (fun part => ("|", part)) ++
      [("|", caret (column % pieceSize))] ++
      ((parts.drop (last + 1)).take 1).map fun part => ("|", part)
  else
    (if 1 < line then [(head (line - 1), lines.getD (line - 2) [])] else []) ++
      [(head line, here), ("|", caret column)] ++
      ((lines.drop line).take 1).map fun next => (head (line + 1), next)

/-- The excerpt of a document at a place. -/
def text (document : List Char) (position : Nat) : String :=
  let (line, column) := location document position
  "GraphQL request:" ++ toString line ++ ":" ++ toString column ++ "\n" ++
    String.ofList (List.intercalate ['\n']
      (table (rows (Literal.blockLines document) line column)))

end Ripple.Graphql.Excerpt
