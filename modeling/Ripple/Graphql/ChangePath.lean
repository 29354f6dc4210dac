import Ripple.Text.Basic
import Ripple.Text.Word

/-!
The part of a schema that the description of a change is about, found from its words alone: `T.m`
for members of a type, otherwise a single name.
-/
namespace Ripple.Graphql.ChangePath

open Ripple.Text

/-- The word at the start of a text and the text behind it, if there is a word. -/
def word? (s : List Char) : Option (List Char × List Char) :=
  match s.span isWord with
  | ([], _) => none
  | (w, rest) => some (w, rest)

/-- The text behind the first of several beginnings that it has. -/
def behind? (heads : List String) (s : List Char) : Option (List Char) :=
  heads.findSome? fun h => if h.toList.isPrefixOf s then some (s.drop h.length) else none

/-- The member and the type in `m was removed from enum type T` and the like; `kind` is the word
in front of `type`. -/
def membership? (kind : String) (s : List Char) : Option (List Char × List Char) := do
  let (member, rest) ← word? s
  let rest ← behind?
    [" was removed from " ++ kind ++ " type ", " was added to " ++ kind ++ " type "] rest
  let (type, _) ← word? rest
  return (member, type)

/-- The field and the type in `A required field m on input type T` and the like. -/
def inputField? (s : List Char) : Option (List Char × List Char) := do
  let rest ← behind? ["A required field ", "An required field ", "A optional field ",
    "An optional field "] s
  let (member, rest) ← word? rest
  let rest ← behind? [" on input type "] rest
  let (type, _) ← word? rest
  return (member, type)

/-- The first two words of a text with just a point between them; `inWord` says that the text
starts inside a word. -/
def dotted? (inWord : Bool) : List Char → Option (List Char × List Char)
  | [] => none
  | c :: rest =>
    let here :=
      if inWord then none
      else do
        let (first, rest) ← word? (c :: rest)
        let rest ← behind? ["."] rest
        let (second, _) ← word? rest
        return (first, second)
    here.or (dotted? (isWord c) rest)

/-- The word at the start, or the one behind `Standard scalar`. -/
def leading? (s : List Char) : Option (List Char) :=
  ((behind? ["Standard scalar "] s).bind word?).or (word? s) |>.map (·.1)

def path (owner member : List Char) : String := String.ofList (owner ++ '.' :: member)

end ChangePath

open ChangePath in
/-- The path of a described change; empty if the description starts with no name. -/
def changePath (description : String) : String :=
  let s := description.toList
  match (membership? "enum" s).or (inputField? s) with
  | some (member, type) => path type member
  | none =>
    match membership? "union" s with
    | some (_, type) => String.ofList type
    | none =>
      match dotted? false s with
      | some (first, second) => path first second
      | none => String.ofList ((leading? s).getD [])

end Ripple.Graphql
