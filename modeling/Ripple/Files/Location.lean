import Ripple.Text.Basic

/-!
Locations of files written as texts with slashes, and what a location means when it is written in
another file.
-/
namespace Ripple.Location

/-- One name further down; a double dot takes back the name before it, and at the top it stays if
the location is relative. -/
def descend (isAbsolute : Bool) (done : List String) (name : String) : List String :=
  if name = ".." then
    match done.getLast? with
    | none => if isAbsolute then [] else [".."]
    | some last => if last = ".." then done ++ [".."] else done.dropLast
  else done ++ [name]

/-- The slashes at the start of a location that count: one, or exactly two. -/
def root (s : String) : String :=
  if Text.startsWith s "///" then "/"
  else if Text.startsWith s "//" then "//"
  else if Text.startsWith s "/" then "/"
  else ""

/-- A location without empty names, single dots and the double dots that can be taken back. -/
def normalize (s : String) : String :=
  let names := (Text.split '/' s).filter fun n => n ≠ "" ∧ n ≠ "."
  let located := root s ++ Text.join "/" (names.foldl (descend (root s ≠ "")) [])
  if located = "" then "." else located

/-- The directory of a file: the text before the last slash, and before the slashes that end it
unless there is nothing else. -/
def directory (file : String) : String :=
  let head := (file.toList.reverse.dropWhile (· ≠ '/')).reverse
  let trimmed := (head.reverse.dropWhile (· = '/')).reverse
  String.ofList (if trimmed = [] then head else trimmed)

/-- A location seen from a directory. -/
def join (base location : String) : String :=
  if Text.startsWith location "/" then location
  else if base = "" || Text.endsWith base "/" then base ++ location
  else base ++ "/" ++ location

/-- What a location written in a file means. -/
def resolve (file location : String) : String := normalize (join (directory file) location)

end Ripple.Location
