import Ripple.Regex.Reader
import Ripple.Text.Basic
import Ripple.Text.Printable

/-!
Ignore patterns: lines of the kind that a version control system reads to leave files alone. A line
is cut at its slashes into segments; a segment of two stars stands for any number of directories, a
line with a single segment applies at any depth, and a line that ends in a slash to directories
only. The whole becomes one regular expression for paths.
-/
namespace Ripple.Ignore

-- The one escape in a class is that of the backslash.
attribute [local instance] Regex.Names.none

inductive Fault where
  /-- The line names nothing, or ends in a backslash. -/
  | invalid (line : String)
  /-- A range of characters runs backwards, at a place of the expression for the line. -/
  | badRange (low high : String) (position : Nat)
  deriving DecidableEq, Repr

def Fault.message : Fault → String
  | .invalid line => "Invalid git pattern: " ++ Text.quoted line
  | .badRange low high position =>
    "bad character range " ++ low ++ "-" ++ high ++ " at position " ++ toString position

/-- What a line says: paths that match are taken in, or with a leading `!` left out. -/
structure Pattern where
  takesIn : Bool
  regex : Regex
  deriving DecidableEq, Repr

def inSegment (least : Nat) : Regex := .loop least none false (.oneOf true [.range 47 47])

def slash : Regex := .char '/'

/-- Any text without line feeds, at least `least` characters long. -/
def anyText (least : Nat) : Regex := .loop least none false .anyChar

def perhaps (r : Regex) : Regex := .loop 0 (some 1) false r

/-- Any directories before a segment, or none. -/
def leading : Regex := perhaps (.seq (anyText 1) slash)

/-- Any directories between two segments, or none. -/
def inner : Regex := perhaps (.seq slash (anyText 1))

/-- The end of a name: the end of the path, or a slash with something below. -/
def nameEnd : Regex := .alt slash .lineEnd

def anywhere (r : Regex) : Regex := .seq (.loop 0 none false (.oneOf true [])) r

/-- A part of an expression with the width of its written form. -/
structure Part where
  regex : Regex
  width : Nat

def isSpecial (c : Char) : Bool :=
  "()[]\x7b\x7d?*+-|^$\\.&~# \t\n\r\x0b\x0c".toList.contains c

def literalPart (c : Char) : Part := ⟨.char c, if isSpecial c then 2 else 1⟩

/-- A written member of a class: backslashes are doubled. -/
def classToken (c : Char) : Regex.Token := if c = '\\' then .escaped c else .plain c

/-- The first range that runs backwards among the members of a class, with the width of the members
before it. -/
def backwardRange? : Nat → List Char → Option (Char × Char × Nat)
  | width, low :: '-' :: high :: rest =>
    let step (c : Char) := if c = '\\' then 2 else 1
    if high < low then some (low, high, width)
    else backwardRange? (width + step low + 1 + step high) rest
  | width, c :: rest => backwardRange? (width + if c = '\\' then 2 else 1) rest
  | _, [] => none

/-- The members of a bracketed class and what follows its closing bracket, if it is closed. A
bracket in first place is a member. -/
def splitClass? (s : List Char) : Option (List Char × List Char) :=
  let (first, rest) :=
    match s with
    | ']' :: rest => ([']'], rest)
    | rest => ([], rest)
  let members := rest.takeWhile (· != ']')
  match rest.drop members.length with
  | ']' :: after => some (first ++ members, after)
  | _ => none

/-- A bracketed class as a part of an expression, `position` being where it stands in it. -/
def classPart (position : Nat) (negated : Bool) (members : List Char) : Except Fault Part :=
  let opening := if negated then 2 else 1
  let tokens := members.map classToken ++ [.plain ']']
  match Regex.readClass (tokens.length + 1) [] tokens with
  | .ok (items, _) =>
    .ok ⟨.oneOf negated items, opening + members.length + members.count '\\' + 1⟩
  | .error _ =>
    match backwardRange? 0 members with
    | some (low, high, width) =>
      let shown (c : Char) := if c = '\\' then "\\\\" else String.ofList [c]
      .error (.badRange (shown low) (shown high) (position + opening + width))
    | none => .error (.badRange "" "" position)

def segmentParts (line : String) : Nat → Nat → List Char → Except Fault (List Part)
  | _, _, [] => .ok []
  | 0, _, _ :: _ => .ok []
  | fuel + 1, position, c :: rest => do
    let go (p : Part) (rest : List Char) : Except Fault (List Part) := do
      let parts ← segmentParts line fuel (position + p.width) rest
      return p :: parts
    match c with
    | '\\' =>
      match rest with
      | [] => throw (.invalid line)
      | d :: rest => go (literalPart d) rest
    | '*' => go ⟨inSegment 0, 5⟩ rest
    | '?' => go ⟨.oneOf true [.range 47 47], 4⟩ rest
    | '[' =>
      let (negated, members) :=
        match rest with
        | '!' :: r => (true, r)
        | '^' :: r => (true, r)
        | r => (false, r)
      match splitClass? members with
      | some (members, after) => go (← classPart position negated members) after
      | none => go (literalPart '[') rest
    | _ => go (literalPart c) rest

def twoStars : List Char := ['*', '*']

/-- The segments without repetitions of two stars. -/
def collapseStars : List (List Char) → List (List Char)
  | a :: b :: rest =>
    if a = twoStars ∧ b = twoStars then collapseStars (b :: rest)
    else a :: collapseStars (b :: rest)
  | l => l

/-- The segments of a line as they apply from the top: without the empty one before a leading slash,
with two stars before a single segment, and with two stars behind a trailing slash. -/
def normalize (segments : List (List Char)) : List (List Char) :=
  let segments :=
    match segments with
    | [] :: rest => rest
    | [a] => if a = twoStars then [a] else [twoStars, a]
    | [a, []] => if a = twoStars then [a, []] else [twoStars, a, []]
    | l => l
  collapseStars (if segments.getLast? = some [] then segments.dropLast ++ [twoStars] else segments)

/-- The parts for segments from the `index`-th on; `slashed` says whether the next one is to be
preceded by a slash. -/
def segmentsParts (line : String) (position : Nat) (slashed : Bool) :
    Nat → List (List Char) → Except Fault (List Part)
  | _, [] => .ok []
  | index, segment :: rest => do
    if segment = twoStars then
      let (part, slashed) : Part × Bool :=
        if index = 0 then (⟨leading, 8⟩, false)
        else if rest.isEmpty then (⟨slash, 1⟩, slashed)
        else (⟨inner, 8⟩, true)
      let parts ← segmentsParts line (position + part.width) slashed (index + 1) rest
      return part :: parts
    else
      let before : List Part := if slashed then [⟨slash, 1⟩] else []
      let start := position + before.length
      let own ←
        if segment = ['*'] then pure [⟨inSegment 1, 5⟩]
        else segmentParts line segment.length start segment
      let ending : List Part := if rest.isEmpty then [⟨nameEnd, 0⟩] else []
      let parts ← segmentsParts line (start + (own.map Part.width).sum) true (index + 1) rest
      return before ++ own ++ ending ++ parts

/-- The expression for segments. It holds for a path as soon as it matches at the start. -/
def expression (line : String) (segments : List (List Char)) : Except Fault Regex := do
  let normal := normalize segments
  if normal.isEmpty then throw (.invalid line)
  if normal = [twoStars] then
    return if segments.getLast? = some [] then anywhere slash else anywhere .anyChar
  if normal = [twoStars, ['*']] then return anywhere .anyChar
  if normal = [twoStars, ['*'], twoStars] then return anywhere slash
  let parts ← segmentsParts line 1 false 0 normal
  return .concat (parts.map Part.regex)

/-- A line without the blanks behind it; a blank behind a backslash stays. -/
def trim (line : List Char) : List Char :=
  if ['\\', ' '].isSuffixOf line then line else (line.reverse.dropWhile Text.isBlank).reverse

/-- What a line says; nothing if it is blank, a comment or a lone slash. -/
def Pattern.parse (line : String) : Except Fault (Option Pattern) := do
  match trim line.toList with
  | [] => return none
  | '#' :: _ => return none
  | ['/'] => return none
  | '!' :: rest =>
    let regex ← expression line (Text.splitBy (· == '/') rest)
    return some ⟨false, regex⟩
  | body =>
    let regex ← expression line (Text.splitBy (· == '/') body)
    return some ⟨true, regex⟩

def Pattern.matches (p : Pattern) (path : List Char) : Bool := p.regex.matchesStart path

/-- A path as patterns see it: without one leading slash, or one leading dot and slash. -/
def relative : List Char → List Char
  | '/' :: rest => rest
  | '.' :: '/' :: rest => rest
  | s => s

/-- The lines of a list that say something. -/
def parseAll (lines : List String) : Except Fault (List Pattern) :=
  (lines.mapM Pattern.parse).map (·.filterMap id)

/-- Whether the last line that applies to a path takes it in. -/
def takesIn (patterns : List Pattern) (path : String) : Bool :=
  match patterns.reverse.find? (·.matches (relative path.toList)) with
  | some p => p.takesIn
  | none => false

end Ripple.Ignore
