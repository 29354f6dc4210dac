import Ripple.Text.Basic
import Ripple.Text.Word

/-!
Regular expressions with captures, back references and possessive repetition, and the backtracking
search that decides whether a text starts with a match.

`Regex.run` explores the alternatives in order of preference and hands every way to match to a
continuation; the first continuation that succeeds wins. A repetition prefers one more round, and it
starts no further round at the place where the round before it started, which is why the search
ends.
-/
namespace Ripple

/-- A member of a bracketed class: a range of code points, or one of the named classes. -/
inductive ClassItem where
  | range (low high : Nat)
  | digit (negated : Bool)
  | blank (negated : Bool)
  | word (negated : Bool)
  deriving DecidableEq, Repr

/-- Whether a character belongs to one member of a class. -/
def ClassItem.holds (c : Char) : ClassItem → Bool
  | .range low high => decide (low ≤ c.toNat) && decide (c.toNat ≤ high)
  | .digit negated => Text.isDigit c != negated
  | .blank negated => Text.isBlank c != negated
  | .word negated => Text.isWord c != negated

inductive Regex where
  /-- The empty text. -/
  | empty
  /-- Any character but a line feed. -/
  | anyChar
  /-- One character that belongs, or if negated does not belong, to a list of members. -/
  | oneOf (negated : Bool) (items : List ClassItem)
  | seq (first second : Regex)
  | alt (first second : Regex)
  /-- A part whose matched text is remembered under a number. -/
  | group (index : Nat) (body : Regex)
  /-- The text that a numbered group matched last. -/
  | sameAs (index : Nat)
  /-- At least `least` and at most `most` rounds; a possessive one never gives a round back, nor
  matches it in another way. -/
  | loop (least : Nat) (most : Option Nat) (possessive : Bool) (body : Regex)
  | textStart
  | textEnd
  /-- The end of the text, or the place before a line feed that ends it. -/
  | lineEnd
  /-- A place between a word character and another one or an end. -/
  | wordEdge
  /-- Any other place of a text that is not empty. -/
  | wordInner
  deriving DecidableEq, Repr

namespace Regex

def point (n : Nat) : Regex := .oneOf false [.range n n]

def char (c : Char) : Regex := point c.toNat

def concat : List Regex → Regex
  | [] => .empty
  | [r] => r
  | r :: rest => .seq r (concat rest)

def literal (s : List Char) : Regex := concat (s.map char)

/-- A place in a text, with the texts of the groups matched so far. -/
structure Cursor where
  behind : List Char
  ahead : List Char
  groups : List (Nat × List Char)
  deriving DecidableEq, Repr

namespace Cursor

def start (s : List Char) : Cursor := ⟨[], s, []⟩

/-- The place after one character that passes a test. -/
def advance? (test : Char → Bool) (s : Cursor) : Option Cursor :=
  match s.ahead with
  | [] => none
  | c :: rest => if test c then some { s with behind := c :: s.behind, ahead := rest } else none

/-- The place after a text, if it comes next. -/
def skip? : List Char → Cursor → Option Cursor
  | [], s => some s
  | c :: rest, s => (s.advance? (· == c)).bind (skip? rest)

/-- Remembers, under a number, the text between an earlier place and this one. -/
def capture (s : Cursor) (index : Nat) (earlier : Cursor) : Cursor :=
  let width := s.behind.length - earlier.behind.length
  { s with groups := (index, (s.behind.take width).reverse) ::
      s.groups.filter fun g => g.1 != index }

/-- Whether exactly one of the two neighbours is a word character. -/
def atWordEdge (s : Cursor) : Bool :=
  let before := s.behind.head?.any Text.isWord
  let after := s.ahead.head?.any Text.isWord
  before != after

end Cursor

/-- What remains to be matched after a part: it answers at a place, or refuses it. -/
abbrev Continuation := Cursor → Option Cursor

/-- `n` rounds, then the continuation. -/
def times (round : Continuation → Continuation) : Nat → Continuation → Continuation
  | 0, k => k
  | n + 1, k => round (times round n k)

/-- As many further rounds as possible, each tried before the continuation. `last` is the amount of
text ahead when the round before started, `room` the number of rounds still allowed. -/
def more (round : Continuation → Continuation) (k : Continuation) :
    Nat → Option Nat → Option Nat → Continuation
  | 0, _, _, s => k s
  | fuel + 1, room, last, s =>
    if room = some 0 ∨ last = some s.ahead.length then k s
    else
      (round (more round k fuel (room.map (· - 1)) (some s.ahead.length)) s).orElse fun _ => k s

/-- The rounds of a repetition, then the continuation. -/
def rounds (round : Continuation → Continuation) (least : Nat) (most : Option Nat)
    (k : Continuation) : Continuation :=
  times round least fun s => more round k (s.ahead.length + 2) (most.map (· - least)) none s

/-- A round that is matched without regard to what follows. -/
def alone (round : Continuation → Continuation) (k : Continuation) (s : Cursor) : Option Cursor :=
  (round some s).bind k

/-- Matches at a place and goes on with the continuation: the first success in order of preference.
-/
def run : Regex → Continuation → Continuation
  | .empty, k, s => k s
  | .anyChar, k, s => (s.advance? (· != '\n')).bind k
  | .oneOf negated items, k, s => (s.advance? fun c => items.any (·.holds c) != negated).bind k
  | .seq first second, k, s => run first (run second k) s
  | .alt first second, k, s => (run first k s).orElse fun _ => run second k s
  | .group index body, k, s => run body (fun t => k (t.capture index s)) s
  | .sameAs index, k, s =>
    match s.groups.lookup index with
    | none => none
    | some text => (s.skip? text).bind k
  | .loop least most possessive body, k, s =>
    if possessive then (rounds (alone (run body)) least most some s).bind k
    else rounds (run body) least most k s
  | .textStart, k, s => if s.behind.isEmpty then k s else none
  | .textEnd, k, s => if s.ahead.isEmpty then k s else none
  | .lineEnd, k, s => if s.ahead.isEmpty || s.ahead == ['\n'] then k s else none
  | .wordEdge, k, s => if s.atWordEdge then k s else none
  | .wordInner, k, s =>
    if s.atWordEdge || s.behind.isEmpty && s.ahead.isEmpty then none else k s

/-- The preferred match at the start of a text. -/
def match? (r : Regex) (s : List Char) : Option Cursor := r.run some (.start s)

/-- The preferred match at a place, or at the first place behind it where there is one. -/
def searchFrom (r : Regex) (behind : List Char) : List Char → Option Cursor
  | [] => r.run some ⟨behind, [], []⟩
  | c :: rest =>
    match r.run some ⟨behind, c :: rest, []⟩ with
    | some s => some s
    | none => searchFrom r (c :: behind) rest

/-- Whether there is a match somewhere in a text. -/
def occursIn (r : Regex) (s : List Char) : Bool := (r.searchFrom [] s).isSome

def Cursor.text? (s : Cursor) (index : Nat) : Option String :=
  (s.groups.lookup index).map String.ofList

/-- The matches from a place on, each search going on where the match before ended. They end with a
match that takes the search no further. -/
def findAllFrom (r : Regex) : Nat → List Char → List Char → List Cursor
  | 0, _, _ => []
  | fuel + 1, behind, ahead =>
    match r.searchFrom behind ahead with
    | none => []
    | some s =>
      s :: if s.ahead.length < ahead.length then findAllFrom r fuel s.behind s.ahead else []

/-- The matches in a text that do not overlap, from the left. -/
def findAll (r : Regex) (s : List Char) : List Cursor := findAllFrom r (s.length + 1) [] s

def matchesStart (r : Regex) (s : List Char) : Bool := (r.match? s).isSome

end Regex

end Ripple
