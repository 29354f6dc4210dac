import Ripple.Text.Basic
import Ripple.Text.Printable

/-!
Messages with places for arguments, in the two forms in use: places in braces, and places behind a
percent sign.
-/
namespace Ripple.Log

inductive Argument where
  | text (s : String)
  | number (i : Int)
  | truth (b : Bool)
  | nothing
  /-- Anything else, as messages show it and the name of its kind. -/
  | other (shown kind : String)
  deriving DecidableEq, Repr

namespace Argument

def plain : Argument → String
  | text s => s
  | number i => toString i
  | truth b => if b then "True" else "False"
  | nothing => "None"
  | other shown _ => shown

/-- The form that tells texts from other things. -/
def inspected : Argument → String
  | text s => Text.quoted s
  | a => a.plain

def kind : Argument → String
  | text _ => "str"
  | number _ => "int"
  | truth _ => "bool"
  | nothing => "NoneType"
  | other _ kind => kind

def number? : Argument → Option Int
  | number i => some i
  | truth b => some (if b then 1 else 0)
  | _ => none

end Argument

/-- How a text is laid out in its place. -/
structure Layout where
  fill : Char
  /-- One of `<`, `>` and `^`, if it is said where the text goes. -/
  side : Option Char
  width : Nat
  /-- The greatest number of characters that are shown. -/
  limit : Option Nat
  deriving DecidableEq, Repr

namespace Layout

/-- A text filled up to the width; `usual` says where it goes if nothing else is said. -/
def lay (l : Layout) (usual : Char) (s : String) : String :=
  let shown := (l.limit.map fun n => s.toList.take n).getD s.toList
  let room := l.width - shown.length
  let before :=
    match l.side.getD usual with
    | '>' => room
    | '^' => room / 2
    | _ => 0
  String.ofList (List.replicate before l.fill ++ shown ++ List.replicate (room - before) l.fill)

def leadingNumber (s : List Char) : Nat × List Char :=
  let digits := s.takeWhile Char.isDigit
  ((String.ofList digits).toNat?.getD 0, s.drop digits.length)

/-- A width and, behind a point, a limit at the start of a text. -/
def readSize (l : Layout) (s : List Char) : Layout × List Char :=
  let (width, s) := leadingNumber s
  match s with
  | '.' :: rest =>
    let (limit, rest) := leadingNumber rest
    ({ l with width, limit := some limit }, rest)
  | _ => ({ l with width }, s)

def isSide (c : Char) : Bool := c == '<' || c == '>' || c == '^'

/-- The layout that is written behind the colon of a place. -/
def ofBraces (s : List Char) : Layout :=
  match s with
  | fill :: side :: rest =>
    if isSide side then (readSize ⟨fill, some side, 0, none⟩ rest).1
    else if isSide fill then (readSize ⟨' ', some fill, 0, none⟩ (side :: rest)).1
    else (readSize ⟨' ', none, 0, none⟩ s).1
  | _ => (readSize ⟨' ', none, 0, none⟩ s).1

end Layout

inductive TemplateFault where
  | loneClosing
  | loneOpening
  | unclosed
  /-- An opening brace where the name of a place should be. -/
  | braceInName
  /-- A layout for something that cannot be laid out. -/
  | noLayout (kind : String)
  /-- Places with and without a number in one message; the flag says that the numbers came first. -/
  | mixed (numberedFirst : Bool)
  | outOfRange (index : Nat)
  | unknownName (name : String)
  | tooFew
  | tooMany
  | numberExpected (mark : Char) (kind : String)
  | unknownMark (mark : Char) (index : Nat)
  | incomplete
  deriving DecidableEq, Repr

def hexOf (n : Nat) : String := String.ofList (Nat.toDigits 16 n)

def TemplateFault.message : TemplateFault → String
  | .loneClosing => "Single '\x7d' encountered in format string"
  | .loneOpening => "Single '\x7b' encountered in format string"
  | .unclosed => "expected '\x7d' before end of string"
  | .braceInName => "unexpected '\x7b' in field name"
  | .noLayout kind => "unsupported format string passed to " ++ kind ++ ".__format__"
  | .mixed true => "cannot switch from manual field specification to automatic field numbering"
  | .mixed false => "cannot switch from automatic field numbering to manual field specification"
  | .outOfRange i => "Replacement index " ++ toString i ++ " out of range for positional args tuple"
  | .unknownName name => Text.quoted name
  | .tooFew => "not enough arguments for format string"
  | .tooMany => "not all arguments converted during string formatting"
  | .numberExpected mark kind =>
    "%" ++ String.ofList [mark] ++ " format: a real number is required, not " ++ kind
  | .unknownMark mark i =>
    "unsupported format character '" ++ String.ofList [mark] ++ "' (0x" ++ hexOf mark.toNat ++
      ") at index " ++ toString i
  | .incomplete => "incomplete format"

/-- How the places of a message have been numbered so far. -/
inductive Numbering where
  | undecided
  /-- Places without numbers, and the number of the next one. -/
  | automatic (next : Nat)
  | manual
  deriving DecidableEq, Repr

/-- The number of a place, given what stands between its braces. -/
def placeIndex (numbering : Numbering) (name : String) :
    Except TemplateFault (Nat × Numbering) :=
  if name.isEmpty then
    match numbering with
    | .manual => .error (.mixed true)
    | .undecided => .ok (0, .automatic 1)
    | .automatic n => .ok (n, .automatic (n + 1))
  else
    match name.toNat? with
    | none => .error (.unknownName name)
    | some n =>
      match numbering with
      | .automatic _ => .error (.mixed false)
      | _ => .ok (n, .manual)

/-- What an argument is shown as in a place, given what follows the name of the place. -/
def placeText (a : Argument) (form : List Char) : Except TemplateFault String :=
  let inspects := form.take 2 == ['!', 'r']
  match if form.head? == some '!' then form.drop 2 else form with
  | ':' :: c :: rest =>
    let layout := Layout.ofBraces (c :: rest)
    if inspects then .ok (layout.lay '<' a.inspected)
    else
      match a with
      | .text s => .ok (layout.lay '<' s)
      | .nothing => .error (.noLayout a.kind)
      | .truth b => .ok (layout.lay '>' (if b then "1" else "0"))
      | _ => .ok (layout.lay '>' a.plain)
  | _ => .ok (if inspects then a.inspected else a.plain)

/-- Fills the places in braces. A doubled brace stands for one. -/
def fillBracesFrom (arguments : List Argument) :
    Nat → Numbering → List Char → Except TemplateFault String
  | 0, _, _ => .ok ""
  | _ + 1, _, [] => .ok ""
  | fuel + 1, numbering, '\x7b' :: '\x7b' :: rest =>
    (fillBracesFrom arguments fuel numbering rest).map ("\x7b" ++ ·)
  | fuel + 1, numbering, '\x7d' :: '\x7d' :: rest =>
    (fillBracesFrom arguments fuel numbering rest).map ("\x7d" ++ ·)
  | fuel + 1, numbering, '\x7b' :: rest => do
    if rest.isEmpty then throw .loneOpening
    let name := rest.takeWhile fun c => !"!:\x7b\x7d".toList.contains c
    if rest[name.length]? = some '\x7b' then throw .braceInName
    let inside := rest.takeWhile (· != '\x7d')
    if inside.length = rest.length then throw .unclosed
    let (index, numbering) ← placeIndex numbering (String.ofList name)
    match arguments[index]? with
    | none => throw (.outOfRange index)
    | some a =>
      let shown ← placeText a (inside.drop name.length)
      let more ← fillBracesFrom arguments fuel numbering (rest.drop (inside.length + 1))
      return shown ++ more
  | _ + 1, _, '\x7d' :: _ => .error .loneClosing
  | fuel + 1, numbering, c :: rest =>
    (fillBracesFrom arguments fuel numbering rest).map (String.ofList [c] ++ ·)

def fillBraces (message : String) (arguments : List Argument) : Except TemplateFault String :=
  fillBracesFrom arguments (message.length + 1) .undecided message.toList

def percentText (layout : Layout) (mark : Char) (index : Nat) (a : Argument) :
    Except TemplateFault String :=
  if mark = 's' then .ok (layout.lay '>' a.plain)
  else if mark = 'r' || mark = 'a' then .ok (layout.lay '>' a.inspected)
  else if mark = 'd' || mark = 'i' || mark = 'u' then
    match a.number? with
    | some i => .ok ({ layout with limit := none }.lay '>' (toString i))
    | none => .error (.numberExpected mark a.kind)
  else .error (.unknownMark mark index)

/-- Fills the places behind percent signs; `index` is the place in the message. -/
def fillPercentFrom : Nat → Nat → List Argument → List Char → Except TemplateFault String
  | 0, _, _, _ => .ok ""
  | _ + 1, _, [], [] => .ok ""
  | _ + 1, _, _ :: _, [] => .error .tooMany
  | fuel + 1, index, arguments, '%' :: rest => do
    let isLeft := rest.head? == some '-'
    let start := if isLeft then rest.tail else rest
    let (layout, rest') := Layout.readSize ⟨' ', if isLeft then some '<' else none, 0, none⟩ start
    let index := index + 1 + (rest.length - rest'.length)
    match rest' with
    | [] => throw .incomplete
    | mark :: more =>
      if mark = '%' then
        let filled ← fillPercentFrom fuel (index + 1) arguments more
        return "%" ++ filled
      match arguments with
      | [] => throw .tooFew
      | a :: others =>
        let shown ← percentText layout mark index a
        let filled ← fillPercentFrom fuel (index + 1) others more
        return shown ++ filled
  | fuel + 1, index, arguments, c :: rest =>
    (fillPercentFrom fuel (index + 1) arguments rest).map (String.ofList [c] ++ ·)

/-- A message with its places behind percent signs filled. -/
def fillPercent (message : String) (arguments : List Argument) : Except TemplateFault String :=
  fillPercentFrom (message.length + 1) 0 arguments message.toList

end Ripple.Log
