/-!
Tokens of YAML documents. Indentation is turned into tokens that open and close blocks; a key before
a colon is marked in retrospect, when the colon is met. A fault ends the tokens.
-/
namespace Ripple.Yaml

/-- The text of a scalar: none once an escape has put half of a surrogate pair into it. -/
abbrev Content := Option (List Char)

inductive Fault where
  /-- The document is not well formed, or asks for what YAML does not have. -/
  | malformed
  /-- A default value leads back to itself. -/
  | endless
  /-- An escape stands for a number beyond the last character. -/
  | escapeTooLarge (number : Nat)
  | badInteger (text : String) (base : Nat)
  | longInteger (digits : Nat)
  | badFloat (text : String)
  | emptyNumber
  | badBoolean (text : String)
  | badTimestamp
  /-- A day, a time or an offset that the calendar does not have. -/
  | badInstant (description : String)
  deriving DecidableEq, Repr

inductive Token where
  | versionDirective (major : Nat)
  | tagDirective (handle tagHead : String)
  | otherDirective
  | documentStart
  | documentEnd
  | streamEnd
  | blockSequenceStart
  | blockMappingStart
  | blockEnd
  | flowSequenceStart
  | flowSequenceEnd
  | flowMappingStart
  | flowMappingEnd
  | blockEntry
  | flowEntry
  | key
  | value
  | alias (name : String)
  | anchor (name : String)
  | tag (handle? : Option String) (suffix : String)
  | scalar (content : Content) (isPlain : Bool)
  | fault (f : Fault)
  deriving DecidableEq, Repr

def isBreak (c : Char) : Bool :=
  c == '\n' || c == '\r' || c == '\x85' || c == '\u2028' || c == '\u2029'

def isBlank (c : Char) : Bool := c == ' ' || c == '\t'

/-- The characters that documents may hold. -/
def isPrintable (c : Char) : Bool :=
  let n := c.toNat
  n == 9 || n == 10 || n == 13 || (0x20 ≤ n && n ≤ 0x7e) || n == 0x85 ||
    (0xa0 ≤ n && n ≤ 0xd7ff) || (0xe000 ≤ n && n ≤ 0xfffd) || 0x10000 ≤ n

def isWordChar (c : Char) : Bool := c.isAlphanum || c == '-' || c == '_'

/-- Whether a text is at its end or starts with a character of a class. -/
def endsOr (p : Char → Bool) (s : List Char) : Bool := (s.head?.map p).getD true

/-- Whether a text starts with a character of a class. -/
def startsWith (p : Char → Bool) (s : List Char) : Bool := (s.head?.map p).getD false

def atBreak (s : List Char) : Bool := endsOr isBreak s

def atSpace (s : List Char) : Bool := endsOr (fun c => isBlank c || isBreak c) s

/-- Whether a text is at its end or starts with a space or a break. -/
def atGap (s : List Char) : Bool := endsOr (fun c => c == ' ' || isBreak c) s

/-- Whether a mark between documents starts a text. -/
def atSeparator (s : List Char) : Bool :=
  (("---".toList.isPrefixOf s) || ("...".toList.isPrefixOf s)) && atSpace (s.drop 3)

structure SimpleKey where
  /-- The number of tokens before it. -/
  count : Nat
  required : Bool
  index : Nat
  line : Nat
  column : Nat
  deriving DecidableEq, Repr

/-- How far a document has been read. -/
structure Cursor where
  rest : List Char
  index : Nat := 0
  line : Nat := 0
  column : Nat := 0
  /-- The column of the current block, or -1 outside of blocks. -/
  indent : Int := -1
  /-- The columns of the blocks around the current one, the innermost first. -/
  outer : List Int := []
  /-- The number of open brackets. -/
  flow : Nat := 0
  keyAllowed : Bool := true
  /-- The places of possible keys by the number of open brackets. -/
  keys : List (Nat × SimpleKey) := []
  /-- The tokens so far, the last one first. -/
  tokens : List Token := []

abbrev Scanner := StateT Cursor (Except Fault)

namespace Scanner

def malformed {α : Type} : Scanner α := throw .malformed

def rest : Scanner (List Char) := return (← get).rest

def step (s : Cursor) : Cursor :=
  match s.rest with
  | [] => s
  | c :: rest =>
    let s := { s with rest, index := s.index + 1 }
    if (isBreak c && c != '\r') || (c == '\r' && !startsWith (· == '\n') rest) then
      { s with line := s.line + 1, column := 0 }
    else if c == '\ufeff' then s
    else { s with column := s.column + 1 }

def skip (n : Nat) : Scanner Unit := modify fun s => n.repeat step s

/-- The characters of a class at the cursor, which goes behind them. -/
def takeWhile (p : Char → Bool) : Scanner (List Char) := do
  let cs := (← rest).takeWhile p
  skip cs.length
  return cs

/-- A line break at the cursor as it counts in a scalar, or nothing. -/
def lineBreak : Scanner (List Char) := do
  match ← rest with
  | '\r' :: '\n' :: _ => do
    skip 2
    return ['\n']
  | c :: _ =>
    if c == '\u2028' || c == '\u2029' then
      skip 1
      return [c]
    else if isBreak c then
      skip 1
      return ['\n']
    else return []
  | [] => return []

def emit (t : Token) : Scanner Unit := modify fun s => { s with tokens := t :: s.tokens }

/-- Puts a token behind the first `count` ones. -/
def emitAt (count : Nat) (t : Token) : Scanner Unit := modify fun s =>
  let later := s.tokens.length - count
  { s with tokens := s.tokens.take later ++ t :: s.tokens.drop later }

def allowKey (allowed : Bool) : Scanner Unit := modify fun s => { s with keyAllowed := allowed }

/-- Forgets the possible keys that the cursor has left behind. -/
def forgetStaleKeys : Scanner Unit := do
  let s ← get
  let stale (k : SimpleKey) : Bool := k.line != s.line || 1024 < s.index - k.index
  if s.keys.any fun k => stale k.2 && k.2.required then malformed
  set { s with keys := s.keys.filter fun k => !stale k.2 }

def forgetKey : Scanner Unit := do
  let s ← get
  if s.keys.any fun k => k.1 == s.flow && k.2.required then malformed
  set { s with keys := s.keys.filter fun k => k.1 != s.flow }

/-- Notes that a key may start at the cursor. -/
def noteKey : Scanner Unit := do
  let s ← get
  if s.keyAllowed then
    let required := s.flow == 0 && s.indent == (s.column : Int)
    let key : SimpleKey := ⟨s.tokens.length, required, s.index, s.line, s.column⟩
    forgetKey
    modify fun s => { s with keys := (s.flow, key) :: s.keys }

def closeBlocks (column : Int) : Nat → Scanner Unit
  | 0 => return ()
  | fuel + 1 => do
    let s ← get
    if s.flow == 0 && s.indent > column then
      set
        { s with
          indent := s.outer.headD (-1), outer := s.outer.tail, tokens := .blockEnd :: s.tokens }
      closeBlocks column fuel

def closeTo (column : Int) : Scanner Unit := do
  closeBlocks column ((← get).outer.length + 1)

/-- Opens a block at a column; says whether it is set in more than the current one. -/
def openBlock (column : Nat) : Scanner Bool := do
  let s ← get
  if s.indent < (column : Int) then
    set { s with indent := column, outer := s.indent :: s.outer }
    return true
  return false

def comment : Scanner Unit := do
  if startsWith (· == '#') (← rest) then
    let _ ← takeWhile fun c => !isBreak c

def skipSpace : Nat → Scanner Unit
  | 0 => return ()
  | fuel + 1 => do
    let _ ← takeWhile (· == ' ')
    comment
    let b ← lineBreak
    if !b.isEmpty then
      if (← get).flow == 0 then allowKey true
      skipSpace fuel

def endOfLine : Scanner Unit := do
  let _ ← takeWhile (· == ' ')
  comment
  if !atBreak (← rest) then malformed
  let _ ← lineBreak

/-- A name of letters, digits, hyphens and underscores. -/
def word : Scanner (List Char) := do
  let cs ← takeWhile isWordChar
  if cs.isEmpty then malformed
  return cs

def number : Scanner Nat := do
  let ds ← takeWhile Char.isDigit
  if ds.isEmpty then malformed
  return ds.foldl (fun n c => n * 10 + (c.toNat - 48)) 0

def hexValue? (c : Char) : Option Nat :=
  if '0' ≤ c ∧ c ≤ '9' then some (c.toNat - 48)
  else if 'a' ≤ c ∧ c ≤ 'f' then some (c.toNat - 87)
  else if 'A' ≤ c ∧ c ≤ 'F' then some (c.toNat - 55)
  else none

/-- A number of hexadecimal digits at the cursor. -/
def hex (count : Nat) : Scanner Nat := do
  let ds := ((← rest).take count).filterMap hexValue?
  if ds.length != count then malformed
  skip count
  return ds.foldl (fun n d => n * 16 + d) 0

def decodeOctets (octets : List Nat) : Scanner (List Char) :=
  match String.fromUTF8? (ByteArray.mk (octets.map UInt8.ofNat).toArray) with
  | some s => return s.toList
  | none => malformed

def octets : Nat → Scanner (List Nat)
  | 0 => return []
  | fuel + 1 => do
    if startsWith (· == '%') (← rest) then
      skip 1
      let n ← hex 2
      return n :: (← octets fuel)
    return []

def isUriChar (c : Char) : Bool := isWordChar c || ";/?:@&=+$,.!~*'()[]".toList.contains c

def uriParts : Nat → Scanner (List Char)
  | 0 => return []
  | fuel + 1 => do
    let cs ← takeWhile isUriChar
    if startsWith (· == '%') (← rest) then
      let decoded ← decodeOctets (← octets (← rest).length)
      return cs ++ decoded ++ (← uriParts fuel)
    return cs

/-- The text of a tag or of the head of tags. -/
def uri : Scanner String := do
  let before ← rest
  let cs ← uriParts (before.length + 1)
  if (← rest).length == before.length then malformed
  return String.ofList cs

/-- A handle of tags: a sign alone, or a name between two signs. -/
def tagHandle : Scanner String := do
  let s ← rest
  if !startsWith (· == '!') s then malformed
  if startsWith (· == ' ') (s.drop 1) then
    skip 1
    return "!"
  let name := (s.drop 1).takeWhile isWordChar
  if !startsWith (· == '!') (s.drop (name.length + 1)) then malformed
  skip (name.length + 2)
  return String.ofList ('!' :: name ++ ['!'])

def directive : Scanner Token := do
  skip 1
  let name := String.ofList (← word)
  if !atGap (← rest) then malformed
  let token ←
    match name with
    | "YAML" => do
      let _ ← takeWhile (· == ' ')
      let major ← number
      if !startsWith (· == '.') (← rest) then malformed
      skip 1
      let _ ← number
      if !atGap (← rest) then malformed
      pure (Token.versionDirective major)
    | "TAG" => do
      let _ ← takeWhile (· == ' ')
      let handle ← tagHandle
      if !startsWith (· == ' ') (← rest) then malformed
      let _ ← takeWhile (· == ' ')
      let head ← uri
      if !atGap (← rest) then malformed
      pure (Token.tagDirective handle head)
    | _ => do
      let _ ← takeWhile fun c => !isBreak c
      pure Token.otherDirective
  endOfLine
  return token

def anchorName : Scanner String := do
  skip 1
  let name ← word
  let s ← rest
  if !(atSpace s || startsWith (fun c => "?:,]\x7d%@\x60".toList.contains c) s) then malformed
  return String.ofList name

def tag : Scanner Token := do
  let s ← rest
  let after := s.drop 1
  let token ←
    if startsWith (· == '<') after then do
      skip 2
      let suffix ← uri
      if !startsWith (· == '>') (← rest) then malformed
      skip 1
      pure (Token.tag none suffix)
    else if atSpace after then do
      skip 1
      pure (Token.tag none "!")
    else if (after.takeWhile fun c => c != ' ' && !isBreak c).contains '!' then do
      let handle ← tagHandle
      pure (Token.tag (some handle) (← uri))
    else do
      skip 1
      pure (Token.tag (some "!") (← uri))
  if !atGap (← rest) then malformed
  return token

/-- How the breaks at the end of a block scalar are kept. -/
inductive Chomping where
  | strip | clip | keep
  deriving DecidableEq, Repr

def chomping? (s : List Char) : Option Chomping :=
  match s with
  | '+' :: _ => some .keep
  | '-' :: _ => some .strip
  | _ => none

def increment? (s : List Char) : Option Nat :=
  match s with
  | c :: _ => if c.isDigit then some (c.toNat - 48) else none
  | [] => none

/-- The signs behind the mark of a block scalar, in either order. -/
def blockHeader : Scanner (Chomping × Option Nat) := do
  let first? := chomping? (← rest)
  if first?.isSome then skip 1
  let width? := increment? (← rest)
  if width? == some 0 then malformed
  if width?.isSome then skip 1
  let s ← rest
  let second? := if first?.isNone && width?.isSome then chomping? s else none
  if second?.isSome then skip 1
  if !atGap (← rest) then malformed
  endOfLine
  return ((first?.or second?).getD .clip, width?)

def spacesTo (indent : Nat) : Scanner Unit := do
  let s ← get
  let n := (s.rest.takeWhile (· == ' ')).length
  skip (min n (indent - s.column))

def blockBreaks (indent : Nat) : Nat → Scanner (List Char)
  | 0 => return []
  | fuel + 1 => do
    spacesTo indent
    if startsWith isBreak (← rest) then
      let b ← lineBreak
      return b ++ (← blockBreaks indent fuel)
    return []

/-- The breaks in front of the first line of a block scalar, and the greatest column before it. -/
def leadingBreaks : Nat → List Char → Nat → Scanner (List Char × Nat)
  | 0, breaks, column => return (breaks, column)
  | fuel + 1, breaks, column => do
    let s ← rest
    if startsWith (· == ' ') s then
      skip 1
      leadingBreaks fuel breaks (max column (← get).column)
    else if startsWith isBreak s then
      let b ← lineBreak
      leadingBreaks fuel (breaks ++ b) column
    else return (breaks, column)

/-- The lines of a block scalar from the cursor on: the text, and the last break and the breaks
behind it. -/
def blockLines (folded : Bool) (indent : Nat) :
    Nat → List Char → Scanner (List Char × List Char × List Char)
  | 0, breaks => return ([], [], breaks)
  | fuel + 1, breaks => do
    let s ← get
    if s.column != indent || s.rest.isEmpty then return ([], [], breaks)
    let indentedMore := startsWith isBlank s.rest
    let line ← takeWhile fun c => !isBreak c
    let lineEnd ← lineBreak
    let next ← blockBreaks indent ((← rest).length + 1)
    let s ← get
    if s.column == indent && !s.rest.isEmpty then
      let joint :=
        if folded && lineEnd == ['\n'] && !indentedMore && !startsWith isBlank s.rest then
          if next.isEmpty then [' '] else []
        else lineEnd
      let (text, last, tail) ← blockLines folded indent fuel next
      return (breaks ++ line ++ joint ++ text, last, tail)
    return (breaks ++ line, lineEnd, next)

def blockScalar (folded : Bool) : Scanner Token := do
  skip 1
  let (chomping, width?) ← blockHeader
  let least := ((← get).indent + 1).toNat.max 1
  let fuel := (← rest).length + 1
  let (breaks, indent) ←
    match width? with
    | none => do
      let (breaks, column) ← leadingBreaks fuel [] 0
      pure (breaks, max least column)
    | some width => do
      let indent := least + width - 1
      pure (← blockBreaks indent fuel, indent)
  let (text, last, tail) ← blockLines folded indent fuel breaks
  let kept :=
    match chomping with
    | .strip => []
    | .clip => last
    | .keep => last ++ tail
  return .scalar (some (text ++ kept)) false

/-- The breaks of empty lines inside a quoted scalar. -/
def quotedBreaks : Nat → Scanner (List Char)
  | 0 => return []
  | fuel + 1 => do
    if atSeparator (← rest) then malformed
    let _ ← takeWhile isBlank
    if startsWith isBreak (← rest) then
      let b ← lineBreak
      return b ++ (← quotedBreaks fuel)
    return []

def escapes : List (Char × Char) :=
  [('0', '\x00'), ('a', '\x07'), ('b', '\x08'), ('t', '\t'), ('\t', '\t'), ('n', '\n'),
    ('v', '\x0b'), ('f', '\x0c'), ('r', '\r'), ('e', '\x1b'), (' ', ' '), ('"', '"'),
    ('\\', '\\'), ('/', '/'), ('N', '\x85'), ('_', '\xa0'), ('L', '\u2028'), ('P', '\u2029')]

def escape : Scanner Content := do
  skip 1
  match ← rest with
  | [] => malformed
  | c :: _ =>
    match escapes.lookup c, [('x', 2), ('u', 4), ('U', 8)].lookup c with
    | some d, _ => do
      skip 1
      return some [d]
    | none, some count => do
      skip 1
      let n ← hex count
      if 0x110000 ≤ n then throw (.escapeTooLarge n)
      if 0xd800 ≤ n && n < 0xe000 then return none
      return some [Char.ofNat n]
    | none, none =>
      if isBreak c then
        let _ ← lineBreak
        return some (← quotedBreaks ((← rest).length + 1))
      else malformed

/-- Appends a piece of content to a text. -/
def Content.append (a b : Content) : Content := return (← a) ++ (← b)

/-- The rest of a quoted scalar up to its closing quote. -/
def quotedParts (double : Bool) : Nat → Scanner Content
  | 0 => malformed
  | fuel + 1 => do
    let quote := if double then '"' else '\''
    match ← rest with
    | [] => malformed
    | c :: after =>
      if c == quote then
        if !double && startsWith (· == '\'') after then
          skip 2
          return Content.append (some ['\'']) (← quotedParts double fuel)
        skip 1
        return some []
      else if double && c == '\\' then
        let first ← escape
        return Content.append first (← quotedParts double fuel)
      else if isBlank c || isBreak c then
        let blanks ← takeWhile isBlank
        let s ← rest
        if s.isEmpty then malformed
        if startsWith isBreak s then
          let first ← lineBreak
          let breaks ← quotedBreaks (s.length + 1)
          let joint := if first != ['\n'] then first else if breaks.isEmpty then [' '] else []
          return Content.append (some (joint ++ breaks)) (← quotedParts double fuel)
        return Content.append (some blanks) (← quotedParts double fuel)
      else
        skip 1
        return Content.append (some [c]) (← quotedParts double fuel)

def quotedScalar (double : Bool) : Scanner Token := do
  skip 1
  return .scalar (← quotedParts double ((← rest).length + 1)) false

/-- The characters of a plain scalar up to the next space or the end of the scalar. -/
def plainRun (inFlow : Bool) : List Char → List Char
  | [] => []
  | c :: rest =>
    let colonEnds :=
      atSpace rest || (inFlow && startsWith (fun d => ",[]\x7b\x7d".toList.contains d) rest)
    if isBlank c || isBreak c || (c == ':' && colonEnds) ||
        (inFlow && ",?[]\x7b\x7d".toList.contains c) then []
    else c :: plainRun inFlow rest

/-- The breaks of empty lines inside a plain scalar; none at all in front of a separator. -/
def plainBreaks : Nat → Scanner (Option (List Char))
  | 0 => return some []
  | fuel + 1 => do
    let _ ← takeWhile (· == ' ')
    if startsWith isBreak (← rest) then
      let b ← lineBreak
      if atSeparator (← rest) then return none
      return (← plainBreaks fuel).map (b ++ ·)
    return some []

/-- The space between two runs of a plain scalar, folded; empty if the scalar ends here. -/
def plainSpace : Scanner (List Char) := do
  let blanks ← takeWhile (· == ' ')
  if startsWith isBreak (← rest) then
    let first ← lineBreak
    allowKey true
    if atSeparator (← rest) then return []
    match ← plainBreaks ((← rest).length + 1) with
    | none => return []
    | some breaks =>
      let joint := if first != ['\n'] then first else if breaks.isEmpty then [' '] else []
      return joint ++ breaks
  return blanks

def plainParts (indent : Int) : Nat → List Char → Scanner (List Char)
  | 0, _ => return []
  | fuel + 1, space => do
    let s ← get
    let inFlow := 0 < s.flow
    let run := if startsWith (· == '#') s.rest then [] else plainRun inFlow s.rest
    if run.isEmpty then return []
    allowKey false
    skip run.length
    let next ← plainSpace
    let s ← get
    if next.isEmpty || startsWith (· == '#') s.rest || (!inFlow && (s.column : Int) < indent) then
      return space ++ run
    return space ++ run ++ (← plainParts indent fuel next)

def plainScalar : Scanner Token := do
  let s ← get
  return .scalar (some (← plainParts (s.indent + 1) (s.rest.length + 1) [])) true

/-- A token that may start a key. -/
def keyed (token : Scanner Token) : Scanner Unit := do
  noteKey
  allowKey false
  emit (← token)

def openFlow (t : Token) : Scanner Unit := do
  noteKey
  modify fun s => { s with flow := s.flow + 1, keyAllowed := true }
  skip 1
  emit t

def closeFlow (t : Token) : Scanner Unit := do
  forgetKey
  modify fun s => { s with flow := s.flow - 1, keyAllowed := false }
  skip 1
  emit t

def flowEntry : Scanner Unit := do
  allowKey true
  forgetKey
  skip 1
  emit .flowEntry

/-- A sign that may open a block in front of it. -/
def blockSign (opening sign : Token) : Scanner Unit := do
  let s ← get
  if s.flow == 0 then
    if !s.keyAllowed then malformed
    if ← openBlock s.column then emit opening
  allowKey (sign == .blockEntry || s.flow == 0)
  forgetKey
  skip 1
  emit sign

def valueSign : Scanner Unit := do
  let s ← get
  match s.keys.lookup s.flow with
  | none => blockSign .blockMappingStart .value
  | some k =>
    set { s with keys := s.keys.filter fun k => k.1 != s.flow }
    emitAt k.count .key
    if s.flow == 0 then
      if ← openBlock k.column then emitAt k.count .blockMappingStart
    allowKey false
    skip 1
    emit .value

def leaveBlocks : Scanner Unit := do
  closeTo (-1)
  forgetKey
  allowKey false

def documentMark (t : Token) : Scanner Unit := do
  leaveBlocks
  skip 3
  emit t

/-- Whether a plain scalar may start here. -/
def startsPlain (inFlow : Bool) (s : List Char) : Bool :=
  match s with
  | [] => false
  | c :: rest =>
    !(isBlank c || isBreak c || "-?:,[]\x7b\x7d#&*!|>'\"%@\x60".toList.contains c) ||
      (!atSpace rest && (c == '-' || (!inFlow && (c == '?' || c == ':'))))

/-- Reads the next token; says whether it was the last one. -/
def next : Scanner Bool := do
  skipSpace ((← rest).length + 1)
  forgetStaleKeys
  closeTo (← get).column
  let s ← get
  let inFlow := 0 < s.flow
  let go (action : Scanner Unit) : Scanner Bool := do
    action
    return false
  match s.rest with
  | [] => do
    leaveBlocks
    emit .streamEnd
    return true
  | c :: after =>
    let first := s.column == 0
    let separates := first && atSeparator s.rest
    let signs := inFlow || atSpace after
    if first && c == '%' then
      go do
        leaveBlocks
        emit (← directive)
    else if separates then go (documentMark (if c == '-' then .documentStart else .documentEnd))
    else if c == '[' then go (openFlow .flowSequenceStart)
    else if c == '\x7b' then go (openFlow .flowMappingStart)
    else if c == ']' then go (closeFlow .flowSequenceEnd)
    else if c == '\x7d' then go (closeFlow .flowMappingEnd)
    else if c == ',' then go flowEntry
    else if c == '-' && atSpace after then go (blockSign .blockSequenceStart .blockEntry)
    else if c == '?' && signs then go (blockSign .blockMappingStart .key)
    else if c == ':' && signs then go valueSign
    else if c == '*' then go (keyed do return .alias (← anchorName))
    else if c == '&' then go (keyed do return .anchor (← anchorName))
    else if c == '!' then go (keyed tag)
    else if (c == '|' || c == '>') && !inFlow then
      go do
        allowKey true
        forgetKey
        emit (← blockScalar (c == '>'))
    else if c == '\'' then go (keyed (quotedScalar false))
    else if c == '"' then go (keyed (quotedScalar true))
    else if startsPlain inFlow s.rest then go (keyed plainScalar)
    else malformed

end Scanner

/-- All tokens from a cursor on. -/
def tokensFrom : Nat → Cursor → List Token
  | 0, s => s.tokens.reverse
  | fuel + 1, s =>
    match Scanner.next.run s with
    | .error f => (.fault f :: s.tokens).reverse
    | .ok (true, s) => s.tokens.reverse
    | .ok (false, s) => tokensFrom fuel s

/-- The tokens of a document, up to its end or its first fault. -/
def tokens (s : List Char) : List Token :=
  if s.all isPrintable then
    let rest :=
      match s with
      | '\ufeff' :: rest => rest
      | _ => s
    tokensFrom (s.length + 2) { rest }
  else [.fault .malformed]

end Ripple.Yaml
