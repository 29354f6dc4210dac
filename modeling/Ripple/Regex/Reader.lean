import Ripple.Regex.Basic

/-!
Reading the written form of a regular expression. A reader works on tokens, a character that stands
for itself or one behind a backslash, and it knows how many groups have been opened and which of
them are closed, because a back reference may only name a closed group. Every repetition prefers
more rounds to fewer; there is no written form for the opposite. Outside the model is what the
machine below refuses for its own sake: groups nested deeper than its stack allows, and a possessive
repetition of groups that it cannot handle.
-/
namespace Ripple.Regex

/-- Why a written expression is refused. -/
inductive Fault where
  /-- It is not an expression. -/
  | malformed
  /-- A repetition count is beyond the greatest one that can be represented. -/
  | countTooLarge
  /-- A repetition count has more digits than are converted to a number. -/
  | countTooLong (digits : Nat)
  deriving DecidableEq, Repr

def countLimit : Nat := 4294967295

def digitLimit : Nat := 4300

def Fault.message : Fault → String
  | .malformed => "the expression is not well formed"
  | .countTooLarge => "the repetition number is too large"
  | .countTooLong digits =>
    "Exceeds the limit (" ++ toString digitLimit ++
      " digits) for integer string conversion: value has " ++ toString digits ++
      " digits; use sys.set_int_max_str_digits() to increase the limit"

inductive Token where
  | plain (c : Char)
  | escaped (c : Char)
  /-- A backslash with nothing behind it. -/
  | dangling
  deriving DecidableEq, Repr

def tokens : List Char → List Token
  | [] => []
  | ['\\'] => [.dangling]
  | '\\' :: c :: rest => .escaped c :: tokens rest
  | c :: rest => .plain c :: tokens rest

/-- What the reader knows of groups: how many were opened, and the numbers of the closed ones. -/
structure Groups where
  opened : Nat
  closed : List Nat

def hexValue? (c : Char) : Option Nat :=
  if '0' ≤ c ∧ c ≤ '9' then some (c.toNat - 48)
  else if 'a' ≤ c ∧ c ≤ 'f' then some (c.toNat - 87)
  else if 'A' ≤ c ∧ c ≤ 'F' then some (c.toNat - 55)
  else none

def octalValue? (c : Char) : Option Nat :=
  if '0' ≤ c ∧ c ≤ '7' then some (c.toNat - 48) else none

def decimalValue? (c : Char) : Option Nat :=
  if '0' ≤ c ∧ c ≤ '9' then some (c.toNat - 48) else none

/-- At most `limit` leading plain tokens that are digits: their values, and the rest. -/
def takeDigits (digit? : Char → Option Nat) : Nat → List Token → List Nat × List Token
  | limit + 1, .plain c :: rest =>
    match digit? c with
    | some d => let (ds, rest') := takeDigits digit? limit rest; (d :: ds, rest')
    | none => ([], .plain c :: rest)
  | _, ts => ([], ts)

def ofDigits (base : Nat) (ds : List Nat) : Nat := ds.foldl (fun n d => n * base + d) 0

def readHex (count : Nat) (ts : List Token) : Except Fault (Nat × List Token) :=
  let (ds, rest) := takeDigits hexValue? count ts
  let n := ofDigits 16 ds
  if ds.length = count ∧ n < 0x110000 then .ok (n, rest) else .error .malformed

/-- The characters by their names, as the standard of characters has them. -/
class Names where
  char? : List Char → Option Char

/-- No character has a name. -/
@[reducible]
def Names.none : Names := ⟨fun _ => Option.none⟩

def takeName : List Token → Option (List Char × List Token)
  | [] | .dangling :: _ => none
  | .plain c :: rest =>
    if c = '\x7d' then some ([], rest)
    else (takeName rest).map fun (name, left) => (c :: name, left)
  | .escaped c :: rest => (takeName rest).map fun (name, left) => ('\\' :: c :: name, left)

section Named

variable [Names]

def readNamed (ts : List Token) : Except Fault (Nat × List Token) :=
  match ts with
  | .plain '\x7b' :: rest =>
    match takeName rest with
    | some (c :: name, left) =>
      match Names.char? (c :: name) with
      | some named => .ok (named.toNat, left)
      | none => .error .malformed
    | _ => .error .malformed
  | _ => .error .malformed

/-- The control characters with a letter of their own. -/
def controlLetter? (c : Char) : Option Nat :=
  [('a', 7), ('b', 8), ('f', 12), ('n', 10), ('r', 13), ('t', 9), ('v', 11), ('\\', 92)].lookup c

def namedClass? (c : Char) : Option ClassItem :=
  match c with
  | 'd' => some (.digit false)
  | 'D' => some (.digit true)
  | 's' => some (.blank false)
  | 'S' => some (.blank true)
  | 'w' => some (.word false)
  | 'W' => some (.word true)
  | _ => none

/-- An escape that both outside and inside a class stands for one character. -/
def readCharEscape (c : Char) (ts : List Token) : Except Fault (Nat × List Token) :=
  match c with
  | 'x' => readHex 2 ts
  | 'u' => readHex 4 ts
  | 'U' => readHex 8 ts
  | 'N' => readNamed ts
  | _ => if c.isAlpha || c.isDigit then .error .malformed else .ok (c.toNat, ts)

def readEscape (groups : Groups) (c : Char) (ts : List Token) : Except Fault (Regex × List Token) :=
  match c with
  | 'A' => .ok (.textStart, ts)
  | 'Z' => .ok (.textEnd, ts)
  | 'b' => .ok (.wordEdge, ts)
  | 'B' => .ok (.wordInner, ts)
  | '0' =>
    let (ds, rest) := takeDigits octalValue? 2 ts
    .ok (point (ofDigits 8 ds), rest)
  | _ =>
    match namedClass? c with
    | some item => .ok (.oneOf false [item], ts)
    | none =>
      match controlLetter? c with
      | some n => .ok (point n, ts)
      | none =>
        match decimalValue? c with
        | none => (readCharEscape c ts).map fun (n, rest) => (point n, rest)
        | some d =>
          let (octal, afterOctal) := takeDigits octalValue? 2 ts
          if d < 8 ∧ octal.length = 2 then
            let n := ofDigits 8 (d :: octal)
            if n > 255 then .error .malformed else .ok (point n, afterOctal)
          else
            let (ds, rest) := takeDigits decimalValue? 1 ts
            let n := ofDigits 10 (d :: ds)
            if n ∈ groups.closed then .ok (.sameAs n, rest) else .error .malformed

def readClassEscape (c : Char) (ts : List Token) : Except Fault (ClassItem × List Token) :=
  match controlLetter? c with
  | some n => .ok (.range n n, ts)
  | none =>
    match namedClass? c with
    | some item => .ok (item, ts)
    | none =>
      match octalValue? c with
      | some d =>
        let (ds, rest) := takeDigits octalValue? 2 ts
        let n := ofDigits 8 (d :: ds)
        if n > 255 then .error .malformed else .ok (.range n n, rest)
      | none => (readCharEscape c ts).map fun (n, rest) => (.range n n, rest)

def readClassAtom : List Token → Except Fault (ClassItem × List Token)
  | .plain c :: rest => .ok (.range c.toNat c.toNat, rest)
  | .escaped c :: rest => readClassEscape c rest
  | _ => .error .malformed

/-- The members of a class up to its closing bracket. A bracket in first place is a member. -/
def readClass : Nat → List ClassItem → List Token → Except Fault (List ClassItem × List Token)
  | 0, _, _ => .error .malformed
  | fuel + 1, members, ts =>
    match ts, members with
    | .plain ']' :: rest, _ :: _ => .ok (members.reverse, rest)
    | _, _ => do
      let (item, rest) ← readClassAtom ts
      match rest with
      | .plain '-' :: .plain ']' :: rest => .ok ((.range 45 45 :: item :: members).reverse, rest)
      | .plain '-' :: rest =>
        let (upper, rest) ← readClassAtom rest
        match item, upper with
        | .range low _, .range high _ =>
          if high < low then .error .malformed
          else readClass fuel (.range low high :: members) rest
        | _, _ => .error .malformed
      | _ => readClass fuel (item :: members) rest

/-- The bounds of a braced repetition, if the tokens behind the opening brace are one. -/
def readBounds (ts : List Token) : Option ((List Nat × Option (List Nat)) × List Token) :=
  match ts with
  | .plain '\x7d' :: _ => none
  | _ =>
    let (low, rest) := takeDigits decimalValue? ts.length ts
    match rest with
    | .plain ',' :: rest =>
      let (high, rest) := takeDigits decimalValue? rest.length rest
      match rest with
      | .plain '\x7d' :: rest => some ((low, some high), rest)
      | _ => none
    | .plain '\x7d' :: rest => some ((low, none), rest)
    | _ => none

def readCount (ds : List Nat) : Except Fault Nat :=
  if digitLimit < ds.length then .error (.countTooLong ds.length)
  else if countLimit ≤ ofDigits 10 ds then .error .countTooLarge
  else .ok (ofDigits 10 ds)

/-- The least and the greatest number of rounds that bounds ask for. -/
def checkBounds (low : List Nat) (high : Option (List Nat)) : Except Fault (Nat × Option Nat) := do
  let least ← readCount low
  let upper := high.getD low
  if upper.isEmpty then return (least, none)
  let most ← readCount upper
  if most < least then throw .malformed
  return (least, some most)

/-- Whether an item may be repeated: neither a place nor itself a repetition. -/
def repeatable : Regex → Bool
  | .textStart | .textEnd | .lineEnd | .wordEdge | .wordInner => false
  | .loop .. => false
  | _ => true

/-- The last item repeated; a plus sign behind the repetition makes it possessive. -/
def repeatLast (items : List Regex) (bounds : Nat × Option Nat) (ts : List Token) :
    Except Fault (List Regex × List Token) :=
  match items with
  | [] => .error .malformed
  | item :: items =>
    if repeatable item then
      match ts with
      | .plain '+' :: rest => .ok (.loop bounds.1 bounds.2 true item :: items, rest)
      | _ => .ok (.loop bounds.1 bounds.2 false item :: items, ts)
    else .error .malformed

mutual

/-- Branches separated by bars, up to a closing parenthesis or the end. -/
def readBranches : Nat → Groups → List Token → Except Fault (Regex × Groups × List Token)
  | 0, _, _ => .error .malformed
  | fuel + 1, groups, ts => do
    let (first, groups, rest) ← readItems fuel groups [] ts
    match rest with
    | .plain '|' :: rest =>
      let (second, groups, rest) ← readBranches fuel groups rest
      return (.alt first second, groups, rest)
    | _ => return (first, groups, rest)

/-- The items of one branch; `items` holds those read so far, the last one first. -/
def readItems :
    Nat → Groups → List Regex → List Token → Except Fault (Regex × Groups × List Token)
  | 0, _, _, _ => .error .malformed
  | fuel + 1, groups, items, ts =>
    match ts with
    | [] | .plain '|' :: _ | .plain ')' :: _ => .ok (concat items.reverse, groups, ts)
    | .dangling :: _ => .error .malformed
    | .escaped c :: rest => do
      let (item, rest) ← readEscape groups c rest
      readItems fuel groups (item :: items) rest
    | .plain '[' :: .plain '^' :: rest => do
      let (members, rest) ← readClass rest.length [] rest
      readItems fuel groups (.oneOf true members :: items) rest
    | .plain '[' :: rest => do
      let (members, rest) ← readClass rest.length [] rest
      readItems fuel groups (.oneOf false members :: items) rest
    | .plain '(' :: rest => do
      let index := groups.opened + 1
      let (body, groups, rest) ← readBranches fuel { groups with opened := index } rest
      match rest with
      | .plain ')' :: rest =>
        readItems fuel { groups with closed := index :: groups.closed }
          (.group index body :: items) rest
      | _ => .error .malformed
    | .plain '.' :: rest => readItems fuel groups (.anyChar :: items) rest
    | .plain '^' :: rest => readItems fuel groups (.textStart :: items) rest
    | .plain '$' :: rest => readItems fuel groups (.lineEnd :: items) rest
    | .plain '*' :: rest => do
      let (items, rest) ← repeatLast items (0, none) rest
      readItems fuel groups items rest
    | .plain '+' :: rest => do
      let (items, rest) ← repeatLast items (1, none) rest
      readItems fuel groups items rest
    | .plain '?' :: rest => do
      let (items, rest) ← repeatLast items (0, some 1) rest
      readItems fuel groups items rest
    | .plain '\x7b' :: rest =>
      match readBounds rest with
      | none => readItems fuel groups (char '\x7b' :: items) rest
      -- the reader is one token ahead, so it meets the backslash before the bounds
      | some (_, .dangling :: _) => .error .malformed
      | some ((low, high), rest) => do
        let bounds ← checkBounds low high
        let (items, rest) ← repeatLast items bounds rest
        readItems fuel groups items rest
    | .plain c :: rest => readItems fuel groups (char c :: items) rest

end

/-- Reads a whole expression. Each step uses up a token or descends into a group. -/
def parse (s : List Char) : Except Fault Regex := do
  let ts := tokens s
  let (r, _, rest) ← readBranches (2 * ts.length + 2) ⟨0, []⟩ ts
  if rest.isEmpty then return r else throw .malformed

end Named

end Ripple.Regex
