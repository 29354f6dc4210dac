import Ripple.Text.Basic
import Ripple.Validation.Check

/-!
Integers and truth values in a document. Whole decimals, numerals in texts and truth values count as
integers; zero, one and a few words count as truth values.
-/
namespace Ripple.Checker

/-- White space that may stand around a numeral; information separators may not. -/
def isPadding (c : Char) : Bool := Text.isBlank c && !(28 ≤ c.toNat && c.toNat ≤ 31)

/-- A numeral without its leading zeros and the underscores among them. The last of them stays where
nothing or a point follows. A minus keeps them all. -/
def withoutLeadingZeros? (s : List Char) : Option (List Char) :=
  match s with
  | [] => none
  | '0' :: rest =>
    let zeros := '0' :: rest.takeWhile fun c => c == '0' || c == '_'
    match s.drop zeros.length with
    | [] => some (zeros.drop (zeros.length - 1))
    | c :: more =>
      if c = '.' then some (zeros.drop (zeros.length - 1) ++ c :: more)
      else if c.isDigit then some (c :: more)
      else none
  | c :: _ => if c.isDigit || c == '-' then some s else none

/-- The part before a point that only zeros follow, or the whole numeral. -/
def withoutZeroFraction (s : List Char) : List Char :=
  let whole := s.takeWhile (· != '.')
  if (s.drop (whole.length + 1)).all (· == '0') then whole else s

/-- A numeral without its underscores, if they stand one by one inside it. -/
def withoutUnderscores (s : List Char) : List Char :=
  if s.head? = some '_' ∨ s.getLast? = some '_' ∨ (s.zip s.tail).contains ('_', '_') then s
  else s.filter (· != '_')

/-- A numeral reduced to a minus and digits, as far as it has nothing else to say. -/
def plainNumeral? (s : List Char) : Option (List Char) := do
  let unsigned ←
    match s with
    | '+' :: '-' :: _ => none
    | '+' :: rest => some rest
    | _ => some s
  return withoutUnderscores (withoutZeroFraction (← withoutLeadingZeros? unsigned))

/-- Numerals with more characters than this are refused. -/
def numeralLimit : Nat := 4300

/-- The integer that a text writes: blanks around it, a sign, digits with underscores between them,
a zero fraction. -/
def integerOfText (s : String) : Check Int :=
  match plainNumeral? (Text.stripBy isPadding s.toList) with
  | none => .fail .integerUnreadable
  | some plain =>
    let digits := if plain.head? = some '-' then plain.drop 1 else plain
    if digits.isEmpty ∨ digits.any (!·.isDigit) ∨ (digits.head? = some '0' ∧ 1 < digits.length) then
      .fail .integerUnreadable
    else if numeralLimit < plain.length then .fail .integerTooLong
    else
      let n : Int := digits.foldl (fun n c => n * 10 + (c.toNat - 48 : Nat)) (0 : Int)
      .valid (if plain.head? = some '-' then -n else n)

/-- The integer that a decimal number is equal to, within the range of 64 bits. -/
def integerOfFloat (x : Binary64) : Check Int :=
  match x with
  | .finite .. =>
    match x.toInt? with
    | none => .fail .integerHasFraction
    | some i => if i.natAbs < Nat.pow 2 63 then .valid i else .fail .integerTooLong
  | _ => .fail .notFinite

def integer : Checker Int
  | .int i => .valid i
  | .bool b => .valid (if b then 1 else 0)
  | .float x => integerOfFloat x
  | .text s => integerOfText s
  | _ => .fail .integerExpected

/-- The words that stand for a truth value, in any case. -/
def truthWords : List (String × Bool) :=
  [("0", false), ("off", false), ("f", false), ("false", false), ("n", false), ("no", false),
    ("1", true), ("on", true), ("t", true), ("true", true), ("y", true), ("yes", true)]

def truthOfInt (i : Int) : Check Bool :=
  if i = 0 then .valid false else if i = 1 then .valid true else .fail .truthUnreadable

def truth : Checker Bool
  | .bool b => .valid b
  | .int i => if i.natAbs < Nat.pow 2 63 then truthOfInt i else .fail .truthExpected
  | .float x =>
    match integerOfFloat x with
    | .valid i => truthOfInt i
    | _ => .fail .truthExpected
  | .text s =>
    match truthWords.lookup s.toLower with
    | some b => .valid b
    | none => .fail .truthUnreadable
  | _ => .fail .truthExpected

end Ripple.Checker
