/-!
Binary floating-point numbers with 53 bits: rounding a decimal to the nearest of them, and the
shortest decimal that rounds back. Both are exact computations on integers.
-/
namespace Ripple

/-- A number `±mantissa · 2^exponent`, an infinity, or no number. A mantissa has at most 53 bits; it
has all 53 unless the exponent is the least one, -1074. -/
inductive Binary64 where
  | finite (negative : Bool) (mantissa : Nat) (exponent : Int)
  | infinite (negative : Bool)
  | nan
  deriving DecidableEq, Repr, Inhabited

namespace Binary64

/-- A quotient rounded to the nearest integer, a half to the even one. -/
def roundQuotient (numerator denominator : Nat) : Nat :=
  let quotient := numerator / denominator
  let remainder := numerator % denominator
  if 2 * remainder < denominator then quotient
  else if denominator < 2 * remainder then quotient + 1
  else quotient + quotient % 2

def leastExponent : Int := -1074

def greatestExponent : Int := 971

/-- `numerator / denominator / 2^exponent`, rounded. -/
def scaled (numerator denominator : Nat) (exponent : Int) : Nat :=
  if 0 ≤ exponent then roundQuotient numerator (denominator * Nat.pow 2 exponent.toNat)
  else roundQuotient (numerator * Nat.pow 2 (-exponent).toNat) denominator

/-- The nearest number to a positive or zero quotient. -/
def ofQuotient (negative : Bool) (numerator denominator : Nat) : Binary64 :=
  if numerator = 0 then .finite negative 0 leastExponent
  else
    let guess : Int := (numerator.log2 : Int) - denominator.log2 - 52
    -- The guess is at most one too large; the next lower exponent keeps one more bit.
    let lower := max leastExponent (guess - 1)
    let exponent := if scaled numerator denominator lower < Nat.pow 2 53 then lower
      else if scaled numerator denominator (max leastExponent guess) < Nat.pow 2 53 then
        max leastExponent guess
      else max leastExponent (guess + 1)
    let mantissa := scaled numerator denominator exponent
    if greatestExponent < exponent then .infinite negative
    else .finite negative mantissa exponent

/-- The nearest number to `±digits · 10^exponent`. -/
def ofDecimal (negative : Bool) (digits : Nat) (exponent : Int) : Binary64 :=
  let magnitude : Int := (Nat.log2 digits : Int) * 3 / 10 + exponent
  if digits = 0 then .finite negative 0 leastExponent
  else if 400 < magnitude then .infinite negative
  else if magnitude < -500 then .finite negative 0 leastExponent
  else if 0 ≤ exponent then ofQuotient negative (digits * Nat.pow 10 exponent.toNat) 1
  else ofQuotient negative digits (Nat.pow 10 (-exponent).toNat)

def ofInt (i : Int) : Binary64 := ofQuotient (i < 0) i.natAbs 1

/-- The value as a quotient of natural numbers, without its sign. -/
def quotient (mantissa : Nat) (exponent : Int) : Nat × Nat :=
  if 0 ≤ exponent then (mantissa * Nat.pow 2 exponent.toNat, 1)
  else (mantissa, Nat.pow 2 (-exponent).toNat)

def toInt? : Binary64 → Option Int
  | .finite negative mantissa exponent =>
    let (n, d) := quotient mantissa exponent
    if n % d = 0 then some (if negative then -((n / d : Nat) : Int) else ((n / d : Nat) : Int))
    else none
  | _ => none

/-- The largest `n` with `10^n ≤ numerator / denominator`, for a positive quotient. -/
def decimalExponent (numerator denominator : Nat) : Int :=
  let guess : Int := ((numerator.log2 : Int) - denominator.log2) * 30103 / 100000
  let atLeast (n : Int) : Bool :=
    if 0 ≤ n then decide (denominator * Nat.pow 10 n.toNat ≤ numerator)
    else decide (denominator ≤ numerator * Nat.pow 10 (-n).toNat)
  if atLeast (guess + 1) then guess + 1 else if atLeast guess then guess else guess - 1

/-- The neighbours of a positive number on the grid of multiples of `10^place`, nearest first. -/
def gridNeighbours (numerator denominator : Nat) (place : Int) : List Nat :=
  let (n, d) :=
    if 0 ≤ place then (numerator, denominator * Nat.pow 10 place.toNat)
    else (numerator * Nat.pow 10 (-place).toNat, denominator)
  let low := n / d
  if 2 * (n % d) < d ∨ (2 * (n % d) = d ∧ low % 2 = 0) then [low, low + 1] else [low + 1, low]

/-- The shortest decimal, as digits and exponent, that rounds to a positive number. -/
def shortest (mantissa : Nat) (exponent : Int) : Nat × Int :=
  let (n, d) := quotient mantissa exponent
  let top := decimalExponent n d
  let hits := (List.range 17).flatMap fun (count : Nat) =>
    let place : Int := top - (count : Nat)
    (gridNeighbours n d place).filterMap fun digits =>
      if ofDecimal false digits place = .finite false mantissa exponent then some (digits, place)
      else none
  hits.headD (mantissa, 0)

def trimZeros : Nat → Nat → Int → Nat × Int
  | 0, digits, exponent => (digits, exponent)
  | fuel + 1, digits, exponent =>
    if digits ≠ 0 ∧ digits % 10 = 0 then trimZeros fuel (digits / 10) (exponent + 1)
    else (digits, exponent)

/-- The shortest text that reads back: positional from 1e-4 up to, not including, 1e16, with a point
always; else one digit before the point and an exponent of at least two digits. -/
def text : Binary64 → String
  | .nan => "nan"
  | .infinite negative => if negative then "-inf" else "inf"
  | .finite negative 0 _ => if negative then "-0.0" else "0.0"
  | .finite negative mantissa exponent =>
    let (digits, place) := shortest mantissa exponent
    let (digits, place) := trimZeros 20 digits place
    let ds := (toString digits).toList
    let zeros (n : Int) : List Char := List.replicate n.toNat '0'
    let point : Int := ds.length + place
    let body : List Char :=
      if -4 < point ∧ point ≤ 16 then
        if point ≤ 0 then '0' :: '.' :: (zeros (-point) ++ ds)
        else if 0 ≤ place then ds ++ zeros place ++ ['.', '0']
        else ds.take point.toNat ++ '.' :: ds.drop point.toNat
      else
        let e := point - 1
        let shown := toString e.natAbs
        let shown := if shown.length < 2 then "0" ++ shown else shown
        let fraction := ds.drop 1
        ds.take 1 ++ (if fraction.isEmpty then [] else '.' :: fraction) ++
          ['e', if e < 0 then '-' else '+'] ++ shown.toList
    String.ofList (if negative then '-' :: body else body)

end Binary64

end Ripple
