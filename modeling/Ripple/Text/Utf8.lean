/-!
Reading UTF-8. The reader looks at one sequence at a time: its first octet fixes how many
continuation octets follow and the range of the first of them; every later one lies between 0x80
and 0xBF. A faulty sequence is the longest start of a proper one, and the fault says why it ends.
-/
namespace Ripple.Text.Utf8

/-- Why a sequence of octets is no character. -/
inductive Cause where
  | invalidStart
  | invalidContinuation
  | unexpectedEnd
  deriving DecidableEq, Repr

structure Fault where
  position : Nat
  octets : List UInt8
  cause : Cause
  deriving DecidableEq, Repr

/-- What a first octet announces: the bits it contributes, the number of continuation octets, and
the range of the first of them. -/
def announce? (b : UInt8) : Option (Nat × Nat × Nat × Nat) :=
  let n := b.toNat
  if n < 0x80 then some (n, 0, 0, 0)
  else if n < 0xc2 then none
  else if n < 0xe0 then some (n - 0xc0, 1, 0x80, 0xbf)
  else if n == 0xe0 then some (0, 2, 0xa0, 0xbf)
  else if n == 0xed then some (13, 2, 0x80, 0x9f)
  else if n < 0xf0 then some (n - 0xe0, 2, 0x80, 0xbf)
  else if n == 0xf0 then some (0, 3, 0x90, 0xbf)
  else if n < 0xf4 then some (n - 0xf0, 3, 0x80, 0xbf)
  else if n == 0xf4 then some (4, 3, 0x80, 0x8f)
  else none

/-- Continuation octets: the code point and the number of octets used, or the cause of the failure
and the number of octets that still fitted. -/
def continuation (bits : Nat) :
    Nat → Nat → Nat → Nat → List UInt8 → Except (Cause × Nat) (Nat × Nat)
  | 0, _, _, used, _ => .ok (bits, used)
  | _ + 1, _, _, used, [] => .error (.unexpectedEnd, used)
  | owed + 1, low, high, used, b :: rest =>
    let n := b.toNat
    if low ≤ n ∧ n ≤ high then
      continuation (bits * 64 + (n - 0x80)) owed 0x80 0xbf (used + 1) rest
    else .error (.invalidContinuation, used)

/-- The first sequence of a non-empty list: its character and length, or its fault and length. -/
def step (b : UInt8) (rest : List UInt8) : Except (Cause × Nat) (Char × Nat) :=
  match announce? b with
  | none => .error (.invalidStart, 1)
  | some (bits, owed, low, high) =>
    match continuation bits owed low high 1 rest with
    | .ok (n, used) => .ok (Char.ofNat n, used)
    | .error (cause, used) => .error (cause, used)

/-- Reads octets strictly, from a position on. `fuel` bounds the number of sequences. -/
def decodeFrom : Nat → Nat → List UInt8 → Except Fault (List Char)
  | _, _, [] => .ok []
  | 0, _, _ :: _ => .ok []
  | fuel + 1, position, b :: rest =>
    match step b rest with
    | .ok (c, used) =>
      (decodeFrom fuel (position + used) (rest.drop (used - 1))).map (c :: ·)
    | .error (cause, used) => .error ⟨position, (b :: rest).take used, cause⟩

def decode (octets : List UInt8) : Except Fault (List Char) :=
  decodeFrom octets.length 0 octets

/-- Reads octets with a replacement character for every faulty sequence. -/
def decodeLossyFrom : Nat → List UInt8 → List Char
  | _, [] => []
  | 0, _ :: _ => []
  | fuel + 1, b :: rest =>
    match step b rest with
    | .ok (c, used) => c :: decodeLossyFrom fuel (rest.drop (used - 1))
    | .error (_, used) => '\ufffd' :: decodeLossyFrom fuel (rest.drop (used - 1))

/-- Reads octets with a replacement character for every faulty sequence. -/
def decodeLossy (octets : List UInt8) : List Char := decodeLossyFrom octets.length octets

def encode (s : String) : List UInt8 := s.toUTF8.toList

def Cause.text : Cause → String
  | .invalidStart => "invalid start byte"
  | .invalidContinuation => "invalid continuation byte"
  | .unexpectedEnd => "unexpected end of data"

/-- A number in two lower-case hexadecimal digits. -/
def hexOctet (b : UInt8) : String :=
  String.ofList [Nat.digitChar (b.toNat / 16), Nat.digitChar (b.toNat % 16)]

def Fault.message (f : Fault) : String :=
  let place :=
    match f.octets with
    | [b] => "byte 0x" ++ hexOctet b ++ " in position " ++ toString f.position
    | octets => "bytes in position " ++ toString f.position ++ "-" ++
        toString (f.position + octets.length - 1)
  "'utf-8' codec can't decode " ++ place ++ ": " ++ f.cause.text

end Ripple.Text.Utf8
