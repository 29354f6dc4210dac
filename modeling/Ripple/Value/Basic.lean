import Ripple.Decimal.Binary64
import Ripple.Time.Basic

/-!
Documents as data: what a configuration file or a request holds once it has been read, before
anything is known about its meaning.
-/
namespace Ripple

inductive Value where
  | null
  | bool (b : Bool)
  | int (i : Int)
  | float (x : Binary64)
  | text (s : String)
  /-- A text with half of a surrogate pair, which is no sequence of characters. -/
  | brokenText
  | bytes (octets : List UInt8)
  | date (d : Date)
  | stamp (t : Timestamp)
  | list (items : List Value)
  /-- Members without order, in the order of their first occurrence. -/
  | set (items : List Value)
  /-- Entries in the order in which their keys first occurred. -/
  | map (entries : List (Value × Value))
  deriving Inhabited, Repr

namespace Value

mutual

def same : Value → Value → Bool
  | .null, .null => true
  | .bool a, .bool b => a = b
  | .int i, .int j => i = j
  | .float x, .float y => x = y
  | .text s, .text t => s = t
  | .brokenText, .brokenText => true
  | .bytes a, .bytes b => a = b
  | .date d, .date e => d = e
  | .stamp t, .stamp u => t = u
  | .list xs, .list ys => sameItems xs ys
  | .set xs, .set ys => sameItems xs ys
  | .map es, .map fs => sameEntries es fs
  | _, _ => false

def sameItems : List Value → List Value → Bool
  | [], [] => true
  | x :: xs, y :: ys => same x y && sameItems xs ys
  | _, _ => false

def sameEntries : List (Value × Value) → List (Value × Value) → Bool
  | [], [] => true
  | (k, v) :: es, (l, w) :: fs => same k l && same v w && sameEntries es fs
  | _, _ => false

end

mutual

theorem same_iff : ∀ v w : Value, same v w = true ↔ v = w
  | .list xs, w => by cases w <;> simp [same, sameItems_iff xs]
  | .set xs, w => by cases w <;> simp [same, sameItems_iff xs]
  | .map es, w => by cases w <;> simp [same, sameEntries_iff es]
  | .null, w | .bool _, w | .int _, w | .float _, w | .text _, w | .brokenText, w | .bytes _, w
  | .date _, w | .stamp _, w => by cases w <;> simp [same]

theorem sameItems_iff : ∀ xs ys : List Value, sameItems xs ys = true ↔ xs = ys
  | [], ys => by cases ys <;> simp [sameItems]
  | x :: xs, ys => by cases ys <;> simp [sameItems, same_iff x, sameItems_iff xs]

theorem sameEntries_iff : ∀ es fs : List (Value × Value), sameEntries es fs = true ↔ es = fs
  | [], fs => by cases fs <;> simp [sameEntries]
  | (k, v) :: es, fs => by
    cases fs <;> simp [sameEntries, same_iff k, same_iff v, sameEntries_iff es, Prod.ext_iff]

end

instance : DecidableEq Value := fun v w => decidable_of_iff _ (same_iff v w)

def record (entries : List (String × Value)) : Value :=
  .map (entries.map fun (k, v) => (.text k, v))

/-- The entries with a key set: a key that is there keeps its place, a new one goes to the end. -/
def put {α : Type} (key : Value) (value : α) : List (Value × α) → List (Value × α)
  | [] => [(key, value)]
  | (k, v) :: rest => if k == key then (k, value) :: rest else (k, v) :: put key value rest

def find? {α : Type} (key : String) (entries : List (Value × α)) : Option α :=
  match entries with
  | [] => none
  | (.text k, v) :: rest => if k = key then some v else find? key rest
  | _ :: rest => find? key rest

def get? (v : Value) (key : String) : Option Value :=
  match v with
  | .map entries => find? key entries
  | _ => none

/-- The name of a value's kind, as messages to the user give it. -/
def kindName : Value → String
  | .null => "NoneType"
  | .bool _ => "bool"
  | .int _ => "int"
  | .float _ => "float"
  | .text _ | .brokenText => "str"
  | .bytes _ => "bytes"
  | .date _ => "date"
  | .stamp _ => "datetime"
  | .list _ => "list"
  | .set _ => "set"
  | .map _ => "dict"

/-- The name of a value's kind with the module that it comes from, if it comes from one. -/
def qualifiedKindName : Value → String
  | .date _ => "datetime.date"
  | .stamp _ => "datetime.datetime"
  | v => v.kindName

/-- Values that count as absent where something is required: nothing, zero and the empty ones. -/
def isHollow : Value → Bool
  | .null => true
  | .bool b => !b
  | .int i => i == 0
  | .float (.finite _ m _) => m == 0
  | .float _ => false
  | .text s => s.isEmpty
  | .brokenText => false
  | .bytes b => b.isEmpty
  | .date _ | .stamp _ => false
  | .list xs | .set xs => xs.isEmpty
  | .map es => es.isEmpty

end Value

end Ripple
