/-!
Texts that resemble a text: how much two texts have in common is counted by their longest common
block and, to both sides of it, the longest common blocks of what is left.
-/
namespace Ripple.Text.Similar

def commonStart : List Char → List Char → Nat
  | a :: as, b :: bs => if a = b then commonStart as bs + 1 else 0
  | _, _ => 0

structure Block where
  left : Nat
  right : Nat
  length : Nat
  deriving DecidableEq, Repr

/-- The longest common block; of several the one that starts first in `a`, then in `b`. -/
def longestBlock (a b : List Char) : Block :=
  let places := (List.range a.length).flatMap fun i => (List.range b.length).map fun j => (i, j)
  places.foldl
    (fun best (i, j) =>
      let n := commonStart (a.drop i) (b.drop j)
      if best.length < n then ⟨i, j, n⟩ else best)
    ⟨0, 0, 0⟩

/-- The number of characters in common; `fuel` bounds the number of nested blocks. -/
def commonCount : Nat → List Char → List Char → Nat
  | 0, _, _ => 0
  | fuel + 1, a, b =>
    let block := longestBlock a b
    if block.length = 0 then 0
    else
      commonCount fuel (a.take block.left) (b.take block.right) + block.length +
        commonCount fuel (a.drop (block.left + block.length)) (b.drop (block.right + block.length))

/-- Of the options at least three fifths of whose characters are in common with a text, at most
three that have the most in common. -/
def resembling (text : String) (options : List String) : List String :=
  let scored := options.filterMap fun option =>
    let common := commonCount option.length option.toList text.toList
    let total := option.length + text.length
    if 3 * total ≤ 10 * common then some (common, total, option) else none
  let before (a b : Nat × Nat × String) : Bool :=
    b.1 * a.2.1 < a.1 * b.2.1 || (b.1 * a.2.1 == a.1 * b.2.1 && b.2.2 ≤ a.2.2)
  ((scored.mergeSort before).take 3).map (·.2.2)

end Ripple.Text.Similar
