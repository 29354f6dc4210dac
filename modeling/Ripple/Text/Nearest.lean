import Ripple.Text.Natural
import Ripple.Text.Basic

/-!
Names that a mistyped name may have meant. The distance of two names counts inserted, dropped and
changed letters and swaps of neighbours; names that differ in case alone are one step apart.
-/
namespace Ripple.Text.Nearest

/-- The rest of a row of the table of distances. `x` is the row's letter and `before?` the letter of
the row above; `left` is the cell before and `b?` its letter; the last two lists are the row above
from one place before on, and the second row above from two places before on. -/
def cells (x : Char) (before? : Option Char) :
    Nat → Option Char → List Char → List Nat → List Nat → List Nat
  | left, b?, y :: ys, diagonal :: up :: ups, skipped =>
    let step := min (min (up + 1) (left + 1)) (diagonal + if x = y then 0 else 1)
    let cell :=
      match before?, b?, skipped with
      | some w, some z, s :: _ => if x = z ∧ w = y then min step (s + 1) else step
      | _, _, _ => step
    cell ::
      cells x before? cell (some y) ys (up :: ups) (if b?.isSome then skipped.tail else skipped)
  | _, _, _, _, _ => []

/-- The last row of the table, from the letters still to come, the number of letters so far, the
last of them, and the two last rows. -/
def lastRow (b : List Char) : Nat → Option Char → List Nat → List Nat → List Char → List Nat
  | _, _, _, row, [] => row
  | n, before?, above, row, x :: xs =>
    lastRow b (n + 1) (some x) row ((n + 1) :: cells x before? (n + 1) none b row above) xs

/-- The number of steps between two names. -/
def editDistance (a b : List Char) : Nat :=
  (lastRow b 0 none [] (List.range (b.length + 1)) a).getLastD 0

def distance (a b : String) : Nat :=
  if a = b then 0
  else if lower a = lower b then 1
  else editDistance (lower a).toList (lower b).toList

/-- The most steps that still count as near. -/
def reach (name : String) : Nat := 2 * name.length / 5 + 1

/-- The names near the given one, the nearest first. -/
def near (name : String) (options : List String) : List String :=
  let reached := options.filterMap fun option =>
    let d := distance name option
    if d ≤ reach name then some (d, option) else none
  (reached.mergeSort fun a b => a.1 < b.1 ∨ a.1 = b.1 ∧ Natural.le a.2 b.2).map (·.2)

def alternatives : List String → String
  | [] => ""
  | [a] => a
  | [a, b] => a ++ " or " ++ b
  | names => ", ".intercalate names.dropLast ++ ", or " ++ names.getLastD ""

/-- A question for the nearest five names, or nothing if none is near. -/
def question (name : String) (options : List String) : String :=
  match near name options with
  | [] => ""
  | found => " Did you mean " ++ alternatives ((found.take 5).map fun s => "'" ++ s ++ "'") ++ "?"

end Ripple.Text.Nearest
