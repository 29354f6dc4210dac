/-!
The natural order of texts: runs of digits compare as numbers, so `f2` comes before `f10`.
-/
namespace Ripple.Text.Natural

/-- A text cut into runs without digits and runs of digits, by turns. The first run has no digits
and may be empty. -/
def runs (digits : Bool) : List Char → List (List Char)
  | [] => [[]]
  | c :: rest =>
    if c.isDigit == digits then
      match runs digits rest with
      | [] => [[c]]
      | run :: more => (c :: run) :: more
    else
      match runs (!digits) rest with
      | [] => [[], [c]]
      | run :: more => [] :: (c :: run) :: more

def number (run : List Char) : Nat := run.foldl (fun n c => n * 10 + (c.toNat - 48)) 0

/-- Compares two lists of runs, of which the first has digits if `digits` says so. -/
def compareRuns : Bool → List (List Char) → List (List Char) → Ordering
  | _, [], [] => .eq
  | _, [], _ => .lt
  | _, _, [] => .gt
  | digits, a :: as, b :: bs =>
    let first :=
      if digits then
        (compare (number a) (number b)).then (compare (String.ofList a) (String.ofList b))
      else compare (String.ofList a) (String.ofList b)
    first.then (compareRuns (!digits) as bs)

/-- Whether the first text does not come behind the second one. -/
def le (a b : String) : Bool :=
  compareRuns false (runs false a.toList) (runs false b.toList) != .gt

end Ripple.Text.Natural
