import Ripple.Ignore.Pattern

/-!
Path filters: a path passes when the include lines take it in, or there are none, and the exclude
lines do not.
-/
namespace Ripple

structure PathFilter where
  /-- Nothing if every path is included. -/
  includes : Option (List Ignore.Pattern)
  /-- Nothing if no path is excluded. -/
  excludes : Option (List Ignore.Pattern)
  deriving DecidableEq, Repr

namespace PathFilter

/-- The patterns of a list of lines; a missing or empty list counts as none at all. -/
def patterns? (lines : Option (List String)) : Except Ignore.Fault (Option (List Ignore.Pattern)) :=
  match lines with
  | none | some [] => .ok none
  | some lines => (Ignore.parseAll lines).map some

def make (includes excludes : Option (List String)) : Except Ignore.Fault PathFilter := do
  let includes ← patterns? includes
  let excludes ← patterns? excludes
  return ⟨includes, excludes⟩

def passes (f : PathFilter) (path : String) : Bool :=
  (match f.includes with
    | none => true
    | some ps => Ignore.takesIn ps path) &&
  !(match f.excludes with
    | none => false
    | some ps => Ignore.takesIn ps path)

def select (f : PathFilter) (paths : List String) : List String := paths.filter f.passes

end PathFilter

end Ripple
