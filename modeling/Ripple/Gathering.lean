/-!
Removal of repetitions, where of several elements with the same key the first stays in its place,
and gathering: elements that are told apart by a key and carry parts become one element for each
key. The first element of a key stays in its place and takes in the parts of the others, each part
once.
-/
namespace Ripple

/-- The elements whose key does not occur before them. -/
def distinctBy {α κ : Type} [DecidableEq κ] (key : α → κ) : List α → List α
  | [] => []
  | a :: rest => a :: (distinctBy key rest).filter fun b => key b ≠ key a

/-- The distinct elements in the order of their first occurrence. -/
def distinct {α : Type} [DecidableEq α] (l : List α) : List α := distinctBy id l

/-- How elements are told apart, what they carry, and how their parts are told apart. -/
structure Gathering (α β κ π : Type) where
  key : α → κ
  parts : α → List β
  withParts : α → List β → α
  partKey : β → π
  key_withParts (a : α) (l : List β) : key (withParts a l) = key a := by intros; rfl
  parts_withParts (a : α) (l : List β) : parts (withParts a l) = l := by intros; rfl
  withParts_withParts (a : α) (l m : List β) :
    withParts (withParts a l) m = withParts a m := by intros; rfl

namespace Gathering

variable {α β κ π : Type} [DecidableEq κ] [DecidableEq π]

def carrying (g : Gathering α β κ π) (a : α) (parts : List β) : α :=
  g.withParts a (distinctBy g.partKey parts)

/-- Takes one more element into a gathered list. -/
def absorb (g : Gathering α β κ π) (gathered : List α) (a : α) : List α :=
  match gathered with
  | [] => [g.carrying a (g.parts a)]
  | first :: rest =>
    if g.key first = g.key a then g.carrying first (g.parts first ++ g.parts a) :: rest
    else first :: absorb g rest a

/-- One element for each key, in the order of their first occurrence, with all parts of the key. -/
def gather (g : Gathering α β κ π) (items : List α) : List α := items.foldl g.absorb []

end Gathering

end Ripple
