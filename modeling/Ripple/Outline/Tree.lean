/-!
Syntax trees, and the search for the nodes of one sort below a node. The search keeps the nodes it
has still to visit on a stack, so that its depth does not grow with the depth of the tree.
-/
namespace Ripple.Outline

/-- A tree whose nodes carry a label and have their parts in source order. -/
inductive Tree (α : Type) where
  | node (label : α) (parts : List (Tree α))
  deriving Repr

namespace Tree

variable {α : Type}

def label : Tree α → α
  | node a _ => a

def parts : Tree α → List (Tree α)
  | node _ ts => ts

def sizes : List (Tree α) → Nat
  | [] => 0
  | node _ ts :: rest => sizes ts + sizes rest + 1

theorem sizes_append (s t : List (Tree α)) : sizes (s ++ t) = sizes s + sizes t := by
  induction s with
  | nil => simp [sizes]
  | cons n rest ih => cases n; simp only [List.cons_append, sizes, ih]; omega

/-- The search with a stack of pending trees. Each round takes the first pending tree and puts its
parts in its place, so the nodes that satisfy `p` are found in source order; `found` has them
reversed. The number of pending nodes falls by one in each round. -/
def search (p : α → Bool) : List (Tree α) → List (Tree α) → List (Tree α)
  | [], found => found.reverse
  | node a ts :: pending, found =>
    search p (ts ++ pending) (if p a then node a ts :: found else found)
termination_by pending => sizes pending
decreasing_by simp only [sizes_append, sizes]; omega

/-- The nodes below a tree's root whose labels satisfy `p`, in source order. -/
def descendants (p : α → Bool) (t : Tree α) : List (Tree α) := search p t.parts []

/-- What `f` reads off the labels of the nodes below a tree's root, in source order. -/
def collect {β : Type} (f : α → Option β) (t : Tree α) : List β :=
  (descendants (fun a => (f a).isSome) t).filterMap fun n => f n.label

end Tree

end Ripple.Outline
