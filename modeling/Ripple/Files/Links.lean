import Ripple.Files.Tree

/-!
Trees of files with links. A link stands for what its target leads to from the directory that holds
it. Links that lead back to themselves are left out, and so are the greatest number of links that a
system follows, the greatest length of a path and permissions.
-/
namespace Ripple

/-- The targets of links by the names that lead to the links from the root. -/
abbrev Links := List (List String × String)

namespace Links

variable {m : Type → Type} [Monad m]

/-- One name further from a directory; a link is followed from the directory that holds it. -/
def step (links : Links) (follow : List String → Path → m (List String)) (reached : List String)
    (name : String) : m (List String) :=
  if name = ".." then pure reached.dropLast
  else
    match links.lookup (reached ++ [name]) with
    | some target => follow reached (Path.ofString target)
    | none => pure (reached ++ [name])

/-- The place that a path leads to from a directory, whether something stands there or not, if
fewer links than the number given are inside of each other on the way. -/
def trace (links : Links) : Nat → List String → Path → Option (List String)
  | 0, _, _ => none
  | depth + 1, base, p =>
    p.names.foldlM (links.step (links.trace depth)) (if p.isAbsolute then [] else base)

end Links

/-- A tree of files in which no link leads back to itself: what a link leads to is found without
following it again. -/
structure LinkedTree extends FileTree where
  links : Links
  ends : ∀ l ∈ links, (links.trace links.length l.1.dropLast (Path.ofString l.2)).isSome = true

namespace LinkedTree

instance : Coe FileTree LinkedTree where
  coe t := { t with links := [], ends := by simp }

theorem isSome_trace (t : LinkedTree) (base : List String) (p : Path) :
    (t.links.trace (t.links.length + 1) base p).isSome = true := by
  rw [Links.trace]
  generalize (if p.isAbsolute then [] else base) = reached
  induction p.names generalizing reached with
  | nil => rfl
  | cons name rest ih =>
    have hstep : (t.links.step (t.links.trace t.links.length) reached name).isSome = true := by
      rw [Links.step]
      split
      · rfl
      · split
        · next target htarget =>
          obtain ⟨before, after, hlinks, -⟩ := List.lookup_eq_some_iff.mp htarget
          have hends := t.ends (reached ++ [name], target) (by simp [hlinks])
          rwa [List.dropLast_concat] at hends
        · rfl
    obtain ⟨next, hnext⟩ := Option.isSome_iff_exists.mp hstep
    rw [List.foldlM_cons, hnext]
    exact ih next

/-- The place that a path leads to, without links and double dots. What is not there is taken for a
directory. -/
def resolve (t : LinkedTree) (p : Path) : Path :=
  ⟨"/", (t.links.trace (t.links.length + 1) t.current p).get (t.isSome_trace t.current p)⟩

/-- One name further through a directory that is there; nothing is an error when nothing stands on
the way. -/
def enter (t : LinkedTree) (shown : String)
    (follow : List String → Path → Except (Option NameTooLong) (List String))
    (reached : List String) (name : String) : Except (Option NameTooLong) (List String) :=
  if t.node? reached = some .directory then
    if FileTree.nameLimit < name.utf8ByteSize then .error (some ⟨shown⟩)
    else t.links.step follow reached name
  else .error none

/-- Follows a path down through directories that are there, as `Links.trace` does. -/
def walk (t : LinkedTree) (shown : String) :
    Nat → List String → Path → Except (Option NameTooLong) (List String)
  | 0, _, _ => .error none
  | depth + 1, base, p =>
    p.names.foldlM (t.enter shown (t.walk shown depth)) (if p.isAbsolute then [] else base)

/-- The place where a walk has ended, with what stands there. -/
def found (t : LinkedTree) : Except (Option NameTooLong) (List String) →
    Except NameTooLong (Option (List String × FileNode))
  | .ok place => .ok ((t.node? place).map (place, ·))
  | .error none => .ok none
  | .error (some fault) => .error fault

/-- The absolute place and the node that a path leads to. A path with a NUL leads nowhere. -/
def locate (t : LinkedTree) (p : Path) : Except NameTooLong (Option (List String × FileNode)) :=
  if p.toString.toList.contains '\x00' then .ok none
  else t.found (t.walk p.toString (t.links.length + 1) t.current p)

end LinkedTree

end Ripple
