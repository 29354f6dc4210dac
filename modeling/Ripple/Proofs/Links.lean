import Ripple.Files.Links
import Ripple.Proofs.Outcome
import Ripple.Proofs.Paths

/-! # Following links

A path is resolved name by name, with the targets of links in between. The place that comes out has
no links and no double dots on its way, and it is where the path leads to if the path leads anywhere
at all. In a tree without links nothing but the double dots is taken back.
-/
namespace Ripple

open Outcome

namespace Links

variable {links : Links}

/-- No link stands on the way to the place. -/
def Free (links : Links) (place : List String) : Prop :=
  ∀ names name, names ++ [name] <+: place → links.lookup (names ++ [name]) = none

theorem free_nil : links.Free [] := fun names name h => by simp at h

theorem Free.dropLast {place : List String} (h : links.Free place) : links.Free place.dropLast :=
  fun names name hnames => h names name (hnames.trans (List.dropLast_prefix place))

theorem Free.concat {place : List String} (h : links.Free place) {name : String}
    (hname : links.lookup (place ++ [name]) = none) : links.Free (place ++ [name]) := by
  intro names last hnames
  rcases List.prefix_concat_iff.mp hnames with heq | hbefore
  · rw [heq, hname]
  · exact h names last hbefore

theorem free_of_take {place : List String}
    (h : ∀ n < place.length, links.lookup (place.take (n + 1)) = none) : links.Free place := by
  intro names name hnames
  have htake := List.prefix_iff_eq_take.mp hnames
  have hlength := hnames.length_le
  rw [List.length_append, List.length_singleton] at htake hlength
  rw [htake]
  exact h names.length hlength

/-- A name leads up, through a link, or down. -/
theorem step_cases (links : Links) (reached : List String) (name : String) :
    (∀ {m : Type → Type} [Monad m] (follow : List String → Path → m (List String)),
      links.step follow reached name = pure reached.dropLast) ∨
    (∃ target, ∀ {m : Type → Type} [Monad m] (follow : List String → Path → m (List String)),
      links.step follow reached name = follow reached (Path.ofString target)) ∨
    links.lookup (reached ++ [name]) = none ∧
      ∀ {m : Type → Type} [Monad m] (follow : List String → Path → m (List String)),
        links.step follow reached name = pure (reached ++ [name]) := by
  by_cases hup : name = ".."
  · exact .inl fun _ => if_pos hup
  · cases hlink : links.lookup (reached ++ [name]) with
    | some target => exact .inr (.inl ⟨target, fun _ => by rw [step, if_neg hup, hlink]⟩)
    | none => exact .inr (.inr ⟨rfl, fun _ => by rw [step, if_neg hup, hlink]⟩)

/-- What holds at the root, and further up, and one proper name further down where no link stands,
holds of the place that a path leads to. -/
theorem trace_keeps {P : List String → Prop} (hroot : P [])
    (hup : ∀ place, P place → P place.dropLast)
    (hdown : ∀ place name, P place → Path.IsName name → links.lookup (place ++ [name]) = none →
      P (place ++ [name]))
    {depth : Nat} {base place : List String} {p : Path} (hbase : P base)
    (hp : ∀ n ∈ p.names, Path.IsName n) (h : links.trace depth base p = some place) : P place := by
  induction depth generalizing base p place with
  | zero => cases h
  | succ depth ih =>
    rw [trace] at h
    have hreached : P (if p.isAbsolute then [] else base) := by
      split
      · exact hroot
      · exact hbase
    generalize (if p.isAbsolute then [] else base) = reached at h hreached
    generalize p.names = names at h hp
    induction names generalizing reached with
    | nil =>
      cases h
      exact hreached
    | cons name rest ihnames =>
      obtain ⟨hname, hrest⟩ := List.forall_mem_cons.mp hp
      rw [List.foldlM_cons, Option.bind_eq_bind, Option.bind_eq_some_iff] at h
      obtain ⟨next, hnext, h⟩ := h
      refine ihnames next ?_ h hrest
      rcases links.step_cases reached name with hstep | ⟨target, hstep⟩ | ⟨hfree, hstep⟩
      · rw [hstep] at hnext
        cases hnext
        exact hup reached hreached
      · rw [hstep] at hnext
        exact ih hreached (fun _ => Path.isName_of_mem_ofString) hnext
      · rw [hstep] at hnext
        cases hnext
        exact hdown reached name hreached hname hfree

end Links

namespace LinkedTree

variable {t : LinkedTree} {p : Path}

/-- The current directory is given by the names that lead down to it, past no link. -/
structure Settled (t : LinkedTree) : Prop where
  names : ∀ n ∈ t.current, Path.IsName n
  free : t.links.Free t.current

theorem trace_eq_resolve (t : LinkedTree) (p : Path) :
    t.links.trace (t.links.length + 1) t.current p = some (t.resolve p).names :=
  (Option.some_get _).symm

/-- A path that has been resolved reads back as it was written. -/
theorem ofString_resolve (ht : t.Settled) (hp : ∀ n ∈ p.names, Path.IsName n) :
    Path.ofString (t.resolve p).toString = t.resolve p := by
  refine Path.ofString_toString (Links.trace_keeps (P := fun place => ∀ n ∈ place, Path.IsName n)
    (by simp) (fun _ h n hn => h n (List.dropLast_subset _ hn)) (fun place name h hname _ => ?_)
    ht.names hp (t.trace_eq_resolve p))
  exact List.forall_mem_append.mpr ⟨h, List.forall_mem_singleton.mpr hname⟩

/-- No link is left in a path that has been resolved. -/
theorem free_resolve (ht : t.Settled) (hp : ∀ n ∈ p.names, Path.IsName n) :
    t.links.Free (t.resolve p).names :=
  Links.trace_keeps Links.free_nil (fun _ => Links.Free.dropLast)
    (fun _ _ h _ hname => h.concat hname) ht.free hp (t.trace_eq_resolve p)

/-- What is found by looking it up is found by following links alone. -/
theorem trace_of_walk {shown : String} {depth : Nat} {base place : List String}
    (h : t.walk shown depth base p = .ok place) : t.links.trace depth base p = some place := by
  induction depth generalizing base p place with
  | zero => cases h
  | succ depth ih =>
    rw [walk] at h
    rw [Links.trace]
    generalize (if p.isAbsolute then [] else base) = reached at h ⊢
    generalize p.names = names at h ⊢
    induction names generalizing reached with
    | nil =>
      cases h
      rfl
    | cons name rest ihnames =>
      obtain ⟨next, hnext, h⟩ := bind_eq_ok_iff.mp (List.foldlM_cons.symm.trans h)
      have hnext : t.links.step (t.walk shown depth) reached name = .ok next := by
        rw [enter] at hnext
        split_ifs at hnext
        exact hnext
      have hstep : t.links.step (t.links.trace depth) reached name = some next := by
        rcases t.links.step_cases reached name with hstep | ⟨target, hstep⟩ | ⟨-, hstep⟩
        · rw [hstep] at hnext ⊢
          cases hnext
          rfl
        · rw [hstep] at hnext ⊢
          exact ih hnext
        · rw [hstep] at hnext ⊢
          cases hnext
          rfl
      rw [List.foldlM_cons, hstep]
      exact ihnames next h

/-- Where a path leads somewhere, it is resolved to the place it leads to. -/
theorem resolve_of_locate {place : List String} {node : FileNode}
    (h : t.locate p = .ok (some (place, node))) : t.resolve p = ⟨"/", place⟩ := by
  rw [locate] at h
  split at h
  · cases h
  · rw [found.eq_def] at h
    split at h
    · next found hfound =>
      have htrace := trace_of_walk hfound
      rw [trace_eq_resolve, Option.some.injEq] at htrace
      obtain ⟨-, -, rfl, -⟩ : ∃ n, t.node? found = some n ∧ found = place ∧ n = node := by
        simpa using h
      rw [← htrace]
      rfl
    · cases h
    · cases h

theorem step_nil {m : Type → Type} [Monad m] (follow : List String → Path → m (List String))
    (reached : List String) (name : String) :
    Links.step [] follow reached name =
      pure (if name = ".." then reached.dropLast else reached ++ [name]) := by
  rw [Links.step]
  split <;> rfl

/-- In a tree without links a path is resolved by taking back its double dots. -/
@[simp] theorem resolve_coe {t : FileTree} (ht : t.Settled) (p : Path) :
    (t : LinkedTree).resolve p = t.resolve p := by
  have hfold : ∀ start names : List String,
      names.foldlM (Links.step [] (Links.trace [] 0)) (Path.collapse start) =
        some (Path.collapse (start ++ names)) := by
    intro start names
    induction names generalizing start with
    | nil => simp
    | cons name rest ih =>
      rw [List.foldlM_cons, step_nil, ← Path.collapse_concat]
      exact (ih (start ++ [name])).trans (by simp)
  have hcurrent : Path.collapse t.current = t.current :=
    Path.collapse_of_forall_ne fun n hn => (ht n hn).2
  have htrace : Links.trace [] 1 t.current p = some (t.resolve p).names := by
    rw [Links.trace, FileTree.resolve]
    split
    · exact hfold [] p.names
    · have hrelative := hfold t.current p.names
      rwa [hcurrent] at hrelative
  have heq := (trace_eq_resolve t p).symm.trans htrace
  exact congrArg (Path.mk "/") (Option.some.inj heq)

@[simp] theorem locate_coe (t : FileTree) (p : Path) : (t : LinkedTree).locate p = t.locate p := by
  have hfold : ∀ reached names : List String,
      (t : LinkedTree).found (names.foldlM
          ((t : LinkedTree).enter p.toString ((t : LinkedTree).walk p.toString 0)) reached) =
        t.walk p.toString reached names := by
    intro reached names
    induction names generalizing reached with
    | nil => rfl
    | cons name rest ih =>
      rw [List.foldlM_cons, enter, FileTree.walk]
      cases hnode : t.node? reached with
      | none => rfl
      | some node =>
        cases node with
        | file octets => rfl
        | directory =>
          rw [if_pos rfl]
          by_cases hlong : FileTree.nameLimit < name.utf8ByteSize
          · rw [if_pos hlong, if_pos hlong]
            rfl
          · rw [if_neg hlong, if_neg hlong, step_nil]
            by_cases hup : name = ".."
            · rw [if_pos hup, if_pos hup]
              exact ih _
            · rw [if_neg hup, if_neg hup]
              exact ih _
  rw [locate, FileTree.locate]
  split
  · rfl
  · exact hfold _ p.names

end LinkedTree

end Ripple
