import Mathlib.Data.List.Induction
import Ripple.Files.Tree
import Ripple.Proofs.Text

/-! # Reading and resolving paths

A path that is made of proper names reads back as it was written. Resolving a path takes its double
dots back name by name, as a look-up does, so it names the place to which the path leads, if it
leads anywhere.
-/
namespace Ripple

namespace Path

/-- What can stand for a file or a directory in a path. -/
structure IsName (n : String) : Prop where
  ne_empty : n ≠ ""
  ne_dot : n ≠ "."
  notMem : '/' ∉ n.toList

instance (n : String) : Decidable (IsName n) :=
  decidable_of_iff (n ≠ "" ∧ n ≠ "." ∧ '/' ∉ n.toList)
    ⟨fun h => ⟨h.1, h.2.1, h.2.2⟩, fun h => ⟨h.ne_empty, h.ne_dot, h.notMem⟩⟩

theorem isName_of_mem_ofString {s n : String} (h : n ∈ (ofString s).names) : IsName n := by
  have hn : n ∈ namesOf s := h
  rw [namesOf, List.mem_filter, Text.split, List.mem_map] at hn
  obtain ⟨⟨piece, hpiece, rfl⟩, hproper⟩ := hn
  rw [decide_eq_true_eq] at hproper
  refine ⟨hproper.1, hproper.2, fun hslash => ?_⟩
  rw [String.toList_ofList] at hslash
  simpa using Text.eq_false_of_mem_splitBy hpiece _ hslash

theorem isName_of_mem_join {base p : Path} (hbase : ∀ n ∈ base.names, IsName n)
    (hp : ∀ n ∈ p.names, IsName n) : ∀ n ∈ (base.join p).names, IsName n := by
  rw [join]
  split
  · exact hp
  · exact List.forall_mem_append.mpr ⟨hbase, hp⟩

theorem namesOf_join {names : List String} (h : ∀ n ∈ names, IsName n) :
    namesOf (Text.join "/" names) = names := by
  cases names with
  | nil => rfl
  | cons n rest =>
    rw [namesOf, Text.split_join (by simp) fun m hm => (h m hm).notMem, List.filter_eq_self]
    exact fun m hm => by simpa using ⟨(h m hm).ne_empty, (h m hm).ne_dot⟩

theorem join_ne_empty {names : List String} (hne : names ≠ []) (h : ∀ n ∈ names, IsName n) :
    Text.join "/" names ≠ "" := by
  intro hempty
  have hnames := namesOf_join h
  rw [hempty] at hnames
  exact hne hnames.symm

theorem namesOf_slash_append (s : String) : namesOf ("/" ++ s) = namesOf s := by
  have hsplit : Text.split '/' ("/" ++ s) = "" :: Text.split '/' s := by
    rw [Text.split, String.toList_append]
    rfl
  rw [namesOf, namesOf, hsplit]
  rfl

/-- A text of names does not begin with a slash. -/
theorem startsWith_join {names : List String} (h : ∀ n ∈ names, IsName n) :
    Text.startsWith (Text.join "/" names) "/" = false := by
  cases names with
  | nil => rfl
  | cons n rest =>
    have hn := h n List.mem_cons_self
    obtain ⟨c, cs, hcs⟩ := List.exists_cons_of_ne_nil
      (String.toList_eq_nil_iff.not.mpr hn.ne_empty)
    have hc : c ≠ '/' := fun he => hn.notMem (by simp [hcs, he])
    obtain ⟨tail, htail⟩ := Text.prefix_join n rest
    rw [Text.startsWith, ← htail, hcs]
    simp [List.isPrefixOf, Ne.symm hc]

/-- An absolute path reads back as it was written. -/
theorem ofString_toString {names : List String} (h : ∀ n ∈ names, IsName n) :
    ofString (toString ⟨"/", names⟩) = ⟨"/", names⟩ := by
  cases names with
  | nil => rfl
  | cons n rest =>
    let s := Text.join "/" (n :: rest)
    have hslash : Text.startsWith s "/" = false := startsWith_join h
    have hslashes : Text.startsWith s "//" = false := by
      rw [Bool.eq_false_iff, Ne, Text.startsWith, List.isPrefixOf_iff_prefix] at hslash ⊢
      exact fun htwo => hslash ((List.prefix_append ['/'] ['/']).trans htwo)
    have hone : Text.startsWith ("/" ++ s) "/" = true := by
      rw [Text.startsWith, List.isPrefixOf_iff_prefix, String.toList_append]
      exact List.prefix_append _ _
    have htwo : Text.startsWith ("/" ++ s) "//" = false :=
      (Text.startsWith_append_append "/" s "/").trans hslash
    have hthree : Text.startsWith ("/" ++ s) "///" = false :=
      (Text.startsWith_append_append "/" s "//").trans hslashes
    have hnames : namesOf ("/" ++ s) = n :: rest :=
      (namesOf_slash_append s).trans (namesOf_join h)
    change ofString ("/" ++ s) = _
    simp [ofString, hone, htwo, hthree, hnames]

theorem collapse_concat (names : List String) (n : String) :
    collapse (names ++ [n]) =
      if n = ".." then (collapse names).dropLast else collapse names ++ [n] := by
  rw [collapse, List.foldl_append]
  rfl

theorem collapse_of_forall_ne {names : List String} (h : ∀ n ∈ names, n ≠ "..") :
    collapse names = names := by
  induction names using List.reverseRecOn with
  | nil => rfl
  | append_singleton names m ih =>
    rw [List.forall_mem_append] at h
    rw [collapse_concat, if_neg (h.2 m (List.mem_singleton_self m)), ih h.1]

end Path

namespace FileTree

variable (t : FileTree)

/-- The current directory is given by the names that lead down to it. -/
def Settled : Prop := ∀ n ∈ t.current, Path.IsName n ∧ n ≠ ".."

theorem walk_eq_collapse {shown : String} {start names place : List String} {node : FileNode}
    (h : t.walk shown (Path.collapse start) names = .ok (some (place, node))) :
    Path.collapse (start ++ names) = place := by
  induction names generalizing start with
  | nil =>
    rw [walk] at h
    simp only [Except.ok.injEq, Option.map_eq_some_iff, Prod.mk.injEq] at h
    obtain ⟨-, -, rfl, -⟩ := h
    rw [List.append_nil]
  | cons n rest ih =>
    rw [walk] at h
    split at h
    · rw [← List.singleton_append, ← List.append_assoc]
      refine ih ?_
      rw [Path.collapse_concat]
      split at h
      · cases h
      · split at h <;> simp_all
    · simp at h

variable {t}

/-- Where a path leads somewhere, it is resolved to the place it leads to. -/
theorem resolve_of_locate (h : t.Settled) {p : Path} {place : List String} {node : FileNode}
    (hp : t.locate p = .ok (some (place, node))) : t.resolve p = ⟨"/", place⟩ := by
  rw [locate] at hp
  split at hp
  · cases hp
  · rw [resolve]
    congr 1
    split at hp
    · rename_i habsolute
      rw [if_pos habsolute]
      exact t.walk_eq_collapse (show t.walk p.toString (Path.collapse []) _ = _ from hp)
    · rename_i hrelative
      rw [if_neg hrelative]
      rw [← Path.collapse_of_forall_ne fun n hn => (h n hn).2] at hp
      exact t.walk_eq_collapse hp

end FileTree

end Ripple
