import Ripple.Files.Tree

/-! # Looking up paths

A look-up follows the names of a path one by one and fails at a name that is too long. So below a
path that leads somewhere every path can be looked up whose further names are short enough.
-/
namespace Ripple.FileTree

variable (t : FileTree)

/-- Behind names that lead to a place, the walk goes on from there. -/
theorem walk_append {shown : String} {reached names place : List String} {node : FileNode}
    (h : t.walk shown reached names = .ok (some (place, node))) (other : String)
    (rest : List String) : t.walk other reached (names ++ rest) = t.walk other place rest := by
  induction names generalizing reached with
  | nil =>
    rw [walk] at h
    cases hnode : t.node? reached with
    | none => simp [hnode] at h
    | some n =>
      rw [hnode] at h
      cases h
      rfl
  | cons name names ih =>
    rw [List.cons_append, walk]
    rw [walk] at h
    cases hnode : t.node? reached with
    | none => simp [hnode] at h
    | some n =>
      cases n with
      | file octets => simp [hnode] at h
      | directory =>
        rw [hnode] at h
        simp only at h ⊢
        split at h
        · cases h
        · rename_i hshort
          rw [if_neg hshort]
          split at h
          · rename_i hup
            rw [if_pos hup, ih h]
          · rename_i hup
            rw [if_neg hup, ih h]

/-- Short names can be followed from everywhere. -/
theorem walk_of_short {names : List String} (h : ∀ name ∈ names, name.utf8ByteSize ≤ nameLimit)
    (shown : String) (reached : List String) : ∃ found, t.walk shown reached names = .ok found := by
  induction names generalizing reached with
  | nil => exact ⟨_, rfl⟩
  | cons name names ih =>
    have hrest : ∀ other ∈ names, other.utf8ByteSize ≤ nameLimit := fun other hother =>
      h other (List.mem_cons_of_mem name hother)
    rw [walk]
    cases t.node? reached with
    | none => exact ⟨none, rfl⟩
    | some n =>
      cases n with
      | file octets => exact ⟨none, rfl⟩
      | directory =>
        have hshort : ¬ nameLimit < name.utf8ByteSize := by
          have := h name List.mem_cons_self
          omega
        simp only [if_neg hshort]
        split
        · exact ih hrest _
        · exact ih hrest _

/-- A name that is too long cannot be followed from a directory. -/
theorem walk_of_long {reached : List String} (hdirectory : t.node? reached = some .directory)
    {name : String} (hlong : nameLimit < name.utf8ByteSize) (shown : String)
    (rest : List String) : t.walk shown reached (name :: rest) = .error ⟨shown⟩ := by
  rw [walk, hdirectory]
  exact if_pos hlong

theorem exists_locate_of_exists? {p : Path} (h : t.exists? p = .ok true) :
    ∃ place node, t.locate p = .ok (some (place, node)) := by
  rw [exists?] at h
  cases hp : t.locate p with
  | error f => simp [hp, Except.map] at h
  | ok found =>
    cases found with
    | none => simp [hp, Except.map] at h
    | some x => exact ⟨x.1, x.2, rfl⟩

/-- Below a path that leads somewhere, a path with short names can be looked up. -/
theorem exists?_join {base p : Path} (hbase : t.exists? base = .ok true)
    (hrelative : p.isAbsolute = false)
    (hshort : ∀ name ∈ p.names, name.utf8ByteSize ≤ nameLimit) :
    ∃ there, t.exists? (base.join p) = .ok there := by
  obtain ⟨place, node, hplace⟩ := t.exists_locate_of_exists? hbase
  have hjoin : base.join p = { base with names := base.names ++ p.names } := by
    rw [Path.join, hrelative]
    rfl
  rw [locate] at hplace
  split at hplace
  · cases hplace
  · rw [exists?, locate]
    split
    · exact ⟨false, rfl⟩
    · rw [hjoin]
      change ∃ there, (t.walk _ (if base.isAbsolute then [] else t.current)
        (base.names ++ p.names)).map Option.isSome = .ok there
      rw [t.walk_append hplace]
      obtain ⟨found, hfound⟩ := t.walk_of_short hshort
        (Path.toString { base with names := base.names ++ p.names }) place
      rw [hfound]
      exact ⟨found.isSome, rfl⟩

end Ripple.FileTree
