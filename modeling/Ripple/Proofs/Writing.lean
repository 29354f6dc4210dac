import Mathlib.Data.List.Infix
import Ripple.Files.Writing
import Ripple.Proofs.Lookup
import Ripple.Proofs.Paths

/-! # Making directories and writing files

A path leads past one place after another, its double dots taken back. Directories can be made along
a path if the system takes its names and no file stands at any of these places. Afterwards a
directory stands at each of them, and everything else is as it was. In a directory that is there a
file can be written at every place where no directory stands.
-/
namespace Ripple

/-- The system takes the names of the path. -/
structure Path.Usable (p : Path) : Prop where
  root : '\x00' ∉ p.root.toList
  plain : ∀ name ∈ p.names, '\x00' ∉ name.toList
  short : ∀ name ∈ p.names, name.utf8ByteSize ≤ FileTree.nameLimit

theorem Path.Usable.notMem_toString {p : Path} (h : p.Usable) : '\x00' ∉ p.toString.toList := by
  rw [Path.toString]
  split
  · split
    · decide
    · exact h.root
  · rw [String.toList_append, List.mem_append, not_or]
    refine ⟨h.root, fun hmem => ?_⟩
    rcases Text.mem_join hmem with hmem | ⟨name, hname, hmem⟩
    · exact absurd hmem (by decide)
    · exact h.plain name hname hmem

theorem Path.Usable.take {p : Path} (h : p.Usable) {front : List String}
    (hfront : front <+: p.names) :
    Path.Usable { p with names := front } :=
  ⟨h.root, fun name hname => h.plain name (hfront.subset hname),
    fun name hname => h.short name (hfront.subset hname)⟩

theorem Path.Usable.parent {p : Path} (h : p.Usable) : p.parent.Usable :=
  h.take (List.dropLast_prefix _)

theorem Path.names_eq {p : Path} (h : p.names ≠ []) : p.names = p.parent.names ++ [p.name] := by
  rw [name, List.getLastD_eq_getLast?, List.getLast?_eq_some_getLast h]
  exact (List.dropLast_append_getLast h).symm

namespace FileTree

variable {t made : FileTree} {p : Path} {place other : List String} {node : FileNode}

@[simp] theorem current_set : (t.set place node).current = t.current := by
  rw [set]
  split <;> rfl

theorem node?_set_self (h : place ≠ []) : (t.set place node).node? place = some node := by
  have hnone : (t.nodes.filter (·.1 ≠ place)).lookup place = none := by
    rw [List.lookup_eq_none_iff]
    intro entry hentry
    have hne : entry.1 ≠ place := of_decide_eq_true (List.mem_filter.mp hentry).2
    exact bne_iff_ne.mpr hne.symm
  rw [set, if_neg (by simpa using h), node?, if_neg (by simpa using h), List.lookup_append, hnone]
  simp

theorem lookup_filter_of_ne {α : Type} (entries : List (List String × α)) (h : other ≠ place) :
    (entries.filter (·.1 ≠ place)).lookup other = entries.lookup other := by
  induction entries with
  | nil => rfl
  | cons entry rest ih =>
    obtain ⟨key, value⟩ := entry
    by_cases hkey : key = place
    · have hother : (other == key) = false := beq_false_of_ne fun he => h (he.trans hkey)
      rw [List.filter_cons_of_neg (by simpa using hkey), ih, List.lookup_cons, hother]
    · rw [List.filter_cons_of_pos (by simpa using hkey), List.lookup_cons, List.lookup_cons, ih]

theorem node?_set_of_ne (h : other ≠ place) : (t.set place node).node? other = t.node? other := by
  have hother : (other == place) = false := beq_false_of_ne h
  rw [set]
  split
  · rfl
  · rw [node?, node?]
    split
    · rfl
    · rw [List.lookup_append, lookup_filter_of_ne _ h, List.lookup_cons, hother]
      simp

/-- A directory stays unless a file is put in its place. -/
theorem node?_set_of_directory (hplace : t.node? place = some .directory → node = .directory)
    (h : t.node? other = some .directory) : (t.set place node).node? other = some .directory := by
  by_cases heq : other = place
  · subst heq
    by_cases hroot : other = []
    · rw [hroot]
      rfl
    · rw [node?_set_self hroot, hplace h]
  · rw [node?_set_of_ne heq, h]

theorem node?_set_file_ne {octets : List UInt8} (h : t.node? other ≠ some .directory) :
    (t.set place (.file octets)).node? other ≠ some .directory := by
  by_cases heq : other = place
  · subst heq
    have hroot : other ≠ [] := fun he => h (by rw [he]; rfl)
    rw [node?_set_self hroot]
    simp
  · rwa [node?_set_of_ne heq]

/-- Puts one file or directory after another in its place. -/
def setAll (t : FileTree) (entries : List (List String × FileNode)) : FileTree :=
  entries.foldl (fun t entry => t.set entry.1 entry.2) t

theorem current_setAll (entries : List (List String × FileNode)) :
    (t.setAll entries).current = t.current := by
  induction entries generalizing t with
  | nil => rfl
  | cons entry rest ih => exact ih.trans current_set

theorem node?_setAll_of_notMem {entries : List (List String × FileNode)}
    (h : place ∉ entries.map Prod.fst) : (t.setAll entries).node? place = t.node? place := by
  induction entries generalizing t with
  | nil => rfl
  | cons entry rest ih =>
    rw [List.map_cons, List.mem_cons, not_or] at h
    exact (ih h.2).trans (node?_set_of_ne h.1)

/-- What is put in a place stands there if nothing else is put there. -/
theorem node?_setAll_of_mem {entries : List (List String × FileNode)}
    {entry : List String × FileNode} (hmem : entry ∈ entries) (hroot : entry.1 ≠ [])
    (hsole : ∀ other ∈ entries, other.1 = entry.1 → other = entry) :
    (t.setAll entries).node? entry.1 = some entry.2 := by
  induction entries generalizing t with
  | nil => exact absurd hmem List.not_mem_nil
  | cons first rest ih =>
    obtain ⟨hfirst, hrest⟩ := List.forall_mem_cons.mp hsole
    by_cases hlast : entry ∈ rest
    · exact ih hlast hrest
    · have hentry : first = entry := ((List.mem_cons.mp hmem).resolve_right hlast).symm
      have hnew : entry.1 ∉ rest.map Prod.fst := by
        intro hmap
        obtain ⟨other, hother, hplace⟩ := List.mem_map.mp hmap
        exact hlast (hrest other hother hplace ▸ hother)
      refine (node?_setAll_of_notMem hnew).trans ?_
      rw [hentry]
      exact node?_set_self hroot

/-- Everything stands in a directory, and so does the one from which paths are seen. -/
structure WellFormed (t : FileTree) : Prop where
  settled : t.Settled
  current : t.node? t.current = some .directory
  above : ∀ entry ∈ t.nodes, t.node? entry.1.dropLast = some .directory

theorem WellFormed.node?_dropLast (h : t.WellFormed) (hnode : t.node? place = some node) :
    t.node? place.dropLast = some .directory := by
  by_cases hroot : place = []
  · rw [hroot]
    rfl
  · rw [node?, if_neg (by simpa using hroot), List.lookup_eq_some_iff] at hnode
    obtain ⟨before, after, hnodes, -⟩ := hnode
    exact h.above (place, node) (hnodes ▸ List.mem_append_right _ List.mem_cons_self)

theorem WellFormed.set (h : t.WellFormed) (habove : t.node? place.dropLast = some .directory)
    (hplace : t.node? place = some .directory → node = .directory) :
    (t.set place node).WellFormed where
  settled := by
    rw [Settled, current_set]
    exact h.settled
  current := by
    rw [current_set]
    exact node?_set_of_directory hplace h.current
  above := by
    intro entry hentry
    refine node?_set_of_directory hplace ?_
    rw [FileTree.set] at hentry
    split at hentry
    · exact h.above entry hentry
    · rcases List.mem_append.mp hentry with hentry | hentry
      · exact h.above entry (List.mem_of_mem_filter hentry)
      · rw [List.mem_singleton.mp hentry]
        exact habove

def origin (t : FileTree) (p : Path) : List String := if p.isAbsolute then [] else t.current

theorem WellFormed.node?_origin (h : t.WellFormed) (p : Path) :
    t.node? (t.origin p) = some .directory := by
  rw [origin]
  split
  · rfl
  · exact h.current

theorem names_resolve (t : FileTree) (p : Path) :
    (t.resolve p).names = Path.collapse (t.origin p ++ p.names) := by
  rw [resolve, origin]
  split <;> rfl

theorem names_resolve_parent (h : p.names ≠ []) : (t.resolve p).names =
    if p.name = ".." then (t.resolve p.parent).names.dropLast
    else (t.resolve p.parent).names ++ [p.name] := by
  have hcollapse := Path.collapse_concat (t.origin p ++ p.parent.names) p.name
  rw [List.append_assoc, ← Path.names_eq h, ← names_resolve] at hcollapse
  rw [hcollapse, names_resolve t p.parent]
  rfl

theorem collapse_origin (h : t.Settled) : Path.collapse (t.origin p) = t.origin p := by
  rw [origin]
  split
  · rfl
  · exact Path.collapse_of_forall_ne fun n hn => (h n hn).2

/-- The places that a path leads past, from where it is seen to where it ends. -/
def way (t : FileTree) (p : Path) : List (List String) :=
  p.names.inits.map fun front => (t.resolve { p with names := front }).names

theorem mem_way : place ∈ t.way p ↔
    ∃ front, front <+: p.names ∧ Path.collapse (t.origin p ++ front) = place := by
  rw [way, List.mem_map]
  refine exists_congr fun front => and_congr (List.mem_inits _ _) ?_
  rw [names_resolve]
  rfl

theorem way_congr (h : made.current = t.current) (p : Path) : made.way p = t.way p := by
  simp only [way, resolve, h]

theorem resolve_congr (h : made.current = t.current) (p : Path) : made.resolve p = t.resolve p := by
  simp only [resolve, h]

theorem resolve_mem_way (t : FileTree) (p : Path) : (t.resolve p).names ∈ t.way p :=
  mem_way.mpr ⟨p.names, List.prefix_rfl, (names_resolve t p).symm⟩

theorem way_take_subset {front : List String} (h : front <+: p.names) :
    t.way { p with names := front } ⊆ t.way p := by
  intro place hplace
  obtain ⟨names, hnames, hcollapse⟩ := mem_way.mp hplace
  exact mem_way.mpr ⟨names, hnames.trans h, hcollapse⟩

theorem mem_way_iff (t : FileTree) (p : Path) :
    place ∈ t.way p ↔ place ∈ t.way p.parent ∨ place = (t.resolve p).names := by
  constructor
  · intro hplace
    obtain ⟨front, hfront, hcollapse⟩ := mem_way.mp hplace
    rcases List.eq_nil_or_concat p.names with hnil | ⟨above, name, hnames⟩
    · right
      rw [names_resolve, hnil, ← List.prefix_nil.mp (hnil ▸ hfront), hcollapse]
    · rw [List.concat_eq_append] at hnames
      rw [hnames, List.prefix_concat_iff] at hfront
      rcases hfront with rfl | hfront
      · right
        rw [names_resolve, hnames, hcollapse]
      · left
        refine mem_way.mpr ⟨front, ?_, hcollapse⟩
        rw [Path.parent, hnames, List.dropLast_concat]
        exact hfront
  · rintro (hplace | rfl)
    · exact way_take_subset (List.dropLast_prefix _) hplace
    · exact t.resolve_mem_way p

theorem locate_of_usable (hp : p.Usable) (t : FileTree) :
    t.locate p = t.walk p.toString (t.origin p) p.names := by
  rw [locate, if_neg (by simpa using hp.notMem_toString), origin]

/-- Past directories, a path leads to its end. -/
theorem walk_of_directories {start names : List String} (shown : String)
    (hshort : ∀ name ∈ names, name.utf8ByteSize ≤ nameLimit)
    (h : ∀ front, front <+: names → t.node? (Path.collapse (start ++ front)) = some .directory) :
    t.walk shown (Path.collapse start) names =
      .ok (some (Path.collapse (start ++ names), .directory)) := by
  induction names generalizing start with
  | nil =>
    have hstart := h [] List.prefix_rfl
    rw [List.append_nil] at hstart ⊢
    rw [walk, hstart]
    rfl
  | cons name rest ih =>
    have hstart := h [] (List.nil_prefix)
    rw [List.append_nil] at hstart
    have hname : ¬ nameLimit < name.utf8ByteSize :=
      Nat.not_lt.mpr (hshort name List.mem_cons_self)
    have hrest : t.walk shown (Path.collapse (start ++ [name])) rest =
        .ok (some (Path.collapse (start ++ [name] ++ rest), .directory)) := by
      refine ih (fun n hn => hshort n (List.mem_cons_of_mem name hn)) fun front hfront => ?_
      rw [List.append_assoc]
      exact h _ ((List.prefix_append_right_inj [name]).mpr hfront)
    rw [Path.collapse_concat, List.append_assoc] at hrest
    rw [walk, hstart]
    simp only [if_neg hname]
    split
    · rename_i hup
      rwa [if_pos hup] at hrest
    · rename_i hup
      rwa [if_neg hup] at hrest

/-- A path that leads somewhere leads past directories. -/
theorem directory_of_walk {start names : List String} {shown : String}
    (h : t.walk shown (Path.collapse start) names = .ok (some (place, node))) :
    t.node? place = some node ∧ ∀ front, front <+: names → front ≠ names →
      t.node? (Path.collapse (start ++ front)) = some .directory := by
  induction names generalizing start with
  | nil =>
    rw [walk] at h
    simp only [Except.ok.injEq, Option.map_eq_some_iff, Prod.mk.injEq] at h
    obtain ⟨_, hnode, rfl, rfl⟩ := h
    exact ⟨hnode, fun front hfront hne => absurd (List.prefix_nil.mp hfront) hne⟩
  | cons name rest ih =>
    rw [walk] at h
    split at h
    · rename_i hstart
      have hstep :
          t.walk shown (Path.collapse (start ++ [name])) rest = .ok (some (place, node)) := by
        rw [Path.collapse_concat]
        split at h
        · cases h
        · split at h <;> simp_all
      obtain ⟨hnode, hways⟩ := ih hstep
      refine ⟨hnode, fun front hfront hne => ?_⟩
      cases front with
      | nil => rwa [List.append_nil]
      | cons other front =>
        obtain ⟨rfl, hrest⟩ := List.cons_prefix_cons.mp hfront
        have hway := hways front hrest fun he => hne (by rw [he])
        rwa [List.append_assoc] at hway
    · cases h

/-- A path leads to a directory if and only if it leads past directories. -/
theorem locate_eq_directory_iff (ht : t.Settled) (hp : p.Usable) :
    t.locate p = .ok (some ((t.resolve p).names, .directory)) ↔
      ∀ place ∈ t.way p, t.node? place = some .directory := by
  rw [locate_of_usable hp, ← collapse_origin ht, names_resolve]
  constructor
  · intro h place hplace
    obtain ⟨hend, hfront⟩ := directory_of_walk h
    obtain ⟨front, hprefix, rfl⟩ := mem_way.mp hplace
    by_cases heq : front = p.names
    · rwa [heq]
    · exact hfront front hprefix heq
  · intro h
    exact walk_of_directories _ hp.short fun front hfront => h _ (mem_way.mpr ⟨front, hfront, rfl⟩)

/-- The system takes the names of the path, and no file stands in its way. -/
structure Passable (t : FileTree) (p : Path) : Prop where
  usable : p.Usable
  free : ∀ place ∈ t.way p, t.node? place = none ∨ t.node? place = some .directory

theorem Passable.take (h : t.Passable p) {front : List String} (hfront : front <+: p.names) :
    t.Passable { p with names := front } :=
  ⟨h.usable.take hfront, fun place hplace => h.free place (way_take_subset hfront hplace)⟩

theorem Passable.parent (h : t.Passable p) : t.Passable p.parent := h.take (List.dropLast_prefix _)

/-- A path without files in its way leads to a directory or nowhere. -/
theorem Passable.locate (ht : t.Settled) (h : t.Passable p) :
    t.locate p = .ok (some ((t.resolve p).names, .directory)) ∨ t.locate p = .ok none := by
  obtain ⟨found, hfound⟩ := t.walk_of_short h.usable.short p.toString (t.origin p)
  rw [← locate_of_usable h.usable] at hfound
  cases found with
  | none => exact .inr hfound
  | some found =>
    obtain ⟨place, node⟩ := found
    have hplace := congrArg Path.names (resolve_of_locate ht hfound)
    have hnode : t.node? place = some node := by
      rw [locate_of_usable h.usable, ← collapse_origin ht] at hfound
      exact (directory_of_walk hfound).1
    have hfree := h.free _ (t.resolve_mem_way p)
    rw [hplace, hnode] at hfree
    simp only [reduceCtorEq, Option.some.injEq, false_or] at hfree
    rw [hfree] at hfound
    rw [hplace]
    exact .inl hfound

theorem Passable.locate_eq_none (ht : t.Settled) (h : t.Passable p)
    (hgap : ¬ ∀ place ∈ t.way p, t.node? place = some .directory) : t.locate p = .ok none :=
  (h.locate ht).resolve_left fun hfound => hgap ((locate_eq_directory_iff ht h.usable).mp hfound)

theorem Passable.fileOnWay (ht : t.Settled) (h : t.Passable p) : t.fileOnWay p = false := by
  rw [FileTree.fileOnWay, List.any_eq_false]
  intro n _
  have hfront := h.take (p.names.take_prefix (n + 1))
  rcases hfront.locate ht with hlocate | hlocate <;>
    simp [file?, hlocate, Except.map, Except.toOption]

/-- The path ends with a name in a directory that is there. -/
structure Entry (t : FileTree) (p : Path) : Prop where
  usable : p.Usable
  directory : ∀ place ∈ t.way p.parent, t.node? place = some .directory
  proper : p.names ≠ []
  name_ne : p.name ≠ ".."

namespace Entry

variable (h : t.Entry p)

include h

theorem resolve : (t.resolve p).names = (t.resolve p.parent).names ++ [p.name] := by
  rw [names_resolve_parent h.proper, if_neg h.name_ne]

theorem resolve_ne_nil : (t.resolve p).names ≠ [] := by
  rw [h.resolve]
  exact List.append_ne_nil_of_right_ne_nil _ (List.cons_ne_nil _ _)

theorem locate_parent (ht : t.Settled) :
    t.locate p.parent = .ok (some ((t.resolve p.parent).names, .directory)) :=
  (locate_eq_directory_iff ht h.usable.parent).mpr h.directory

theorem short : ¬ nameLimit < p.name.utf8ByteSize := by
  refine Nat.not_lt.mpr (h.usable.short p.name ?_)
  rw [Path.names_eq h.proper]
  exact List.mem_append_right _ List.mem_cons_self

theorem locate (ht : t.Settled) :
    t.locate p = .ok ((t.node? (t.resolve p).names).map ((t.resolve p).names, ·)) := by
  have hparent := h.locate_parent ht
  have hdirectory := h.directory _ (t.resolve_mem_way p.parent)
  rw [locate_of_usable h.usable.parent] at hparent
  rw [locate_of_usable h.usable, Path.names_eq h.proper]
  refine (t.walk_append hparent p.toString [p.name]).trans ?_
  rw [walk, hdirectory]
  simp only [if_neg h.short, if_neg h.name_ne]
  rw [walk, h.resolve]

theorem placeFor (ht : t.Settled) : t.placeFor p = .ok (t.resolve p).names := by
  rw [FileTree.placeFor, h.locate_parent ht]
  simp only [if_neg h.short, h.resolve]

theorem writeText (ht : t.Settled) (hfree : t.node? (t.resolve p).names ≠ some .directory)
    (text : String) : t.writeText p text =
      .ok (t.set (t.resolve p).names (.file (Text.Utf8.encode text))) := by
  rw [FileTree.writeText, h.locate ht]
  cases hnode : t.node? (t.resolve p).names with
  | none =>
    rw [Option.map_none]
    simp only [h.placeFor ht]
    rfl
  | some node =>
    cases node with
    | file octets => rfl
    | directory => exact absurd hnode hfree

theorem file? (ht : t.Settled) {octets : List UInt8}
    (hnode : t.node? (t.resolve p).names = some (.file octets)) :
    t.file? p = .ok (some octets) := by
  rw [FileTree.file?, h.locate ht, hnode]
  rfl

/-- Names in a directory stay where they are if no directory is taken away. -/
theorem set (hplace : t.node? place = some .directory → node = .directory) :
    (t.set place node).Entry p where
  usable := h.usable
  directory := by
    rw [way_congr current_set]
    exact fun other hother => node?_set_of_directory hplace (h.directory other hother)
  proper := h.proper
  name_ne := h.name_ne

end Entry

/-- Directories have been made along a path, and nothing else has changed. -/
structure Paved (t : FileTree) (p : Path) (made : FileTree) : Prop where
  wellFormed : made.WellFormed
  current : made.current = t.current
  directory : ∀ place ∈ t.way p, made.node? place = some .directory
  other : ∀ place, place ∉ t.way p → made.node? place = t.node? place

/-- In a directory that is there a further one can be made. -/
theorem makeDirectory_paved (ht : t.WellFormed) (hp : t.Passable p)
    (h : ∀ place ∈ t.way p.parent, t.node? place = some .directory) :
    ∃ made, t.makeDirectory p = .ok made ∧ t.Paved p made := by
  rcases hp.free _ (t.resolve_mem_way p) with hnone | hdirectory
  · have hroot : (t.resolve p).names ≠ [] := fun he => by simp [he, node?] at hnone
    have hup : t.node? (t.resolve p.parent).names = some .directory :=
      h _ (t.resolve_mem_way p.parent)
    have hentry : t.Entry p := by
      have hne : p.names ≠ [] := by
        intro hnil
        have hparent : p.parent = p := by
          rw [Path.parent, hnil, List.dropLast_nil, ← hnil]
        rw [hparent, hnone] at hup
        cases hup
      refine ⟨hp.usable, h, hne, fun hname => ?_⟩
      rw [names_resolve_parent hne, if_pos hname, ht.node?_dropLast hup] at hnone
      cases hnone
    have habove : t.node? (t.resolve p).names.dropLast = some .directory := by
      rwa [hentry.resolve, List.dropLast_concat]
    have hfree : t.node? (t.resolve p).names = some .directory → FileNode.directory = .directory :=
      fun _ => rfl
    refine ⟨t.set (t.resolve p).names .directory, ?_, ht.set habove hfree, current_set, ?_, ?_⟩
    · rw [makeDirectory, hentry.locate ht.settled, hnone, Option.map_none]
      simp only [hentry.placeFor ht.settled]
      rfl
    · intro place hplace
      rcases (mem_way_iff t p).mp hplace with hplace | rfl
      · exact node?_set_of_directory hfree (h place hplace)
      · exact node?_set_self hroot
    · intro place hplace
      exact node?_set_of_ne fun he => hplace (he ▸ t.resolve_mem_way p)
  · have hall : ∀ place ∈ t.way p, t.node? place = some .directory := by
      intro place hplace
      rcases (mem_way_iff t p).mp hplace with hplace | rfl
      · exact h place hplace
      · exact hdirectory
    refine ⟨t, ?_, ht, rfl, hall, fun _ _ => rfl⟩
    rw [makeDirectory, (locate_eq_directory_iff ht.settled hp.usable).mpr hall]

theorem Paved.trans {above : FileTree} (h : t.Paved p.parent above) (h' : above.Paved p made) :
    t.Paved p made where
  wellFormed := h'.wellFormed
  current := h'.current.trans h.current
  directory := way_congr h.current p ▸ h'.directory
  other := by
    intro place hplace
    have habove : place ∉ t.way p.parent := fun hmem => hplace ((mem_way_iff t p).mpr (.inl hmem))
    rw [h'.other place (way_congr h.current p ▸ hplace), h.other place habove]

/-- What was there before is still there. -/
theorem Paved.node? (h : t.Paved p made) (hp : t.Passable p) (hnode : t.node? place = some node) :
    made.node? place = some node := by
  by_cases hway : place ∈ t.way p
  · rw [h.directory place hway]
    rcases hp.free place hway with hfree | hfree
    · exact absurd (hnode.symm.trans hfree) (Option.some_ne_none node)
    · exact hfree.symm.trans hnode
  · rw [h.other place hway, hnode]

theorem Passable.of_paved {above : FileTree} (h : t.Passable p) (habove : t.Paved p.parent above) :
    above.Passable p := by
  refine ⟨h.usable, fun place hplace => ?_⟩
  rw [way_congr habove.current] at hplace
  by_cases hway : place ∈ t.way p.parent
  · exact .inr (habove.directory place hway)
  · rw [habove.other place hway]
    exact h.free place hplace

/-- Directories can be made along every path without files in its way. -/
theorem makePath_paved (ht : t.WellFormed) {above : Nat} (habove : p.names.length ≤ above)
    (hp : t.Passable p) : ∃ made, t.makePath above p = .ok made ∧ t.Paved p made := by
  -- on the directories that may be missing; with a gap before the last name, those above come first
  induction above generalizing p with
  | zero =>
    have hnil : p.names = [] := List.eq_nil_of_length_eq_zero (Nat.le_zero.mp habove)
    refine makeDirectory_paved ht hp fun place hplace => ?_
    obtain ⟨front, hfront, rfl⟩ := mem_way.mp hplace
    rw [Path.parent, hnil] at hfront
    rw [List.prefix_nil.mp hfront, List.append_nil, collapse_origin ht.settled, ht.node?_origin]
  | succ above ih =>
    by_cases hparent : ∀ place ∈ t.way p.parent, t.node? place = some .directory
    · obtain ⟨made, hmade, hpaved⟩ := makeDirectory_paved ht hp hparent
      exact ⟨made, by rw [makePath, hmade], hpaved⟩
    · have hmissing : t.makeDirectory p = .error (.missing p.toString) := by
        have hgap : ¬ ∀ place ∈ t.way p, t.node? place = some .directory := fun hall =>
          hparent fun place hplace => hall place ((mem_way_iff t p).mpr (.inl hplace))
        rw [makeDirectory, hp.locate_eq_none ht.settled hgap]
        simp only [placeFor, hp.parent.locate_eq_none ht.settled hparent,
          hp.fileOnWay ht.settled]
        rfl
      obtain ⟨way, hway, hpaved⟩ := ih (by simp [Path.parent]; omega) hp.parent
      obtain ⟨made, hmade, hpaved'⟩ := makeDirectory_paved hpaved.wellFormed (hp.of_paved hpaved)
        (way_congr hpaved.current p.parent ▸ hpaved.directory)
      refine ⟨made, ?_, hpaved.trans hpaved'⟩
      rw [makePath, hmissing]
      simp only [hway]
      exact hmade

end FileTree

end Ripple
