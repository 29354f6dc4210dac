import Ripple.Proofs.Checked
import Ripple.Proofs.Depth
import Ripple.Proofs.Integrity
import Ripple.Proofs.Links
import Ripple.Proofs.Loading

/-! # What a loaded configuration guarantees

Two stages deal with the paths of repositories: the one sees relative paths from the directory of
the file, the other puts home directories in the place of tildes. They do not get in each other's
way, because what the first one has seen is absolute and reads back as it was written. So every
repository of a loaded configuration has an absolute path that follows from what is written, and
nothing else of the document has been touched.
-/
namespace Ripple

open Outcome

def Path.StartsAtHome (p : Path) : Prop :=
  p.root = "" ∧ ∃ first ∈ p.names.head?, first.toList.head? = some '~'

namespace Homes

/-- Home directories are given by absolute paths. -/
structure Absolute (homes : Homes) : Prop where
  own : Text.startsWith homes.own "/" = true
  others : ∀ other ∈ homes.others, Text.startsWith other.2 "/" = true

variable {homes : Homes} {p q : Path}

theorem expand_of_not_startsAtHome (h : ¬ p.StartsAtHome) : homes.expand p = .valid p := by
  rw [expand.eq_def]
  split
  · rename_i first rest hroot hnames
    split
    · rename_i user hfirst
      exact absurd ⟨hroot, first, by simp [hnames], by simp [hfirst]⟩ h
    · rfl
  · rfl

theorem isAbsolute_of_expand (habsolute : homes.Absolute) (hp : p.StartsAtHome)
    (h : homes.expand p = .valid q) : q.isAbsolute = true := by
  obtain ⟨hroot, first, hhead, hfirst⟩ := hp
  obtain ⟨rest, hnames⟩ := List.head?_eq_some_iff.mp hhead
  obtain ⟨user, huser⟩ := List.head?_eq_some_iff.mp hfirst
  have hjoin : ∀ home : String, Text.startsWith home "/" = true →
      ((Path.ofString home).join ⟨"", rest⟩).isAbsolute = true :=
    fun _ hhome => Path.isAbsolute_ofString hhome
  rw [expand.eq_def] at h
  simp only [hroot, hnames, huser] at h
  split at h
  · rename_i home hhome
    cases h
    split at hhome
    · cases hhome
      exact hjoin _ habsolute.own
    · obtain ⟨before, after, hothers, -⟩ := List.lookup_eq_some_iff.mp hhome
      exact hjoin home (habsolute.others (String.ofList user, home) (by simp [hothers]))
  · cases h

end Homes

def Value.RecordEqualBut (key : String) (v w : Value) : Prop :=
  ∃ es fs, v = .map es ∧ w = .map fs ∧ EqualBut (· = .text key) es fs

namespace Config

open ValueGraph (Cell)

/-- The path of a repository follows from the one that is written in a file of the directory. -/
structure Places (homes : Homes) (t : LinkedTree) (directory written path : Path) : Prop where
  absolute : path.isAbsolute = true
  /-- A relative path is seen from the directory. -/
  resolved : written.isAbsolute = false → ¬ written.StartsAtHome →
    path = t.resolve (directory.join written)
  /-- No link is left in it. -/
  free : written.isAbsolute = false → ¬ written.StartsAtHome → t.links.Free path.names
  /-- So it is where the relative path leads to. -/
  located : written.isAbsolute = false → ¬ written.StartsAtHome → ∀ place node,
    t.locate (directory.join written) = .ok (some (place, node)) → path = ⟨"/", place⟩
  /-- Of any other path the home directory is filled in. -/
  expanded : written.isAbsolute = true ∨ written.StartsAtHome → homes.expand written = .valid path

/-- The item of a document has a written path from which the path of the repository follows. -/
def Describes (homes : Homes) (t : LinkedTree) (directory : Path) (d : ValueGraph) (item : Cell)
    (r : Repository) : Prop :=
  ∃ s, s ≠ "" ∧ d.get? item "path" = some (.atom (.text s)) ∧
    Places homes t directory (Path.ofString s) r.path

variable {homes : Homes} {t : LinkedTree} {directory : Path}

/-- A path that is absolute once its home directory is filled in. -/
theorem places_of_expand {written q : Path} (hq : homes.expand written = .valid q)
    (habsolute : q.isAbsolute = true) : Places homes t directory written q := by
  have hother : written.isAbsolute = false → ¬ written.StartsAtHome → False :=
    fun hrelative hhome => by
      rw [Homes.expand_of_not_startsAtHome hhome] at hq
      cases hq
      rw [hrelative] at habsolute
      cases habsolute
  exact {
    absolute := habsolute
    resolved := fun hr hh => (hother hr hh).elim
    free := fun hr hh => (hother hr hh).elim
    located := fun hr hh => (hother hr hh).elim
    expanded := fun _ => hq }

/-- A relative path, which therefore does not start at a home directory. -/
theorem places_of_join (hhomes : homes.Absolute) (ht : t.Settled) {written q : Path}
    (hnames : ∀ n ∈ (directory.join written).names, Path.IsName n)
    (hq : homes.expand written = .valid q) (hrelative : q.isAbsolute = false) :
    q = written ∧ Places homes t directory written (t.resolve (directory.join written)) := by
  have hhome : ¬ written.StartsAtHome := fun hhome => by
    rw [Homes.isAbsolute_of_expand hhomes hhome hq] at hrelative
    cases hrelative
  rw [Homes.expand_of_not_startsAtHome hhome] at hq
  cases hq
  exact ⟨rfl, {
    absolute := rfl
    resolved := fun _ _ => rfl
    free := fun _ _ => LinkedTree.free_resolve ht hnames
    located := fun _ _ _ _ hplace => LinkedTree.resolve_of_locate hplace
    expanded := fun hother => by simp [hrelative, hhome] at hother }⟩

/-- What the two stages make of a written path. -/
theorem places_of_resolvePath (hhomes : homes.Absolute) (ht : t.Settled)
    (hdirectory : ∀ n ∈ directory.names, Path.IsName n) {s resolved : String} {path : Path}
    (hs : resolvePath homes t directory s = .ok resolved)
    (hpath : Checker.repositoryPath homes (.text resolved) = .valid path) :
    s ≠ "" ∧ Places homes t directory (Path.ofString s) path := by
  obtain ⟨hne, hexpand⟩ : resolved ≠ "" ∧ homes.expand (Path.ofString resolved) = .valid path := by
    rw [Checker.repositoryPath] at hpath
    split at hpath
    · cases hpath
    · next hne => exact ⟨by simpa using hne, hpath⟩
  obtain ⟨q, hq, ⟨hkept, rfl⟩ | ⟨hwritten, hrelative, rfl⟩⟩ := resolvePath_cases hs
  · -- the path stays as it is written, so the second stage expands what is written
    rw [hq] at hexpand
    cases hexpand
    exact ⟨hne, places_of_expand hq (hkept.resolve_left hne)⟩
  · -- what becomes of a relative path reads back and is left alone
    have hnames : ∀ n ∈ (directory.join (Path.ofString s)).names, Path.IsName n :=
      Path.isName_of_mem_join hdirectory fun _ => Path.isName_of_mem_ofString
    obtain ⟨rfl, hplaces⟩ := places_of_join hhomes ht hnames hq hrelative
    rw [LinkedTree.ofString_resolve ht hnames, homes.expand_of_isAbsolute hplaces.absolute]
      at hexpand
    cases hexpand
    exact ⟨hwritten, hplaces⟩

variable {environment : List (String × String)} {p : Path} {c : Config} {d seen : ValueGraph}
  {base : List (Value × Value)}

/-- Loading sees the paths of the repositories from the directory and checks the whole. -/
theorem exists_check_of_load (h : load homes environment t p = .ok c) : ∃ d seen base,
    readDocument t p = .ok d ∧ HasRepositories d ∧
      resolveRepositories homes t p.parent d = .ok seen ∧
      Settings.read environment = .ok base ∧
      Config.check homes (Settings.mergeEntries base (seen.values depth)) = .valid c := by
  cases hread : readDocument t p with
  | error fault =>
    rw [load, hread] at h
    cases h
  | ok d =>
    by_cases hfull : HasRepositories d
    · rw [load_of_hasRepositories hread hfull] at h
      obtain ⟨seen, hseen, h⟩ := bind_eq_ok_iff.mp h
      rw [settle] at h
      split at h
      · cases h
      · obtain ⟨all, hall, h⟩ := bind_eq_ok_iff.mp h
        obtain ⟨base, hbase, rfl⟩ := map_eq_ok_iff.mp (mapError_eq_ok_iff.mp hall)
        refine ⟨d, seen, base, rfl, hfull, hseen, hbase, ?_⟩
        cases hcheck : Config.check homes (Settings.mergeEntries base (seen.values depth)) with
        | valid c' =>
          rw [hcheck] at h
          cases h
          rfl
        | flawed complaints =>
          rw [hcheck] at h
          cases h
        | broken why =>
          rw [hcheck] at h
          cases h
    · obtain ⟨fault, hload, -⟩ : ∃ fault : LoadFault,
          load homes environment t p = .error fault ∧ fault.Announced :=
        load_of_not_hasRepositories hread hfull
      rw [hload] at h
      cases h

/-- Only a list is read as repositories: the members of a set are no mappings. -/
theorem exists_items_of_check {repos : Cell} {old : Option Value} {depth : Nat}
    {rs : List Repository} (hseen : seen.Tidy) (htidy : repos.Tidy)
    (hfull : (seen.value (depth + 1) repos).isHollow = false)
    (h : Checker.list (Repository.check homes)
      (Settings.mergeValue old (seen.value (depth + 1) repos)) = .valid rs) :
    ∃ items, seen.items? repos = some items := by
  cases repos with
  | atom v =>
    have hv := htidy v rfl
    cases v <;> first | cases h | cases hv
  | part n =>
    rw [ValueGraph.value_part] at h hfull
    rw [ValueGraph.items?]
    rcases hn : seen.parts[n]? with _ | ⟨items | members | es⟩ <;> rw [hn] at h hfull
    · cases h
    · exact ⟨items, rfl⟩
    · have hmembers : ∀ v ∈ members, v.isAtom = true := by
        cases hseen.parts _ (List.mem_of_getElem? hn) with
        | set hmembers => exact hmembers
      obtain ⟨vs, hvs, hall⟩ := Checker.list_eq_valid_iff.mp h
      have heq : members = vs := by simpa [Settings.mergeValue] using hvs
      subst heq
      cases hall with
      | nil => cases hfull
      | cons hitem _ =>
        obtain ⟨es, rfl, -⟩ := Repository.check_eq_valid_iff.mp hitem
        cases hmembers (.map es) List.mem_cons_self
    · obtain ⟨vs, hvs, -⟩ := Checker.list_eq_valid_iff.mp h
      rcases old with _ | base
      · simp [Settings.mergeValue] at hvs
      · cases base <;> simp [Settings.mergeValue] at hvs

theorem text_of_value {depth : Nat} {cell : Cell} {s : String}
    (h : d.value depth cell = .text s) : cell = .atom (.text s) := by
  cases cell with
  | atom v =>
    rw [ValueGraph.value] at h
    rw [h]
  | part n =>
    have hkind := isTextKey_value_part d depth n
    rw [h] at hkind
    cases hkind

/-- A repository that is valid once its path has been seen has a path that is a text. -/
theorem exists_path_of_check {items : List Cell} {item : Cell} {depth : Nat} {r : Repository}
    (hseen : Seen homes t directory items d seen) (hitem : item ∈ items) (htidy : item.Tidy)
    (h : Repository.check homes (seen.value (depth + 2) item) = .valid r) :
    ∃ es s resolved, d.entries? item = some es ∧
      Value.find? "path" es = some (.atom (.text s)) ∧
      resolvePath homes t directory s = .ok resolved ∧
      seen.entries? item = some (Value.put (.text "path") (.atom (.text resolved)) es) ∧
      Checker.repositoryPath homes (.text resolved) = .valid r.path := by
  obtain ⟨fs, hfs, -, hpath, -⟩ := Repository.check_eq_valid_iff.mp h
  obtain ⟨v, hv, hpath⟩ := Checker.required_eq_valid_iff.mp hpath
  obtain ⟨s', rfl⟩ : ∃ s', v = .text s' := by
    cases v <;> first | exact ⟨_, rfl⟩ | cases hpath
  have hget : (seen.value (depth + 2) item).get? "path" = some (.text s') := by rw [hfs]; exact hv
  rw [ValueGraph.get?_value htidy, Option.map_eq_some_iff] at hget
  obtain ⟨cell, hcell, hvalue⟩ := hget
  obtain rfl := text_of_value hvalue
  obtain ⟨s, hs⟩ : ∃ s, d.get? item "path" = some (.atom (.text s)) := by
    rcases hseen.get?_path item with hsame | ⟨s, -, hs, -⟩
    · exact ⟨s', hsame.symm.trans hcell⟩
    · exact ⟨s, hs⟩
  obtain ⟨es, hes, hs⟩ := ValueGraph.get?_eq_some_iff.mp hs
  obtain ⟨resolved, hresolved, hput⟩ := hseen.repository item hitem es s hes hs
  refine ⟨es, s, resolved, hes, hs, hresolved, hput, ?_⟩
  rw [ValueGraph.get?_eq_some_iff.mpr ⟨_, hput, Value.find?_put_self ..⟩] at hcell
  cases hcell
  exact hpath

/-- So its path follows from the one that is written. -/
theorem describes_of_check (hhomes : homes.Absolute) (ht : t.Settled)
    (hdirectory : ∀ n ∈ directory.names, Path.IsName n) {items : List Cell} {item : Cell}
    {depth : Nat} {r : Repository} (hseen : Seen homes t directory items d seen)
    (hitem : item ∈ items) (htidy : item.Tidy)
    (h : Repository.check homes (seen.value (depth + 2) item) = .valid r) :
    Describes homes t directory d item r := by
  obtain ⟨es, s, resolved, hes, hs, hresolved, -, hpath⟩ :=
    exists_path_of_check hseen hitem htidy h
  obtain ⟨hne, hplaces⟩ := places_of_resolvePath hhomes ht hdirectory hresolved hpath
  exact ⟨s, hne, ValueGraph.get?_eq_some_iff.mpr ⟨es, hes, hs⟩, hplaces⟩

/-- Paths and repositories are skipped. -/
def Skipped (k : Value) : Prop := k = .text "path" ∨ k = .text "repos"

theorem skipsPaths_skipped : SkipsPaths Skipped := fun _ h => h

theorem Seen.sameBut {items : List Cell} (h : Seen homes t directory items d seen) :
    ValueGraph.SameBut Skipped d seen := by
  intro n
  rcases h.kept_or_seen (.part n) with hkept | ⟨-, es, s, resolved, hes, hs, -, hput⟩
  · exact .inl (hkept n rfl).symm
  · obtain ⟨_, hn, hes⟩ := ValueGraph.entries?_eq_some hes
    cases hn
    obtain ⟨_, hn, hput⟩ := ValueGraph.entries?_eq_some hput
    cases hn
    exact .inr ⟨es, _, hes, hput, Value.equalBut_put (.inl rfl) hs⟩

theorem Seen.equalBut_entries {items : List Cell} (h : Seen homes t directory items d seen) :
    Value.EqualBut Skipped d.entries seen.entries := by
  rw [ValueGraph.entries, ValueGraph.entries, h.root]
  rcases h.kept_or_seen d.root with hkept | ⟨-, es, s, resolved, hes, hs, -, hput⟩
  · rw [Seen.entries?_of_parts hkept]
    exact .refl Skipped _
  · rw [hes, hput]
    exact Value.equalBut_put (.inl rfl) hs

/-- A repository that is valid once its path has been seen comes out the same if nothing else has
been changed. -/
theorem exists_own {items : List Cell} {item : Cell} {depth : Nat} {r : Repository}
    (hseen : Seen homes t directory items d seen) (hitem : item ∈ items) (htidy : item.Tidy)
    (h : Repository.check homes (seen.value (depth + 3) item) = .valid r) :
    ∃ own, Value.RecordEqualBut "path" (d.value (depth + 3) item) own ∧
      Repository.check homes own = Repository.check homes (seen.value (depth + 3) item) := by
  obtain ⟨es, s, resolved, hes, hs, -, hput, -⟩ := exists_path_of_check hseen hitem htidy h
  refine ⟨.map (Value.put (.text "path") (.text resolved)
    (es.map fun e => (e.1, d.value (depth + 2) e.2))),
    ⟨_, _, ValueGraph.value_of_entries? hes _, rfl,
      Value.equalBut_put (v := d.value (depth + 2) (.atom (.text s))) rfl ?_⟩, ?_⟩
  · rw [Value.find?_map, hs, Option.map_some]
  · have hes : Value.SameEntriesTo Skipped (depth + 2)
        (es.map fun e => (e.1, d.value (depth + 2) e.2))
        (es.map fun e => (e.1, seen.value (depth + 2) e.2)) :=
      ValueGraph.sameEntriesTo_map (ValueGraph.sameTo_value hseen.sameBut le_rfl le_rfl)
        (.refl Skipped es)
    rw [ValueGraph.value_of_entries? hput, Value.map_put]
    refine Repository.check_eq skipsPaths_skipped homes (hes.put fun _ => .refl _ _ _) ?_
    rw [Value.find?_put_self, Value.find?_put_self]
    exact .some rfl

/-- A configuration has been read off a document in a directory. -/
structure ReadFrom (homes : Homes) (t : LinkedTree) (directory : Path)
    (base : List (Value × Value)) (d seen : ValueGraph) (c : Config) : Prop where
  /-- Of the document nothing but the paths of the repositories has been changed. -/
  changed : Seen homes t directory (repositories d) d seen
  /-- What has come out is checked on top of what the environment says. -/
  checked : ∀ n, depth ≤ n →
    Config.check homes (Settings.mergeEntries base (seen.values n)) = .valid c
  /-- Where else the mapping of a repository may stand does not matter: the configuration is the
  same if nothing but its path among the repositories is changed. -/
  alone : ∀ n, depth ≤ n + 1 → ∃ es items,
    Value.EqualBut (· = .text "repos") (d.values (n + 1)) es ∧
    Value.find? "repos" es = some (.list items) ∧
    List.Forall₂ (Value.RecordEqualBut "path") ((repositories d).map (d.value n)) items ∧
    Config.check homes (Settings.mergeEntries base es) = .valid c
  described : List.Forall₂ (Describes homes t directory d) (repositories d) c.repos

/-- Repositories have names of their own and relations refer to them, so that a name stands for one
repository. -/
structure Sound (c : Config) : Prop where
  repos_ne_nil : c.repos ≠ []
  length_name : ∀ r ∈ c.repos, 1 ≤ r.name.length ∧ r.name.length ≤ 100
  isAbsolute_path : ∀ r ∈ c.repos, r.path.isAbsolute = true
  refersWell : c.RefersWell
  repository?_iff : ∀ name r, c.repository? name = some r ↔ r ∈ c.repos ∧ r.name = name

theorem RefersWell.repository?_iff {c : Config} (h : c.RefersWell) (name : String)
    (r : Repository) : c.repository? name = some r ↔ r ∈ c.repos ∧ r.name = name :=
  find?_key_iff Repository.name h.nodup_names name r

theorem find?_repos_mergeEntries {es : List (Value × Value)} (hnodup : (es.map (·.1)).Nodup)
    {vs : List Value} (hrepos : Value.find? "repos" es = some (.list vs)) :
    Value.find? "repos" (Settings.mergeEntries base es) = some (.list vs) := by
  rw [Settings.find?_mergeEntries hnodup, hrepos]
  rfl

theorem Seen.nodup_values {items : List Cell} (h : Seen homes t directory items d seen)
    (hd : d.Tidy) (n : Nat) : ((seen.values n).map (·.1)).Nodup := by
  rw [ValueGraph.keys_values, h.keys_entries]
  exact hd.entries.nodup

theorem Seen.find?_repos_values {items : List Cell} {repos : Cell}
    (h : Seen homes t directory items d seen)
    (hrepos : Value.find? "repos" d.entries = some repos) (n : Nat) :
    Value.find? "repos" (seen.values n) = some (seen.value n repos) := by
  rw [ValueGraph.find?_values, h.find?_entries (by decide), hrepos, Option.map_some]

/-- The repositories that a valid check has read are those of the document's own list. -/
theorem forall₂_of_check {items : List Cell} {n : Nat}
    (hnodup : ((seen.values (n + 1)).map (·.1)).Nodup)
    (hrepos : Value.find? "repos" (seen.values (n + 1)) = some (.list (items.map (seen.value n))))
    (h : Config.check homes (Settings.mergeEntries base (seen.values (n + 1))) = .valid c) :
    List.Forall₂ (fun item r => Repository.check homes (seen.value n item) = .valid r) items
      c.repos := by
  obtain ⟨hchecked, -⟩ := Config.check_eq_valid_iff.mp h
  rw [Checker.defaulted_eq_valid_iff, find?_repos_mergeEntries hnodup hrepos] at hchecked
  simp only [Option.some.injEq, exists_eq_left', reduceCtorEq, false_and, or_false,
    Checker.list_eq_valid_iff, Value.list.injEq] at hchecked
  exact List.forall₂_map_left_iff.mp hchecked

theorem exists_own_entries {items : List Cell} {repos : Cell} {n : Nat}
    (hseen : Seen homes t directory items d seen) (hd : d.Tidy)
    (hrepos : Value.find? "repos" d.entries = some repos) (hitems : d.items? repos = some items)
    (hn : depth ≤ n + 1)
    (h : Config.check homes (Settings.mergeEntries base (seen.values (n + 1))) = .valid c) :
    ∃ es owns, Value.EqualBut (· = .text "repos") (d.values (n + 1)) es ∧
      Value.find? "repos" es = some (.list owns) ∧
      List.Forall₂ (Value.RecordEqualBut "path") (items.map (d.value n)) owns ∧
      Config.check homes (Settings.mergeEntries base es) = .valid c := by
  obtain ⟨m, rfl⟩ : ∃ m, n = m + 3 := Nat.exists_eq_add_of_le' (Nat.le_of_succ_le_succ hn)
  have hfound : Value.find? "repos" (d.values (m + 4)) =
      some (.list (items.map (d.value (m + 3)))) := by
    rw [ValueGraph.find?_values, hrepos, Option.map_some, ValueGraph.value_of_items? hitems]
  have hrepositories : Value.find? "repos" (seen.values (m + 4)) =
      some (.list (items.map (seen.value (m + 3)))) := by
    rw [hseen.find?_repos_values hrepos,
      ValueGraph.value_of_items? ((hseen.items?_eq repos).trans hitems)]
  have hvalid := forall₂_of_check (hseen.nodup_values hd _) hrepositories h
  have hown : ∀ item ∈ items, ∃ own, Value.RecordEqualBut "path" (d.value (m + 3) item) own ∧
      Repository.check homes own = Repository.check homes (seen.value (m + 3) item) := by
    intro item hitem
    obtain ⟨r, -, hr⟩ := exists_of_mem_forall₂ hvalid.flip hitem
    exact exists_own hseen hitem (hd.items hitems item hitem) hr
  obtain ⟨owns, howns⟩ := exists_forall₂ hown
  refine ⟨Value.put (.text "repos") (.list owns) (d.values (m + 4)), owns,
    Value.equalBut_put rfl hfound, Value.find?_put_self .., ?_, ?_⟩
  · exact List.forall₂_map_left_iff.mpr (howns.imp fun _ _ h => h.1)
  · have hsame : Value.SameEntriesTo Skipped depth (d.values (m + 4)) (seen.values (m + 4)) :=
      ValueGraph.sameEntriesTo_map (ValueGraph.sameTo_value hseen.sameBut hn hn)
        hseen.equalBut_entries
    have hmem : .text "repos" ∈ (d.values (m + 4)).map (·.1) :=
      List.mem_map_of_mem (f := Prod.fst) (Value.mem_of_find? hfound)
    have hnodup :
        ((Value.put (.text "repos") (.list owns) (d.values (m + 4))).map (·.1)).Nodup := by
      rw [Value.keys_put_of_find? hfound, ValueGraph.keys_values]
      exact hd.entries.nodup
    refine (Config.check_eq skipsPaths_skipped homes (Settings.sameEntriesTo_mergeEntries
      (fun _ _ _ _ => Settings.sameTo_mergeValue) (.refl Skipped depth base)
      (hsame.put_left (.inr rfl) hmem)) ?_).trans h
    rw [find?_repos_mergeEntries hnodup (Value.find?_put_self ..),
      find?_repos_mergeEntries (hseen.nodup_values hd _) hrepositories]
    exact .some (Checker.LooksTo.items (List.forall₂_map_right_iff.mpr
      (howns.flip.imp fun _ _ h => h.2)) 0)

/-- If a document has something for its repositories and passes the check, that is a list. -/
theorem exists_repositories (hd : d.Tidy) (hfull : HasRepositories d)
    (hseen : Seen homes t directory (repositories d) d seen)
    (hcheck : Config.check homes (Settings.mergeEntries base (seen.values depth)) = .valid c) :
    ∃ repos, Value.find? "repos" d.entries = some repos ∧
      d.items? repos = some (repositories d) ∧ repositories d ≠ [] := by
  obtain ⟨repos, hrepos⟩ := exists_repos_of_hasRepositories hfull
  have hhollow : (d.value depth repos).isHollow = false := by
    rwa [HasRepositories, ValueGraph.find?_values, hrepos, Option.map_some, Option.getD_some]
      at hfull
  have hsame : Value.SameTo Skipped depth (d.value depth repos) (seen.value depth repos) :=
    ValueGraph.sameTo_value hseen.sameBut le_rfl le_rfl repos
  have hchecked := (Config.check_eq_valid_iff.mp hcheck).1
  rw [Checker.defaulted_eq_valid_iff, Settings.find?_mergeEntries (hseen.nodup_values hd _),
    hseen.find?_repos_values hrepos] at hchecked
  simp only [Option.some.injEq, exists_eq_left', reduceCtorEq, false_and, or_false] at hchecked
  obtain ⟨items, hitems⟩ := exists_items_of_check (hseen.tidy hd)
    (hd.entries.values _ (Value.mem_of_find? hrepos)) (hsame.isHollow_eq ▸ hhollow) hchecked
  rw [hseen.items?_eq] at hitems
  have hrepositories : repositories d = items := by
    rw [repositories, hrepos, Option.bind_some, hitems, Option.getD_some]
  refine ⟨repos, hrepos, hrepositories ▸ hitems, ?_⟩
  rw [hrepositories]
  rintro rfl
  rw [depth, ValueGraph.value_of_items? hitems] at hhollow
  cases hhollow

/-- A loaded configuration has been read off the document in the file. -/
theorem readFrom_of_load (hhomes : homes.Absolute) (ht : t.Settled)
    (hp : ∀ n ∈ p.names, Path.IsName n) (h : load homes environment t p = .ok c) :
    ∃ d base seen, readDocument t p = .ok d ∧ repositories d ≠ [] ∧
      Settings.read environment = .ok base ∧ ReadFrom homes t p.parent base d seen c := by
  obtain ⟨d, seen, base, hread, hfull, hresolve, hbase, hcheck⟩ := exists_check_of_load h
  have hd := tidy_of_readDocument hread
  have hseen := seen_of_resolveRepositories hresolve
  obtain ⟨repos, hrepos, hitems, hne⟩ := exists_repositories hd hfull hseen hcheck
  have hchecks : ∀ n, depth ≤ n →
      Config.check homes (Settings.mergeEntries base (seen.values n)) = .valid c := fun n hn =>
    (check_values_eq homes seen base hn le_rfl).trans hcheck
  have hlist : seen.value depth repos = .list ((repositories d).map (seen.value 3)) :=
    ValueGraph.value_of_items? ((hseen.items?_eq repos).trans hitems) 3
  have hvalid := forall₂_of_check (hseen.nodup_values hd _)
    ((hseen.find?_repos_values hrepos _).trans (congrArg some hlist)) hcheck
  have hmem : List.Forall₂ (fun item r => item ∈ repositories d ∧
      Repository.check homes (seen.value 3 item) = .valid r) (repositories d) c.repos :=
    (List.forall₂_and_left _ _).mpr ⟨fun _ h => h, hvalid⟩
  have hdirectory : ∀ n ∈ p.parent.names, Path.IsName n :=
    fun n hn => hp n (List.dropLast_subset _ hn)
  exact ⟨d, base, seen, hread, hne, hbase, {
    changed := hseen
    checked := hchecks
    alone := fun n hn => exists_own_entries hseen hd hrepos hitems hn (hchecks (n + 1) hn)
    described := hmem.imp fun item _ h =>
      describes_of_check hhomes ht hdirectory hseen h.1 (hd.items hitems item h.1) h.2 }⟩

/-- A repository behind a link, whose mapping stands elsewhere too, and one in the home
directory. -/
def neighboursFile : List UInt8 :=
  ("repos:\n" ++
    "- &web {name: web, path: ../web, type: react, analyzers: [nx]}\n" ++
    "- {name: api, path: ~/api, type: go, analyzers: [go-ast]}\n" ++
    "relations: [{from: api, to: web, via: api-call}]\n" ++
    "output: {note: *web}\n").toList.map fun c => c.toNat.toUInt8

def neighboursTree : LinkedTree where
  nodes := [(["work"], .directory), (["work", "cfg"], .directory),
    (["work", "cfg", "c.yaml"], .file neighboursFile)]
  current := ["work"]
  links := [(["work", "web"], "../srv/web")]
  ends := by decide

def neighboursHomes : Homes := ⟨"/home/me", []⟩

end Config

end Ripple
