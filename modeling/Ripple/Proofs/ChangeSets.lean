import Ripple.Git.Snapshot
import Ripple.Outline.ScriptFile
import Ripple.Proofs.Confinement
import Ripple.Proofs.GoFindings

/-! # Changed files in portions

What is found for a list of changed files is what is found for its portions, merged. Each file of an
Angular workspace is looked at by itself, so there the order is the same as well. For Go the module
files come first and a source file is looked at once however often it is listed, so the items may
stand in another order, and each of them is the same item.
-/
namespace Ripple

namespace Gathering

variable {α β κ π : Type} [DecidableEq κ] [DecidableEq π] (g : Gathering α β κ π)

/-- What the elements of one key gather to does not depend on the others. -/
theorem filter_gather (items : List α) (k : κ) :
    (g.gather items).filter (g.key · = k) = g.gather (items.filter (g.key · = k)) := by
  have hparts : ∀ a ∈ (distinctBy g.key items).filter (g.key · = k),
      g.carrying a (g.partsOf items (g.key a)) =
        g.carrying a (g.partsOf (items.filter (g.key · = k)) (g.key a)) := by
    intro a ha
    have hkey : g.key a = k := by simpa using (List.mem_filter.mp ha).2
    rw [partsOf, partsOf, List.filter_filter, hkey]
    simp
  rw [gather_eq, gather_eq, List.filter_map, distinctBy_filter g.key (fun a b h => by rw [h])]
  simp only [Function.comp_def, key_carrying]
  exact List.map_congr_left hparts

/-- Lists that gather to the same at every key gather to the same elements. -/
theorem gather_perm {items others : List α}
    (h : ∀ k, g.gather (items.filter (g.key · = k)) = g.gather (others.filter (g.key · = k))) :
    (g.gather items).Perm (g.gather others) := by
  have hmem : ∀ (l : List α) (a : α),
      a ∈ g.gather l ↔ a ∈ (g.gather l).filter (g.key · = g.key a) := by
    intro l a
    simp
  rw [List.perm_ext_iff_of_nodup (g.nodup_map_key_gather items).of_map
    (g.nodup_map_key_gather others).of_map]
  intro a
  rw [hmem items, hmem others, filter_gather, filter_gather, h]

end Gathering

namespace Impact

/-- Portions may be merged before they are put together. -/
theorem merge_merge_append_merge (items others : List Impact) :
    merge (merge items ++ merge others) = merge (items ++ others) := by
  rw [merge, merge, merge, merge, gathering.gather_append_gather, gathering.gather_gather_append]

end Impact

namespace Analysis

open Outcome

/-- What an analysis sees of a host: the working tree, the differences in each file, and the names
of the changed files as git lists them. -/
structure Setting.Sees (s : Setting) (h : Host) (tree : FileTree) (diff : String → String)
    (names : List String) : Prop where
  files : h.files = tree
  fileDiff (file : String) : s.fileDiff h file = diff file
  listed : ((s.client h).changedFiles s.versions.base s.versions.head :
    Except Git.Fault (List String)) = .ok names

def together (first second : Except Fault (List Impact)) : Except Fault (List Impact) := do
  let found ← first
  let others ← second
  return Impact.merge (found ++ others)

section Sees

variable {s : Setting} {h : Host} {tree : FileTree} {diff : String → String} {names : List String}

theorem Setting.Sees.changedFiles (hsees : s.Sees h tree diff names) (analyzer : String) :
    s.changedFiles h analyzer = .ok (s.filter.select names) := by
  rw [Setting.changedFiles, hsees.listed]

theorem Setting.Sees.fileText (hsees : s.Sees h tree diff names) (file : String) :
    s.fileText h file =
      (tree.text? (s.repo.path.join (Path.ofString file))).mapError Fault.nameTooLong := by
  rw [Setting.fileText_eq, hsees.files]
  rfl

theorem select_append (f : PathFilter) (names others : List String) :
    f.select (names ++ others) = f.select names ++ f.select others := by
  rw [PathFilter.select, PathFilter.select, PathFilter.select, List.filter_append]

end Sees

namespace AngularWorkspace

variable {s : Setting} {h : Host} {tree : FileTree} {diff : String → String}
  {names changed : List String}

theorem impacts_append (p : Workspace.Project) (changed others : List String) :
    impacts s p (changed ++ others) = Impact.merge (impacts s p changed ++ impacts s p others) := by
  rw [impacts, impacts, impacts, Impact.merge_merge_append_merge, List.flatMap_append]

variable [Outline.ScriptParser]

/-- Without changed files the workspace is not looked at. -/
theorem analyze_of_nil (hnil : s.changedFiles h name = .ok []) : analyze s h = .ok [] :=
  bind_eq_ok_iff.mpr ⟨[], hnil, rfl⟩

theorem analyze_eq (hchanged : s.changedFiles h name = .ok changed) (hne : changed ≠ []) :
    analyze s h = ((Workspace.scan h.files s.repo.path).mapError Fault.nameTooLong).map fun p =>
      impacts s p changed := by
  have hsome : changed.isEmpty = false := by simpa using hne
  rw [analyze, hchanged]
  change (if changed.isEmpty then _ else _) = _
  rw [hsome]
  cases (Workspace.scan h.files s.repo.path).mapError Fault.nameTooLong <;> rfl

/-- If the workspace can be searched, every list of changed files is answered. -/
theorem analyze_of_scan (hchanged : s.changedFiles h name = .ok changed) {p : Workspace.Project}
    (hscan : Workspace.scan h.files s.repo.path = .ok p) :
    analyze s h = .ok (impacts s p changed) := by
  by_cases hnil : changed = []
  · rw [hnil] at hchanged ⊢
    exact analyze_of_nil hchanged
  · rw [analyze_eq hchanged hnil, hscan]
    rfl

theorem analyze_of_scan_error (hchanged : s.changedFiles h name = .ok changed) (hne : changed ≠ [])
    {f : NameTooLong} (hscan : Workspace.scan h.files s.repo.path = .error f) :
    analyze s h = .error (.nameTooLong f) := by
  rw [analyze_eq hchanged hne, hscan]
  rfl

theorem analyze_append {h₁ h₂ : Host} {others : List String}
    (hsees : s.Sees h tree diff (names ++ others)) (hfirst : s.Sees h₁ tree diff names)
    (hsecond : s.Sees h₂ tree diff others) :
    analyze s h = together (analyze s h₁) (analyze s h₂) := by
  have hlist := hsees.changedFiles name
  rw [select_append] at hlist
  have hlist₁ := hfirst.changedFiles name
  have hlist₂ := hsecond.changedFiles name
  cases hscan : Workspace.scan tree s.repo.path with
  | ok p =>
    rw [analyze_of_scan hlist (hsees.files ▸ hscan), analyze_of_scan hlist₁ (hfirst.files ▸ hscan),
      analyze_of_scan hlist₂ (hsecond.files ▸ hscan), impacts_append]
    rfl
  | error f =>
    by_cases hnames : s.filter.select names = []
    · rw [hnames, List.nil_append] at hlist
      rw [hnames] at hlist₁
      rw [analyze_of_nil hlist₁]
      by_cases hothers : s.filter.select others = []
      · rw [hothers] at hlist hlist₂
        rw [analyze_of_nil hlist, analyze_of_nil hlist₂]
        rfl
      · rw [analyze_of_scan_error hlist hothers (hsees.files ▸ hscan),
          analyze_of_scan_error hlist₂ hothers (hsecond.files ▸ hscan)]
        rfl
    · have hboth : s.filter.select names ++ s.filter.select others ≠ [] := by simp [hnames]
      rw [analyze_of_scan_error hlist hboth (hsees.files ▸ hscan),
        analyze_of_scan_error hlist₁ hnames (hfirst.files ▸ hscan)]
      rfl

end AngularWorkspace

namespace GoService

variable {s : Setting} {h h₁ h₂ : Host} {tree : FileTree} {diff : String → String}
  {names others : List String} {contents : List (String × String)}

theorem readAll_append (files rest : List String) :
    readAll s h (files ++ rest) =
      (do return (← readAll s h files) ++ (← readAll s h rest)) := by
  induction files with
  | nil =>
    rw [List.nil_append, readAll]
    cases readAll s h rest <;> rfl
  | cons file files ih =>
    rw [List.cons_append, readAll, readAll, ih]
    cases s.fileText h file with
    | error f => rfl
    | ok content? =>
      cases readAll s h files with
      | error f => rfl
      | ok contents =>
        cases readAll s h rest with
        | error f => rfl
        | ok others => exact congrArg Except.ok (List.append_assoc ..).symm

/-- Exactly the files that are there have contents. -/
theorem mem_of_readAll {files : List String} (hread : readAll s h files = .ok contents)
    (file content : String) :
    (file, content) ∈ contents ↔ file ∈ files ∧ s.fileText h file = .ok (some content) := by
  induction files generalizing contents with
  | nil =>
    cases hread
    simp
  | cons first rest ih =>
    obtain ⟨content?, htext, hread⟩ := bind_eq_ok_iff.mp hread
    obtain ⟨others, hrest, hread⟩ := bind_eq_ok_iff.mp hread
    cases hread
    rw [List.mem_append, ih hrest, List.mem_cons]
    cases content? with
    | none => grind
    | some text => grind

/-- All files can be looked up, those that are not there too. -/
theorem exists_fileText_of_readAll {files : List String}
    (hread : readAll s h files = .ok contents) :
    ∀ file ∈ files, ∃ content?, s.fileText h file = .ok content? := by
  induction files generalizing contents with
  | nil => exact List.forall_mem_nil _
  | cons first rest ih =>
    obtain ⟨content?, htext, hread⟩ := bind_eq_ok_iff.mp hread
    obtain ⟨others, hrest, -⟩ := bind_eq_ok_iff.mp hread
    exact List.forall_mem_cons.mpr ⟨⟨content?, htext⟩, ih hrest⟩

/-- Files that can be looked up may be left out. -/
theorem readAll_filter {keep : String → Bool} {files : List String}
    (hleft : ∀ file ∈ files, keep file = false → ∃ content?, s.fileText h file = .ok content?) :
    readAll s h (files.filter keep) =
      (readAll s h files).map (List.filter fun p => keep p.1) := by
  induction files with
  | nil => rfl
  | cons file rest ih =>
    obtain ⟨hfile, hrest⟩ := List.forall_mem_cons.mp hleft
    have hcontent : ∀ content? : Option String,
        (content?.toList.map (file, ·)).filter (fun p => keep p.1) =
          if keep file then content?.toList.map (file, ·) else [] := by
      intro content?
      cases content? <;> simp [List.filter_singleton]
    cases hkeep : keep file with
    | true =>
      rw [List.filter_cons_of_pos hkeep, readAll, readAll, ih hrest]
      cases s.fileText h file with
      | error f => rfl
      | ok content? =>
        cases readAll s h rest with
        | error f => rfl
        | ok others =>
          apply congrArg Except.ok
          rw [List.filter_append, hcontent, if_pos hkeep]
    | false =>
      obtain ⟨content?, htext⟩ := hfile hkeep
      rw [List.filter_cons_of_neg (by simp [hkeep]), readAll, ih hrest, htext]
      cases readAll s h rest with
      | error f => rfl
      | ok others =>
        apply congrArg Except.ok
        rw [List.filter_append, hcontent, hkeep, if_neg Bool.false_ne_true, List.nil_append]

/-- A file that is listed again is not read again. -/
theorem readAll_distinct_append (files others : List String) :
    readAll s h (distinct (files ++ others)) = (do
      let contents ← readAll s h (distinct files)
      let rest ← readAll s h (distinct others)
      return contents ++ rest.filter fun p => p.1 ∉ files) := by
  have hkeys : distinct (files ++ others) =
      distinct files ++ (distinct others).filter fun file => file ∉ files := by
    rw [distinct, distinctBy_append, List.map_id]
    rfl
  rw [hkeys, readAll_append]
  cases hread : readAll s h (distinct files) with
  | error f => rfl
  | ok contents =>
    have hleft : ∀ file ∈ distinct others, decide (file ∉ files) = false →
        ∃ content?, s.fileText h file = .ok content? := by
      intro file _ hfile
      exact exists_fileText_of_readAll hread file (by simpa using hfile)
    rw [readAll_filter hleft]
    cases readAll s h (distinct others) <;> rfl

theorem readAll_of_sees (hsees : s.Sees h tree diff names) (hsees' : s.Sees h₁ tree diff others)
    (files : List String) : readAll s h files = readAll s h₁ files := by
  induction files with
  | nil => rfl
  | cons file rest ih => rw [readAll, readAll, hsees.fileText, hsees'.fileText, ih]

/-- The impacts of a source that is there. -/
def sourceImpacts (s : Setting) (diff : String → String) (source : String × String) : List Impact :=
  fileImpacts s source.1 source.2 (diff source.1)

theorem analyze_of_sees (hsees : s.Sees h tree diff names) :
    analyze s h =
      (readAll s h (distinct (withEnding [".go"] (s.filter.select names)))).map fun contents =>
        Impact.merge (dependencyImpacts s (s.filter.select names) ++
          contents.flatMap (sourceImpacts s diff)) := by
  have hdiff : s.fileDiff h = diff := funext hsees.fileDiff
  rw [analyze, hsees.changedFiles]
  change impacts s h _ = _
  rw [impacts, hdiff]
  cases readAll s h (distinct (withEnding [".go"] (s.filter.select names))) <;> rfl

theorem dependencyImpacts_append (files others : List String) :
    dependencyImpacts s (files ++ others) =
      dependencyImpacts s files ++ dependencyImpacts s others := by
  rw [dependencyImpacts, withEnding, List.filter_append, List.map_append]
  rfl

theorem filter_dependencyImpacts {k : String × String} (hk : k.1 ≠ "Go Dependencies")
    (files : List String) :
    (dependencyImpacts s files).filter (Impact.gathering.key · = k) = [] := by
  rw [List.filter_eq_nil_iff]
  intro i hi hkey
  have hcomponent : i.component = k.1 :=
    congrArg Prod.fst (of_decide_eq_true hkey : (i.component, i.file) = k)
  exact hk (hcomponent ▸ component_of_mem_dependencyImpacts hi)

theorem filter_sourceImpacts {k : String × String} {source : String × String}
    (hk : k.1 = "Go Dependencies" ∨ source.1 ≠ k.2) :
    (sourceImpacts s diff source).filter (Impact.gathering.key · = k) = [] := by
  rw [List.filter_eq_nil_iff]
  intro i hi hkey
  obtain ⟨hcomponent, hfile⟩ := Prod.mk.inj (of_decide_eq_true hkey : (i.component, i.file) = k)
  rcases hk with hk | hk
  · exact component_ne_dependencies hi (hcomponent.trans hk)
  · exact hk ((fileImpacts_cases hi).1.symm.trans hfile)

/-- Sources that are left out take along the impacts on them and no others. -/
theorem filter_flatMap_filter (k : String × String) (keep : String → Bool) :
    ((contents.filter fun p => keep p.1).flatMap (sourceImpacts s diff)).filter
        (Impact.gathering.key · = k) =
      if keep k.2 then
        (contents.flatMap (sourceImpacts s diff)).filter (Impact.gathering.key · = k)
      else [] := by
  induction contents with
  | nil => simp
  | cons source rest ih =>
    by_cases hfile : source.1 = k.2
    · by_cases hkeep : keep k.2 = true
      · rw [List.filter_cons_of_pos (hfile ▸ hkeep), List.flatMap_cons, List.filter_append, ih,
          if_pos hkeep, if_pos hkeep, List.flatMap_cons, List.filter_append]
      · rw [List.filter_cons_of_neg (hfile ▸ hkeep), ih, if_neg hkeep, if_neg hkeep]
    · rw [List.flatMap_cons, List.filter_append, filter_sourceImpacts (.inr hfile), List.nil_append,
        ← ih]
      by_cases hkeep : keep source.1 = true
      · rw [List.filter_cons, if_pos hkeep, List.flatMap_cons, List.filter_append,
          filter_sourceImpacts (.inr hfile), List.nil_append]
      · rw [List.filter_cons, if_neg hkeep]

theorem gather_sources {files : List String} {rest : List (String × String)}
    (hfiles : readAll s h (distinct files) = .ok contents)
    (hothers : readAll s h (distinct others) = .ok rest) (k : String × String) :
    Impact.merge (((contents ++ rest.filter fun p => p.1 ∉ files).flatMap
        (sourceImpacts s diff)).filter (Impact.gathering.key · = k)) =
      Impact.merge ((contents.flatMap (sourceImpacts s diff) ++
        rest.flatMap (sourceImpacts s diff)).filter (Impact.gathering.key · = k)) := by
  rw [List.flatMap_append, List.filter_append, List.filter_append,
    filter_flatMap_filter k fun file => file ∉ files]
  by_cases hlisted : k.2 ∈ files
  · -- the file has been read already, so the second portion only repeats what is found in it
    rw [if_neg (by simpa using hlisted), List.append_nil]
    refine (Impact.gathering.gather_append_of_subset fun i hi => ?_).symm
    obtain ⟨hi, hkey⟩ := List.mem_filter.mp hi
    obtain ⟨source, hsource, hi⟩ := List.mem_flatMap.mp hi
    have hfile : source.1 = k.2 :=
      (fileImpacts_cases hi).1.symm.trans (congrArg Prod.snd (of_decide_eq_true hkey))
    have htext := ((mem_of_readAll hothers source.1 source.2).mp hsource).2
    have hmem : source.1 ∈ distinct files := by simpa [hfile] using hlisted
    have hread := (mem_of_readAll hfiles source.1 source.2).mpr ⟨hmem, htext⟩
    exact List.mem_filter.mpr ⟨List.mem_flatMap.mpr ⟨source, hread, hi⟩, hkey⟩
  · rw [if_pos (by simpa using hlisted)]

/-- What is found for two lists one after the other are the merged findings for each of them. -/
theorem merge_append_perm {files : List String} {rest : List (String × String)}
    (hfiles : readAll s h (distinct files) = .ok contents)
    (hothers : readAll s h (distinct others) = .ok rest) (changed changed' : List String) :
    (Impact.merge (dependencyImpacts s (changed ++ changed') ++
        (contents ++ rest.filter fun p => p.1 ∉ files).flatMap (sourceImpacts s diff))).Perm
      (Impact.merge (
        Impact.merge (dependencyImpacts s changed ++ contents.flatMap (sourceImpacts s diff)) ++
        Impact.merge (dependencyImpacts s changed' ++ rest.flatMap (sourceImpacts s diff)))) := by
  rw [Impact.merge_merge_append_merge, dependencyImpacts_append]
  apply Impact.gathering.gather_perm
  intro k
  simp only [List.filter_append]
  by_cases hk : k.1 = "Go Dependencies"
  · have hnone : ∀ l : List (String × String),
        (l.flatMap (sourceImpacts s diff)).filter (Impact.gathering.key · = k) = [] := by
      intro l
      rw [List.filter_flatMap, List.flatMap_eq_nil_iff]
      exact fun source _ => filter_sourceImpacts (.inl hk)
    simp only [hnone, List.append_nil]
  · simp only [filter_dependencyImpacts hk, List.nil_append]
    rw [← List.filter_append]
    exact gather_sources hfiles hothers k

theorem analyze_alike {h₂ : Host} {others : List String}
    (hsees : s.Sees h tree diff (names ++ others)) (hfirst : s.Sees h₁ tree diff names)
    (hsecond : s.Sees h₂ tree diff others) :
    Alike List.Perm (analyze s h) (together (analyze s h₁) (analyze s h₂)) := by
  rw [analyze_of_sees hsees, analyze_of_sees hfirst, analyze_of_sees hsecond,
    readAll_of_sees hfirst hsees, readAll_of_sees hsecond hsees, select_append,
    show withEnding [".go"] (s.filter.select names ++ s.filter.select others) =
      withEnding [".go"] (s.filter.select names) ++ withEnding [".go"] (s.filter.select others)
      from List.filter_append .., readAll_distinct_append]
  cases hfiles : readAll s h (distinct (withEnding [".go"] (s.filter.select names))) with
  | error f => exact .error f
  | ok contents =>
    cases hothers : readAll s h (distinct (withEnding [".go"] (s.filter.select others))) with
    | error f => exact .error f
    | ok rest => exact .ok (merge_append_perm hfiles hothers _ _)

end GoService

/-- The files that git lists may be analysed in two portions, which may overlap, in a working tree
that stays as it is. For an Angular workspace the merged findings are those for the whole list. For
Go they are the same items, perhaps in another order. An analysis of the whole fails if and only if
one of the portions does, with the fault of the first that does. -/
theorem analyze_portions [Outline.ScriptParser] {s : Setting} {h h₁ h₂ : Host} {tree : FileTree}
    {diff : String → String} {names others : List String}
    (hsees : s.Sees h tree diff (names ++ others))
    (hfirst : s.Sees h₁ tree diff names) (hsecond : s.Sees h₂ tree diff others) :
    AngularWorkspace.analyze s h =
        together (AngularWorkspace.analyze s h₁) (AngularWorkspace.analyze s h₂) ∧
      Alike List.Perm (GoService.analyze s h)
        (together (GoService.analyze s h₁) (GoService.analyze s h₂)) :=
  ⟨AngularWorkspace.analyze_append hsees hfirst hsecond,
    GoService.analyze_alike hsees hfirst hsecond⟩

def portionSetting : Setting :=
  ⟨⟨"api", ⟨"/", ["api"]⟩, .go, [.goAst], none, none⟩, ⟨"main", "HEAD"⟩, ⟨none, none⟩⟩

/-- A host with one source, where git lists some files. -/
def portionHost (names : List String) : Host :=
  ⟨⟨[(["api"], .directory), (["api", "main.go"], .file (Text.Utf8.encode "package main\n"))], []⟩,
    fun _ => Git.Snapshot.answer ⟨.ok names, [], []⟩⟩

theorem sees_portionHost (names : List String)
    (hlisted : ((portionSetting.client (portionHost names)).changedFiles "main" "HEAD" :
      Except Git.Fault (List String)).toOption = some names) :
    portionSetting.Sees (portionHost names) (portionHost []).files (fun _ => "") names where
  files := rfl
  fileDiff _ := rfl
  listed := (eq_ok_iff_toOption _ _).mpr hlisted

theorem analyze_portions_twice :
    let whole := portionHost (["go.mod", "main.go"] ++ ["main.go", "go.sum"])
    let first := portionHost ["go.mod", "main.go"]
    let second := portionHost ["main.go", "go.sum"]
    AngularWorkspace.analyze portionSetting whole =
        together (AngularWorkspace.analyze portionSetting first)
          (AngularWorkspace.analyze portionSetting second) ∧
      Alike List.Perm (GoService.analyze portionSetting whole)
        (together (GoService.analyze portionSetting first)
          (GoService.analyze portionSetting second)) :=
  analyze_portions (sees_portionHost _ (by decide +kernel)) (sees_portionHost _ (by decide +kernel))
    (sees_portionHost _ (by decide +kernel))

end Analysis

end Ripple
