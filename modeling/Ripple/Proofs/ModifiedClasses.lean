import Mathlib.Data.List.Induction
import Ripple.Analysis.AngularWorkspace
import Ripple.Git.Snapshot
import Ripple.Proofs.Gathering
import Ripple.Proofs.Outcome
import Ripple.Proofs.Text
import Ripple.Proofs.TreeSearch

/-! # Which modified classes are reported

The tables of a workspace are filled file by file and have one entry for each name, so what they say
of a name is what the last file that declares it says. A class of a changed file is reported as
modified if and only if that file is the last one to declare a component, or the last one to declare
a service, of its name: a file further on that declares the same name takes the class away.
-/
namespace Ripple

namespace Outline

open Outline.Tree

/-- The classes are those of all nodes that declare one, in source order. -/
theorem classesOf_eq (t : Tree SyntaxNode) : classesOf t =
    ((preorder (t.withOuter none).parts).filter fun place =>
      place.label.2.label.kind = "class_declaration").map
        fun place => classOf place.label.1 place.label.2 := by
  rw [classesOf, descendants_eq]

end Outline

namespace Workspace

open Outcome
open Outline (ClassDeclaration Decorator)

section Table

variable {α : Type} (key : α → String)

/-- The table with the given entries, put in one after the other. -/
def tableOf (entries : List α) : List α := entries.foldl (fun table a => insert key a table) []

theorem map_key_insert_subset (a : α) (table : List α) :
    (insert key a table).map key ⊆ key a :: table.map key := by
  induction table with
  | nil => simp [insert]
  | cons b rest ih =>
    by_cases h : key b = key a
    · simp [insert, h]
    · rw [insert, if_neg h, List.map_cons, List.map_cons]
      exact List.cons_subset.mpr ⟨by simp, fun k hk => by
        rcases List.mem_cons.mp (ih hk) with rfl | hk <;> simp [*]⟩

theorem nodup_map_key_insert (a : α) {table : List α} (h : (table.map key).Nodup) :
    ((insert key a table).map key).Nodup := by
  induction table with
  | nil => simp [insert]
  | cons b rest ih =>
    rw [List.map_cons, List.nodup_cons] at h
    by_cases hb : key b = key a
    · rw [insert, if_pos hb, List.map_cons, List.nodup_cons]
      exact ⟨hb ▸ h.1, h.2⟩
    · rw [insert, if_neg hb, List.map_cons, List.nodup_cons]
      refine ⟨fun hmem => ?_, ih h.2⟩
      rcases List.mem_cons.mp (map_key_insert_subset key a rest hmem) with he | hmem
      · exact hb he
      · exact h.1 hmem

/-- A new entry puts out the one of its key and leaves the others. -/
theorem mem_insert (a b : α) {table : List α} (h : (table.map key).Nodup) :
    b ∈ insert key a table ↔ b = a ∨ b ∈ table ∧ key b ≠ key a := by
  induction table with
  | nil => simp [insert]
  | cons c rest ih =>
    rw [List.map_cons, List.nodup_cons] at h
    by_cases hc : key c = key a
    · have hrest : b ∈ rest → key b ≠ key a := fun hb he =>
        h.1 (hc ▸ he ▸ List.mem_map_of_mem hb)
      rw [insert, if_pos hc, List.mem_cons, List.mem_cons]
      grind
    · rw [insert, if_neg hc, List.mem_cons, ih h.2, List.mem_cons]
      grind

theorem tableOf_concat (entries : List α) (a : α) :
    tableOf key (entries ++ [a]) = insert key a (tableOf key entries) := by
  rw [tableOf, List.foldl_append]
  rfl

theorem nodup_map_key_tableOf (entries : List α) : ((tableOf key entries).map key).Nodup := by
  induction entries using List.reverseRecOn with
  | nil => exact List.nodup_nil
  | append_singleton entries a ih =>
    rw [tableOf_concat]
    exact nodup_map_key_insert key a ih

/-- A table has the last entry of each key. -/
theorem mem_tableOf (entries : List α) (b : α) :
    b ∈ tableOf key entries ↔ entries.reverse.find? (fun a => key a = key b) = some b := by
  induction entries using List.reverseRecOn with
  | nil => simp [tableOf]
  | append_singleton entries a ih =>
    rw [tableOf_concat, mem_insert key a b (nodup_map_key_tableOf key entries), ih,
      List.reverse_concat, List.find?_cons]
    by_cases h : key a = key b
    · simp [h, eq_comm]
    · have hne : b ≠ a := fun he => h (he ▸ rfl)
      simp [h, hne, Ne.symm h]

end Table

/-- A kind of classes that a workspace has a table of: the decorators that mark a class as being of
it, and the entry for such a class. -/
structure ClassKind (α : Type) where
  decorators : List String
  entry : String → ClassDeclaration → Decorator → α
  name : α → String
  file : α → String
  table : Project → List α
  name_entry (f : String) (c : ClassDeclaration) (d : Decorator) : name (entry f c d) = c.name := by
    intros; rfl
  file_entry (f : String) (c : ClassDeclaration) (d : Decorator) : file (entry f c d) = f := by
    intros; rfl
  table_addDecorated (f source : String) (c : ClassDeclaration) (p : Project) (d : Decorator) :
    table (p.addDecorated f source c d) =
      if decorators.contains d.name then insert name (entry f c d) (table p) else table p
  table_empty : table .empty = [] := by rfl

def componentKind : ClassKind Component where
  decorators := ["Component", "Directive", "Pipe"]
  entry := componentOf
  name := (·.name)
  file := (·.file)
  table := (·.components)
  table_addDecorated f source c p d := by
    unfold Project.addDecorated
    split
    · rfl
    · split
      · rfl
      · split <;> rfl

def serviceKind : ClassKind Service where
  decorators := ["Injectable"]
  entry := serviceOf
  name := (·.name)
  file := (·.file)
  table := (·.services)
  table_addDecorated f source c p d := by
    unfold Project.addDecorated
    by_cases h : d.name = "Injectable"
    · have hother : ¬ ["Component", "Directive", "Pipe"].contains d.name = true := by
        rw [h]
        decide
      rw [if_neg hother, if_pos h, if_pos (by simp [h])]
    · have hmark : ¬ ["Injectable"].contains d.name = true := by simpa using h
      rw [if_neg h, if_neg hmark]
      split
      · rfl
      · split <;> rfl

namespace ClassKind

variable {α : Type} (k : ClassKind α) {σ : Type} {part : Project → σ} {put : α → σ → σ}

def Fills (part : Project → σ) (put : α → σ → σ) : Prop :=
  ∀ (f source : String) (c : ClassDeclaration) (p : Project) (d : Decorator),
    part (p.addDecorated f source c d) =
      if k.decorators.contains d.name then put (k.entry f c d) (part p) else part p

variable {k}

theorem Fills.decorators (h : k.Fills part put) (f source : String) (c : ClassDeclaration)
    (ds : List Decorator) (p : Project) :
    part (ds.foldl (Project.addDecorated f source c) p) =
      ((ds.filter fun d => k.decorators.contains d.name).map (k.entry f c)).foldl
        (fun t a => put a t) (part p) := by
  induction ds generalizing p with
  | nil => rfl
  | cons d rest ih =>
    rw [List.foldl_cons, ih, h]
    by_cases hmark : k.decorators.contains d.name = true
    · rw [List.filter_cons, if_pos hmark, if_pos hmark, List.map_cons, List.foldl_cons]
    · rw [List.filter_cons, if_neg hmark, if_neg hmark]

end ClassKind

section Sources

variable [Outline.ScriptParser]

/-- Whether a file declares a class of a name with one of some decorators. -/
def declares (decorators : List String) (name : String) (octets : List UInt8) : Bool :=
  (Outline.classesIn octets).any fun c =>
    c.name = name && c.decorators.any fun d => decorators.contains d.name

/-- The last of the files that declare a class of a name with one of some decorators. -/
def lastDeclaring? (decorators : List String) (name : String)
    (sources : List (String × List UInt8)) : Option String :=
  (sources.reverse.find? fun source => declares decorators name source.2).map (·.1)

namespace ClassKind

variable {α : Type} (k : ClassKind α)

def entriesIn (source : String × List UInt8) : List α :=
  (Outline.classesIn source.2).flatMap fun c =>
    (c.decorators.filter fun d => k.decorators.contains d.name).map (k.entry source.1 c)

section Filled

variable {k} {σ : Type} {part : Project → σ} {put : α → σ → σ}

theorem Fills.addFile (h : k.Fills part put) (source : String × List UInt8) (p : Project) :
    part (p.addFile source.1 source.2) =
      (k.entriesIn source).foldl (fun t a => put a t) (part p) := by
  rw [Project.addFile, entriesIn]
  generalize Outline.classesIn source.2 = classes
  induction classes generalizing p with
  | nil => rfl
  | cons c rest ih =>
    rw [List.foldl_cons, ih, h.decorators, List.flatMap_cons, List.foldl_append]

/-- It is filled with the entries of the files in their order. -/
theorem Fills.scan (h : k.Fills part put) (sources : List (String × List UInt8)) (p : Project) :
    part (sources.foldl (fun p (file, octets) => p.addFile file octets) p) =
      (sources.flatMap k.entriesIn).foldl (fun t a => put a t) (part p) := by
  induction sources generalizing p with
  | nil => rfl
  | cons source rest ih =>
    rw [List.foldl_cons, ih, h.addFile, List.flatMap_cons, List.foldl_append]

end Filled

/-- The table of a workspace is made of the entries of its files in their order. -/
theorem table_scan (sources : List (String × List UInt8)) :
    k.table (sources.foldl (fun p (file, octets) => p.addFile file octets) .empty) =
      tableOf k.name (sources.flatMap k.entriesIn) := by
  have hfills : k.Fills k.table (insert k.name) := k.table_addDecorated
  rw [hfills.scan, k.table_empty]
  rfl

theorem file_of_mem_entriesIn {source : String × List UInt8} {a : α}
    (h : a ∈ k.entriesIn source) : k.file a = source.1 := by
  obtain ⟨c, -, ha⟩ := List.mem_flatMap.mp h
  obtain ⟨d, -, rfl⟩ := List.mem_map.mp ha
  exact k.file_entry ..

/-- A file has an entry of a name if and only if it declares the name. -/
theorem exists_mem_entriesIn (source : String × List UInt8) (name : String) :
    (∃ a ∈ k.entriesIn source, k.name a = name) ↔ declares k.decorators name source.2 = true := by
  simp only [entriesIn, declares, List.mem_flatMap, List.mem_map, List.mem_filter,
    List.any_eq_true, Bool.and_eq_true, decide_eq_true_eq]
  constructor
  · rintro ⟨_, ⟨c, hc, d, hd, rfl⟩, hname⟩
    exact ⟨c, hc, (k.name_entry ..).symm.trans hname, d, hd⟩
  · rintro ⟨c, hc, hname, d, hd⟩
    exact ⟨_, ⟨c, hc, d, hd, rfl⟩, (k.name_entry ..).trans hname⟩

/-- The last entry of a name comes from the last file that declares it. -/
theorem file_of_find? (sources : List (String × List UInt8)) (name : String) :
    (((sources.flatMap k.entriesIn).reverse.find? fun a => k.name a = name).map k.file) =
      lastDeclaring? k.decorators name sources := by
  induction sources using List.reverseRecOn with
  | nil => rfl
  | append_singleton sources source ih =>
    rw [lastDeclaring?, List.reverse_concat, List.find?_cons, List.flatMap_append,
      List.flatMap_singleton, List.reverse_append, List.find?_append]
    cases hfound : (k.entriesIn source).reverse.find? fun a => k.name a = name with
    | some a =>
      have hmem : a ∈ k.entriesIn source := List.mem_reverse.mp (List.mem_of_find?_eq_some hfound)
      have hname : k.name a = name := by simpa using List.find?_some hfound
      rw [(k.exists_mem_entriesIn source name).mp ⟨a, hmem, hname⟩]
      exact congrArg some (k.file_of_mem_entriesIn hmem)
    | none =>
      have hnot : declares k.decorators name source.2 = false := by
        rw [Bool.eq_false_iff, Ne, ← k.exists_mem_entriesIn]
        rintro ⟨a, ha, he⟩
        simpa [he] using List.find?_eq_none.mp hfound a (List.mem_reverse.mpr ha)
      rw [hnot]
      exact ih

/-- What the table of a workspace says of a name is what the last file that declares it says. -/
theorem exists_mem_table_iff (sources : List (String × List UInt8)) (name file : String) :
    (∃ a ∈ k.table (sources.foldl (fun p (file, octets) => p.addFile file octets) .empty),
        k.file a = file ∧ k.name a = name) ↔
      lastDeclaring? k.decorators name sources = some file := by
  rw [k.table_scan, ← k.file_of_find?, Option.map_eq_some_iff]
  constructor
  · rintro ⟨a, ha, hfile, rfl⟩
    exact ⟨a, (mem_tableOf k.name _ a).mp ha, hfile⟩
  · rintro ⟨a, ha, hfile⟩
    have hname : k.name a = name := by simpa using List.find?_some ha
    exact ⟨a, (mem_tableOf k.name _ a).mpr (hname ▸ ha), hfile, hname⟩

end ClassKind

end Sources

theorem endsWith_join {tail : String} (h : '/' ∉ tail.toList) (names : List String) :
    Text.endsWith (Text.join "/" names) tail = Text.endsWith (names.getLastD "") tail := by
  induction names with
  | nil => rfl
  | cons name rest ih =>
    cases rest with
    | nil => rfl
    | cons next rest =>
      have hjoin : Text.join "/" (name :: next :: rest) =
          name ++ "/" ++ Text.join "/" (next :: rest) := rfl
      have hlast : (name :: next :: rest).getLastD "" = (next :: rest).getLastD "" := by simp
      rw [hjoin, hlast, ← ih]
      exact Text.endsWith_append_of_notMem h name _

/-- The path of a source file has the ending of sources and not that of tests. -/
theorem endsWith_of_mem_sourceFiles {files : FileTree} {directory : Path}
    {sources : List (String × List UInt8)} (h : sourceFiles files directory = .ok sources)
    {file : String} (hfile : file ∈ sources.map (·.1)) :
    Text.endsWith file ".ts" = true ∧ Text.endsWith file ".spec.ts" = false := by
  rw [sourceFiles] at h
  obtain ⟨place?, -, h⟩ := bind_eq_ok_iff.mp h
  cases place? with
  | none =>
    cases h
    simp at hfile
  | some found =>
    obtain ⟨hasSources, -, h⟩ := bind_eq_ok_iff.mp h
    cases h
    obtain ⟨source, hsource, rfl⟩ := List.mem_map.mp hfile
    obtain ⟨⟨names, node⟩, hcandidate, hnode⟩ := List.mem_filterMap.mp hsource
    rw [List.mem_mergeSort, List.mem_filter] at hcandidate
    cases node with
    | directory => cases hnode
    | file octets =>
      cases hnode
      rw [endsWith_join (by decide), endsWith_join (by decide)]
      have hsource : isSource names = true := by
        simpa using (Bool.and_eq_true_iff.mp hcandidate.2).1
      simp only [isSource, Text.endsWithAny, List.any_cons] at hsource
      grind

/-- The sources are the candidates in the order of their paths. -/
theorem sourceFiles_eq {files : FileTree} {directory : Path} {place : List String}
    {node : FileNode} {hasSources : Bool} {candidates : List (List String × FileNode)}
    (hplace : files.locate directory = .ok (some (place, node)))
    (hplain : files.isDirectory (directory.join (Path.ofString "src")) = .ok hasSources)
    (hcandidates : ((files.below place).filter fun p =>
      isSource p.1 && (!hasSources || p.1.head? == some "src")) = candidates)
    (hordered : candidates.Pairwise fun a b => FileTree.namesLe a.1 b.1) :
    sourceFiles files directory = .ok (candidates.filterMap fun
      | (names, .file octets) => some (Text.join "/" names, octets)
      | (_, .directory) => none) := by
  rw [sourceFiles]
  refine bind_eq_ok_iff.mpr ⟨_, hplace, bind_eq_ok_iff.mpr ⟨_, hplain, ?_⟩⟩
  refine (congrArg (fun l => Except.ok (List.filterMap _ (List.mergeSort l _)))
    hcandidates).trans ?_
  exact congrArg (fun l => Except.ok (List.filterMap _ l)) (List.mergeSort_of_pairwise hordered)

end Workspace

namespace Impact

/-- The impact is on a component of a file, and because this very file was changed. -/
def Directly (name file : String) (i : Impact) : Prop :=
  i.component = name ∧ i.file = file ∧ (.direct, file) ∈ i.reasons.map Reason.key

@[simp] theorem directly_single {repo component file' source description name file : String}
    {kind : ReasonKind} {line : Option Int} :
    (single repo component file' kind source description line).Directly name file ↔
      component = name ∧ file' = file ∧ kind = .direct ∧ source = file := by
  simp [Directly, single, Reason.key, eq_comm]

/-- Merging neither loses nor adds what is reported as modified. -/
theorem exists_directly_merge (items : List Impact) (name file : String) :
    (∃ i ∈ merge items, i.Directly name file) ↔ ∃ i ∈ items, i.Directly name file := by
  have hmerged : ∀ i ∈ merge items, ∀ k, k ∈ i.reasons.map Reason.key ↔
      ∃ j ∈ items, j.key = i.key ∧ k ∈ j.reasons.map Reason.key := by
    intro i hi k
    have hreasons : i.reasons = distinctBy Reason.key (gathering.partsOf items i.key) :=
      gathering.parts_of_mem_gather hi
    rw [hreasons, mem_map_distinctBy]
    simp only [List.mem_map, gathering.mem_partsOf]
    constructor
    · rintro ⟨reason, ⟨j, hj, hkey, hmem⟩, rfl⟩
      exact ⟨j, hj, hkey, reason, hmem, rfl⟩
    · rintro ⟨j, hj, hkey, reason, hmem, rfl⟩
      exact ⟨reason, ⟨j, hj, hkey, hmem⟩, rfl⟩
  constructor
  · rintro ⟨i, hi, rfl, rfl, hmem⟩
    obtain ⟨j, hj, hkey, hmem⟩ := (hmerged i hi _).mp hmem
    obtain ⟨hname, hfile⟩ := Prod.mk.inj hkey
    exact ⟨j, hj, hname, hfile, hmem⟩
  · rintro ⟨j, hj, rfl, rfl, hmem⟩
    have hkey : j.key ∈ (merge items).map gathering.key :=
      (gathering.mem_map_key_gather j.key items).mpr (List.mem_map_of_mem hj)
    obtain ⟨i, hi, hij⟩ := List.mem_map.mp hkey
    obtain ⟨hname, hfile⟩ := Prod.mk.inj hij
    exact ⟨i, hi, hname, hfile, (hmerged i hi _).mpr ⟨j, hj, hij.symm, hmem⟩⟩

end Impact

namespace Analysis.AngularWorkspace

open Outcome
open Workspace (Project componentKind serviceKind lastDeclaring?)

variable (s : Setting) (p : Project) (changed name file : String)

theorem not_directly_templateImpacts :
    ∀ i ∈ templateImpacts s p changed, ¬ i.Directly name file := by
  rw [templateImpacts]
  split <;> simp [Setting.impact]

theorem not_directly_styleImpacts : ∀ i ∈ styleImpacts s p changed, ¬ i.Directly name file := by
  simp [styleImpacts, Setting.impact, or_imp, forall_and]

theorem not_directly_moduleImpacts : ∀ i ∈ moduleImpacts s p changed, ¬ i.Directly name file := by
  simp only [moduleImpacts, List.forall_mem_flatMap, List.forall_mem_cons,
    List.forall_mem_filterMap]
  refine fun m _ => ⟨by simp [Setting.impactAt], fun declared _ i hi => ?_⟩
  obtain ⟨c, -, rfl⟩ := Option.map_eq_some_iff.mp hi
  simp [Setting.impact]

/-- What depends on modified classes is not itself modified. -/
theorem exists_directly_flatMap {α : Type} {entries : List α} {own : α → Impact}
    {others : α → List Impact} (hothers : ∀ e, ∀ i ∈ others e, ¬ i.Directly name file) :
    (∃ i ∈ entries.flatMap fun e => own e :: others e, i.Directly name file) ↔
      ∃ e ∈ entries, (own e).Directly name file := by
  simp only [List.mem_flatMap, List.mem_cons]
  constructor
  · rintro ⟨i, ⟨e, he, rfl | hi⟩, hdirect⟩
    · exact ⟨e, he, hdirect⟩
    · exact absurd hdirect (hothers e i hi)
  · rintro ⟨e, he, hdirect⟩
    exact ⟨own e, ⟨e, he, .inl rfl⟩, hdirect⟩

/-- A changed source reports the classes that the tables place in it. -/
theorem exists_directly_sourceImpacts :
    (∃ i ∈ sourceImpacts s p changed, i.Directly name file) ↔ changed = file ∧
      ((∃ c ∈ p.components, c.file = file ∧ c.name = name) ∨
        ∃ v ∈ p.services, v.file = file ∧ v.name = name) := by
  simp only [sourceImpacts, List.mem_append, or_and_right, exists_or]
  rw [exists_directly_flatMap _ _ (fun c => by simp [Setting.impact]),
    exists_directly_flatMap _ _ (fun v => by simp [Setting.impact])]
  simp only [Setting.impactAt, Impact.directly_single, List.mem_filter, decide_eq_true_eq]
  grind

variable {s p} {files : List String} {h : Host}

theorem exists_directly_impacts (hscript : Text.endsWith file ".ts" = true)
    (htest : Text.endsWith file ".spec.ts" = false) (hfile : file ∈ files) :
    (∃ i ∈ impacts s p files, i.Directly name file) ↔
      (∃ c ∈ p.components, c.file = file ∧ c.name = name) ∨
        ∃ v ∈ p.services, v.file = file ∧ v.name = name := by
  have hpart : ∀ changed, (∃ i ∈ fileImpacts s p changed, i.Directly name file) ↔
      ∃ i ∈ if Text.endsWith changed ".ts" && !Text.endsWith changed ".spec.ts" then
        sourceImpacts s p changed else [], i.Directly name file := by
    intro changed
    have htemplate := not_directly_templateImpacts s p changed name file
    have hstyle := not_directly_styleImpacts s p changed name file
    have hmodule := not_directly_moduleImpacts s p changed name file
    simp only [fileImpacts, List.mem_append, List.mem_ite_nil_right]
    grind
  rw [impacts, Impact.exists_directly_merge]
  constructor
  · rintro ⟨i, hi, hdirect⟩
    obtain ⟨changed, -, hi⟩ := List.mem_flatMap.mp hi
    obtain ⟨j, hj, hdirect⟩ := (hpart changed).mp ⟨i, hi, hdirect⟩
    have hsource := (List.mem_ite_nil_right.mp hj).2
    exact ((exists_directly_sourceImpacts s p changed name file).mp ⟨j, hsource, hdirect⟩).2
  · intro hclass
    obtain ⟨i, hi, hdirect⟩ :=
      (exists_directly_sourceImpacts s p file name file).mpr ⟨rfl, hclass⟩
    obtain ⟨j, hj, hdirect⟩ :=
      (hpart file).mpr ⟨i, List.mem_ite_nil_right.mpr ⟨by simp [hscript, htest], hi⟩, hdirect⟩
    exact ⟨j, List.mem_flatMap.mpr ⟨file, hfile, hj⟩, hdirect⟩

section Analysis

variable [Outline.ScriptParser]

/-- The analysis answers whenever the workspace can be searched. Of a changed source file it reports
as modified exactly the names for which that file is the last one to declare a component, or the
last one to declare a service. A class of the file whose name a later file declares again is not
reported. -/
theorem analyze_directly {changed : List String} {sources : List (String × List UInt8)}
    (hchanged : s.changedFiles h AngularWorkspace.name = .ok changed)
    (hsources : Workspace.sourceFiles h.files s.repo.path = .ok sources) :
    ∃ impacts, analyze s h = .ok impacts ∧
      ∀ file ∈ changed, file ∈ sources.map (·.1) → ∀ name,
        (∃ i ∈ impacts, i.Directly name file) ↔
          lastDeclaring? ["Component", "Directive", "Pipe"] name sources = some file ∨
            lastDeclaring? ["Injectable"] name sources = some file := by
  by_cases hempty : changed.isEmpty = true
  · refine ⟨[], bind_eq_ok_iff.mpr ⟨changed, hchanged, by rw [if_pos hempty]; rfl⟩, ?_⟩
    rw [List.isEmpty_iff.mp hempty]
    exact List.forall_mem_nil _
  · let project := sources.foldl (fun p (file, octets) => p.addFile file octets) Project.empty
    have hscan : Workspace.scan h.files s.repo.path = .ok project :=
      bind_eq_ok_iff.mpr ⟨sources, hsources, rfl⟩
    have hproject : (Workspace.scan h.files s.repo.path).mapError Fault.nameTooLong =
        .ok project := mapError_eq_ok_iff.mpr hscan
    refine ⟨impacts s project changed, bind_eq_ok_iff.mpr ⟨changed, hchanged, ?_⟩, ?_⟩
    · rw [if_neg hempty]
      exact bind_eq_ok_iff.mpr ⟨project, hproject, rfl⟩
    · intro file hfile hsource name
      obtain ⟨hscript, htest⟩ := Workspace.endsWith_of_mem_sourceFiles hsources hsource
      rw [exists_directly_impacts name file hscript htest hfile]
      exact or_congr (componentKind.exists_mem_table_iff sources name file)
        (serviceKind.exists_mem_table_iff sources name file)

end Analysis

def cardSource : String := "@Pipe class Card \x7b\x7d"

/-- The tree of the source. -/
def cardTree : Outline.Tree Outline.SyntaxNode :=
  let leaf (kind text : String) (field : Option String) (isNamed : Bool) :
      Outline.Tree Outline.SyntaxNode :=
    .node ⟨kind, field, isNamed, text, 1⟩ []
  .node ⟨"program", none, true, cardSource, 1⟩
    [.node ⟨"class_declaration", none, true, cardSource, 1⟩
      [.node ⟨"decorator", some "decorator", true, "@Pipe", 1⟩
          [leaf "@" "@" none false, leaf "identifier" "Pipe" none true],
        leaf "class" "class" none false, leaf "type_identifier" "Card" (some "name") true,
        .node ⟨"class_body", some "body", true, "\x7b\x7d", 1⟩
          [leaf "\x7b" "\x7b" none false, leaf "\x7d" "\x7d" none false]]]

@[reducible]
def cardParser : Outline.ScriptParser := ⟨fun _ => cardTree⟩

attribute [local instance] cardParser

theorem classesIn_cardSource : Outline.classesIn (Text.Utf8.encode cardSource) =
    [⟨"Card", 1, [⟨"Pipe", none⟩]⟩] := by
  change Outline.classesOf cardTree = _
  rw [Outline.classesOf_eq]
  simp [cardTree, Outline.Tree.withOuter, Outline.Tree.partsWithOuter, Outline.Tree.parts,
    Outline.Tree.preorder, Outline.Tree.label]
  decide +kernel

def cardsHost : Host :=
  ⟨⟨[(["web"], .directory), (["web", "a.ts"], .file (Text.Utf8.encode cardSource)),
      (["web", "b.ts"], .file (Text.Utf8.encode cardSource))], []⟩,
    fun _ => Git.Snapshot.answer ⟨.ok ["a.ts", "b.ts"], [], []⟩⟩

def cardsRepository : Repository := ⟨"web", ⟨"/", ["web"]⟩, .angular, [.tsMorph], none, none⟩

theorem sourceFiles_cards : Workspace.sourceFiles cardsHost.files ⟨"/", ["web"]⟩ =
    .ok [("a.ts", Text.Utf8.encode cardSource), ("b.ts", Text.Utf8.encode cardSource)] := by
  have hcandidates : ((cardsHost.files.below ["web"]).filter fun p =>
      Workspace.isSource p.1 && (!false || p.1.head? == some "src")) =
        [(["a.ts"], .file (Text.Utf8.encode cardSource)),
          (["b.ts"], .file (Text.Utf8.encode cardSource))] := by
    decide +kernel
  have hordered : [(["a.ts"], FileNode.file (Text.Utf8.encode cardSource)),
      (["b.ts"], .file (Text.Utf8.encode cardSource))].Pairwise
        fun a b => FileTree.namesLe a.1 b.1 :=
    List.pairwise_pair.mpr (by decide +kernel)
  exact Workspace.sourceFiles_eq rfl rfl hcandidates hordered

/-- Both files are changed and both declare the name, and only the second one is reported. -/
theorem analyze_directly_twoCards : ∃ s, Setting.make cardsRepository ⟨"main", "HEAD"⟩ = .ok s ∧
    s.changedFiles cardsHost AngularWorkspace.name = .ok ["a.ts", "b.ts"] ∧
    Workspace.sourceFiles cardsHost.files s.repo.path =
      .ok [("a.ts", Text.Utf8.encode cardSource), ("b.ts", Text.Utf8.encode cardSource)] ∧
    ∃ impacts, analyze s cardsHost = .ok impacts ∧
      (∃ i ∈ impacts, i.Directly "Card" "b.ts") ∧ ¬ ∃ i ∈ impacts, i.Directly "Card" "a.ts" := by
  have hfound : (Setting.make cardsRepository ⟨"main", "HEAD"⟩).toOption.map (fun s =>
      (s.repo.path, (s.changedFiles cardsHost AngularWorkspace.name).toOption)) =
        some (⟨"/", ["web"]⟩, some ["a.ts", "b.ts"]) := by
    decide +kernel
  obtain ⟨s, hs, hfound⟩ := Option.map_eq_some_iff.mp hfound
  obtain ⟨hpath, hchanged⟩ := Prod.mk.inj hfound
  rw [← eq_ok_iff_toOption] at hs hchanged
  have hsources : Workspace.sourceFiles cardsHost.files s.repo.path =
      .ok [("a.ts", Text.Utf8.encode cardSource), ("b.ts", Text.Utf8.encode cardSource)] := by
    rw [hpath]
    exact sourceFiles_cards
  obtain ⟨impacts, hanalyze, hdirect⟩ := analyze_directly hchanged hsources
  have hlast : lastDeclaring? ["Component", "Directive", "Pipe"] "Card"
      [("a.ts", Text.Utf8.encode cardSource), ("b.ts", Text.Utf8.encode cardSource)] =
        some "b.ts" := by
    simp [lastDeclaring?, Workspace.declares, classesIn_cardSource]
  have hnone : lastDeclaring? ["Injectable"] "Card"
      [("a.ts", Text.Utf8.encode cardSource), ("b.ts", Text.Utf8.encode cardSource)] = none := by
    simp [lastDeclaring?, Workspace.declares, classesIn_cardSource]
  refine ⟨s, hs, hchanged, hsources, impacts, hanalyze, ?_, ?_⟩
  · rw [hdirect "b.ts" (by simp) (by simp)]
    exact .inl hlast
  · rw [hdirect "a.ts" (by simp) (by simp), hlast, hnone]
    simp

end Analysis.AngularWorkspace

end Ripple
