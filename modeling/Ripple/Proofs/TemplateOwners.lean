import Ripple.Proofs.ChangeSets
import Ripple.Proofs.KeyedUnion
import Ripple.Proofs.ModifiedClasses
import Ripple.Proofs.Provenance

/-! # To whom templates and stylesheets belong

A component names the template and the stylesheets that it refers to. The workspace keeps one owner
for each of these files, which is the last component that refers to it. Where several components
share a file, a change of the file is reported for that one of them, and for the others only if they
depend on it.
-/
namespace Ripple

namespace Workspace

section Table

variable {α : Type} (key : α → String)

theorem find?_tableOf (entries : List α) (k : String) :
    (tableOf key entries).find? (fun a => key a = k) =
      entries.reverse.find? (fun a => key a = k) := by
  ext a
  rw [find?_key_iff key (nodup_map_key_tableOf key entries), mem_tableOf]
  constructor
  · rintro ⟨hfound, rfl⟩
    exact hfound
  · intro hfound
    have hkey : key a = k := by simpa using List.find?_some hfound
    exact ⟨hkey ▸ hfound, hkey⟩

theorem lookup_eq_find? {β : Type} (table : List (String × β)) (k : String) :
    table.lookup k = (table.find? fun e => e.1 = k).map (·.2) := by
  induction table with
  | nil => rfl
  | cons e rest ih =>
    rw [List.lookup_cons, List.find?_cons, ih]
    by_cases h : e.1 = k
    · simp [h]
    · have hne : (k == e.1) = false := by simpa using Ne.symm h
      simp [h, hne]

end Table

/-- A part of a project to which services and modules do not matter is filled with components. -/
theorem fills_of_addComponent {σ : Type} {part : Project → σ} {put : Component → σ → σ}
    (hcomponent : ∀ p source c, part (p.addComponent source c) = put c (part p))
    (hservices : ∀ p services, part { p with services } = part p)
    (hmodules : ∀ p modules, part { p with modules } = part p) :
    componentKind.Fills part put := by
  intro f source c p d
  change part (p.addDecorated f source c d) =
    if ["Component", "Directive", "Pipe"].contains d.name then put (componentOf f c d) (part p)
    else part p
  unfold Project.addDecorated
  split
  · exact hcomponent p source _
  · split
    · exact hservices p _
    · split
      · exact hmodules p _
      · rfl

/-- A sort of files that components refer to, and the table of the owners of such files. -/
structure FileSort where
  files : Component → List String
  owners : Project → List (String × String)
  fills : componentKind.Fills owners fun c table =>
    (files c).foldl (fun t file => insert (·.1) (file, c.name) t) table
  owners_empty : owners .empty = [] := by rfl

def templateSort : FileSort where
  files c := c.template.toList
  owners := (·.templates)
  fills := fills_of_addComponent (fun _ _ _ => rfl) (fun _ _ => rfl) fun _ _ => rfl

def styleSort : FileSort where
  files := (·.styles)
  owners := (·.styles)
  fills := fills_of_addComponent (fun _ _ _ => rfl) (fun _ _ => rfl) fun _ _ => rfl

namespace FileSort

variable (k : FileSort)

def references (components : List Component) : List (String × String) :=
  components.flatMap fun c => (k.files c).map (·, c.name)

theorem references_append (components others : List Component) :
    k.references (components ++ others) = k.references components ++ k.references others :=
  List.flatMap_append

/-- The component that a file belongs to. It has the name of the last component that refers to the
file, and it is the last one of that name. -/
def owner? (components : List Component) (file : String) : Option Component :=
  (components.reverse.find? fun c => file ∈ k.files c).bind fun c =>
    components.reverse.find? fun e => e.name = c.name

/-- Where no name is declared twice, a file belongs to the last component that refers to it. -/
theorem owner?_of_nodup {components : List Component} (h : (components.map (·.name)).Nodup)
    (file : String) :
    k.owner? components file = components.reverse.find? fun c => file ∈ k.files c := by
  have hnodup : (components.reverse.map (·.name)).Nodup := by
    rw [List.map_reverse]
    exact List.nodup_reverse.mpr h
  rw [owner?]
  cases hfound : components.reverse.find? fun c => file ∈ k.files c with
  | none => rfl
  | some c => exact (find?_key_iff _ hnodup c.name c).mpr ⟨List.mem_of_find?_eq_some hfound, rfl⟩

/-- What refers to a file last owns it. -/
theorem find?_references (components : List Component) (file : String) :
    ((k.references components).reverse.find? fun e => e.1 = file).map (·.2) =
      (components.reverse.find? fun c => file ∈ k.files c).map (·.name) := by
  -- from the right end, because a later reference takes the file away from the earlier ones
  induction components using List.reverseRecOn with
  | nil => rfl
  | append_singleton components c ih =>
    have hone : k.references [c] = (k.files c).map (·, c.name) := List.flatMap_singleton ..
    rw [references_append, List.reverse_append, List.find?_append, Option.map_or, ih, hone,
      List.reverse_concat, List.find?_cons, ← List.map_reverse, List.find?_map]
    by_cases h : file ∈ k.files c
    · cases hfound : (k.files c).reverse.find? fun f => f = file with
      | none =>
        have hnone := List.find?_eq_none.mp hfound file (List.mem_reverse.mpr h)
        simp at hnone
      | some f => simp [hfound, h]
    · have hnone : ((k.files c).reverse.find? fun f => f = file) = none := by
        rw [List.find?_eq_none]
        intro f hf he
        exact h (of_decide_eq_true he ▸ List.mem_reverse.mp hf)
      simp [hnone, h]

end FileSort

section Sources

variable [Outline.ScriptParser]

/-- The project that is read from the sources of a workspace. -/
def projectOf (sources : List (String × List UInt8)) : Project :=
  sources.foldl (fun p (file, octets) => p.addFile file octets) .empty

/-- The components that the sources declare, one for each decorator that makes one. -/
def componentsIn (sources : List (String × List UInt8)) : List Component :=
  sources.flatMap componentKind.entriesIn

namespace FileSort

variable (k : FileSort)

/-- The table of owners is made of the references in the order of the files. -/
theorem owners_projectOf (sources : List (String × List UInt8)) :
    k.owners (projectOf sources) = tableOf (·.1) (k.references (componentsIn sources)) := by
  have hmap : ∀ (c : Component) (t : List (String × String)),
      ((k.files c).map (·, c.name)).foldl (fun t e => insert (·.1) e t) t =
        (k.files c).foldl (fun t file => insert (·.1) (file, c.name) t) t :=
    fun c t => List.foldl_map
  rw [projectOf, k.fills.scan, k.owners_empty, ← componentsIn, tableOf, references,
    List.foldl_flatMap]
  simp only [hmap]

/-- The tables of a workspace tell the owners of the files. -/
theorem lookup_owners (sources : List (String × List UInt8)) (file : String) :
    ((k.owners (projectOf sources)).lookup file).bind (projectOf sources).component? =
      k.owner? (componentsIn sources) file := by
  have hcomponents : (projectOf sources).components =
      tableOf (·.name) (componentsIn sources) := componentKind.table_scan sources
  have hcomponent : ∀ name, (projectOf sources).component? name =
      (componentsIn sources).reverse.find? fun e => e.name = name := by
    intro name
    rw [Project.component?, hcomponents, find?_tableOf]
  rw [owners_projectOf, lookup_eq_find?, find?_tableOf, find?_references, Option.bind_map, owner?]
  exact Option.bind_congr fun c _ => hcomponent c.name

end FileSort

end Sources

end Workspace

namespace Impact

theorem causes_merge (items : List Impact) : causes (merge items) = causes items := by
  ext ⟨component, file, kind, source⟩
  rw [mem_causes_iff, mem_causes_iff]
  exact gathering.exists_part_gather_iff items (component, file) (kind, source)

/-- What is said of several items is said of one of them. -/
theorem mem_causes (q : String × String × ReasonKind × String) (items : List Impact) :
    q ∈ causes items ↔ ∃ i ∈ items, q ∈ causes [i] := by
  simp [causes]

theorem mem_causes_append (q : String × String × ReasonKind × String) (items others : List Impact) :
    q ∈ causes (items ++ others) ↔ q ∈ causes items ∨ q ∈ causes others := by
  simp [causes, or_and_right, exists_or]

theorem mem_causes_ite (q : String × String × ReasonKind × String) (items : List Impact) (c : Prop)
    [Decidable c] : q ∈ causes (if c then items else []) ↔ c ∧ q ∈ causes items := by
  by_cases h : c <;> simp [causes, h]

theorem mem_causes_single (repo component file description : String) (kind : ReasonKind)
    (source : String) (line : Option Int) (q : String × String × ReasonKind × String) :
    q ∈ causes [single repo component file kind source description line] ↔
      (component, file, kind, source) = q := by
  simp [causes, single, eq_comm]

end Impact

namespace Analysis.AngularWorkspace

open Outcome
open Workspace (Project FileSort templateSort styleSort projectOf componentsIn)

variable {s : Setting} {p : Project} {name file source g : String} {kind : ReasonKind}

theorem mem_causes_templateImpacts :
    (name, file, kind, source) ∈ Impact.causes (templateImpacts s p g) ↔
      kind = .template ∧ source = g ∧ ∃ c, (p.templates.lookup g).bind p.component? = some c ∧
        ∃ d ∈ c :: p.dependentsOf c.name, d.name = name ∧ d.file = file := by
  rw [templateImpacts]
  cases (p.templates.lookup g).bind p.component? with
  | none => simp [Impact.causes]
  | some c =>
    rw [Impact.mem_causes]
    simp only [List.exists_mem_cons_iff, List.mem_map, exists_exists_and_eq_and, Setting.impact,
      Impact.mem_causes_single, Prod.mk.injEq]
    grind

theorem mem_causes_styleImpacts :
    (name, file, kind, source) ∈ Impact.causes (styleImpacts s p g) ↔
      kind = .style ∧ source = g ∧
        ((∃ c, (p.styles.lookup g).bind p.component? = some c ∧ c.name = name ∧ c.file = file) ∨
          Text.hasAny g globalStyleMarks = true ∧ name = "Global Styles" ∧ file = g) := by
  rw [styleImpacts, Impact.mem_causes_append, Impact.mem_causes_ite, Impact.mem_causes]
  simp only [List.mem_map, exists_exists_and_eq_and, Option.mem_toList, Setting.impact,
    Impact.mem_causes_single, Prod.mk.injEq]
  grind

/-- A changed source gives reasons of two kinds. -/
theorem kind_of_mem_sourceImpacts
    (h : (name, file, kind, source) ∈ Impact.causes (sourceImpacts s p g)) :
    kind = .direct ∨ kind = .dependency := by
  have hkinds : ∀ i ∈ sourceImpacts s p g, ∀ r ∈ i.reasons,
      r.kind = .direct ∨ r.kind = .dependency := by
    simp only [sourceImpacts, List.forall_mem_append, List.forall_mem_flatMap,
      List.forall_mem_cons, List.forall_mem_map]
    simp [Setting.impact, Setting.impactAt, Impact.single]
  obtain ⟨i, hi, r, hr, hq⟩ := h
  cases hq
  exact hkinds i hi r hr

theorem kind_of_mem_moduleImpacts
    (h : (name, file, kind, source) ∈ Impact.causes (moduleImpacts s p g)) : kind = .module := by
  have hkinds : ∀ i ∈ moduleImpacts s p g, ∀ r ∈ i.reasons, r.kind = .module := by
    simp only [moduleImpacts, List.forall_mem_flatMap, List.forall_mem_cons,
      List.forall_mem_filterMap]
    refine fun m _ => ⟨by simp [Setting.impactAt, Impact.single], fun declared _ i hi => ?_⟩
    obtain ⟨c, -, rfl⟩ := Option.map_eq_some_iff.mp hi
    simp [Setting.impact, Impact.single]
  obtain ⟨i, hi, r, hr, hq⟩ := h
  cases hq
  exact hkinds i hi r hr

/-- Only a changed template gives reasons of the one kind, only a changed stylesheet those of the
other. -/
theorem mem_causes_fileImpacts (hkind : kind = .template ∨ kind = .style) :
    (name, file, kind, source) ∈ Impact.causes (fileImpacts s p g) ↔
      Text.endsWith g ".html" = true ∧
          (name, file, kind, source) ∈ Impact.causes (templateImpacts s p g) ∨
        Text.endsWithAny g [".scss", ".css"] = true ∧
          (name, file, kind, source) ∈ Impact.causes (styleImpacts s p g) := by
  simp only [fileImpacts, Impact.mem_causes_append, Impact.mem_causes_ite]
  constructor
  · rintro (((⟨-, hsource⟩ | htemplate) | hstyle) | ⟨-, hmodule⟩)
    · have hother := kind_of_mem_sourceImpacts hsource
      rcases hkind with rfl | rfl <;> simp at hother
    · exact .inl htemplate
    · exact .inr hstyle
    · have hother := kind_of_mem_moduleImpacts hmodule
      rcases hkind with rfl | rfl <;> cases hother
  · rintro (htemplate | hstyle)
    · exact .inl (.inl (.inr htemplate))
    · exact .inl (.inr hstyle)

theorem mem_causes_impacts {changed : List String} :
    (name, file, kind, source) ∈ Impact.causes (impacts s p changed) ↔
      ∃ g ∈ changed, (name, file, kind, source) ∈ Impact.causes (fileImpacts s p g) := by
  rw [impacts, Impact.causes_merge, Impact.mem_causes]
  simp only [List.mem_flatMap, Impact.mem_causes _ (fileImpacts s p _)]
  grind

/-- A changed template is reported for its owner and what depends on the owner. -/
theorem template_mem_causes_impacts {changed : List String} :
    (name, file, .template, g) ∈ Impact.causes (impacts s p changed) ↔
      g ∈ changed ∧ Text.endsWith g ".html" = true ∧
        ∃ c, (p.templates.lookup g).bind p.component? = some c ∧
          ∃ d ∈ c :: p.dependentsOf c.name, d.name = name ∧ d.file = file := by
  simp only [mem_causes_impacts, mem_causes_fileImpacts (.inl rfl), mem_causes_templateImpacts,
    mem_causes_styleImpacts]
  constructor
  · rintro ⟨_, hg, ⟨hending, -, rfl, howner⟩ | ⟨-, hkind, -⟩⟩
    · exact ⟨hg, hending, howner⟩
    · cases hkind
  · rintro ⟨hg, hending, howner⟩
    exact ⟨g, hg, .inl ⟨hending, trivial, rfl, howner⟩⟩

theorem style_mem_causes_impacts {changed : List String} :
    (name, file, .style, g) ∈ Impact.causes (impacts s p changed) ↔
      g ∈ changed ∧ Text.endsWithAny g [".scss", ".css"] = true ∧
        ((∃ c, (p.styles.lookup g).bind p.component? = some c ∧ c.name = name ∧ c.file = file) ∨
          Text.hasAny g globalStyleMarks = true ∧ name = "Global Styles" ∧ file = g) := by
  simp only [mem_causes_impacts, mem_causes_fileImpacts (.inr rfl), mem_causes_templateImpacts,
    mem_causes_styleImpacts]
  constructor
  · rintro ⟨_, hg, ⟨-, hkind, -⟩ | ⟨hending, -, rfl, howner⟩⟩
    · cases hkind
    · exact ⟨hg, hending, howner⟩
  · rintro ⟨hg, hending, howner⟩
    exact ⟨g, hg, .inr ⟨hending, trivial, rfl, howner⟩⟩

section Analysis

variable [Outline.ScriptParser]

/-- The analysis answers whenever the workspace can be searched. A changed template is reported for
the component that it belongs to and for its dependents, a changed stylesheet for the component that
it belongs to; some stylesheets are reported for all components together as well. Of the components
that refer to one file the file belongs to the last one only, so a component that shares a template
or a stylesheet with a later one is not reported for it. -/
theorem analyze_owners {h : Host} {changed : List String} {sources : List (String × List UInt8)}
    (hchanged : s.changedFiles h AngularWorkspace.name = .ok changed)
    (hsources : Workspace.sourceFiles h.files s.repo.path = .ok sources) :
    ∃ found, analyze s h = .ok found ∧
      (∀ name file g, (name, file, .template, g) ∈ Impact.causes found ↔
        g ∈ changed ∧ Text.endsWith g ".html" = true ∧
          ∃ c, templateSort.owner? (componentsIn sources) g = some c ∧
            ∃ d ∈ c :: (projectOf sources).dependentsOf c.name, d.name = name ∧ d.file = file) ∧
      (∀ name file g, (name, file, .style, g) ∈ Impact.causes found ↔
        g ∈ changed ∧ Text.endsWithAny g [".scss", ".css"] = true ∧
          ((∃ c, styleSort.owner? (componentsIn sources) g = some c ∧ c.name = name ∧
              c.file = file) ∨
            Text.hasAny g globalStyleMarks = true ∧ name = "Global Styles" ∧ file = g)) ∧
      (((componentsIn sources).map (·.name)).Nodup → ∀ (k : FileSort) g,
        k.owner? (componentsIn sources) g =
          (componentsIn sources).reverse.find? fun c => g ∈ k.files c) := by
  have hscan : Workspace.scan h.files s.repo.path = .ok (projectOf sources) :=
    bind_eq_ok_iff.mpr ⟨sources, hsources, rfl⟩
  refine ⟨_, analyze_of_scan hchanged hscan, fun name file g => ?_, fun name file g => ?_,
    fun hnodup k => k.owner?_of_nodup hnodup⟩
  · rw [template_mem_causes_impacts, ← templateSort.lookup_owners]
    rfl
  · rw [style_mem_causes_impacts, ← styleSort.lookup_owners]
    rfl

end Analysis

def sharingSource (name : String) : String :=
  "@Component(\x7bstyleUrl:\"s.css\"\x7d)class " ++ name ++ " \x7b\x7d"

/-- The tree of the source. -/
def sharingTree (name : String) : Outline.Tree Outline.SyntaxNode :=
  let leaf (kind text : String) (field : Option String) (isNamed : Bool) :
      Outline.Tree Outline.SyntaxNode :=
    .node ⟨kind, field, isNamed, text, 1⟩ []
  let pair : Outline.Tree Outline.SyntaxNode :=
    .node ⟨"pair", none, true, "styleUrl:\"s.css\"", 1⟩
      [leaf "property_identifier" "styleUrl" (some "key") true, leaf ":" ":" none false,
        leaf "string" "\"s.css\"" (some "value") true]
  let object : Outline.Tree Outline.SyntaxNode :=
    .node ⟨"object", none, true, "\x7bstyleUrl:\"s.css\"\x7d", 1⟩
      [leaf "\x7b" "\x7b" none false, pair, leaf "\x7d" "\x7d" none false]
  let call : Outline.Tree Outline.SyntaxNode :=
    .node ⟨"call_expression", none, true, "Component(\x7bstyleUrl:\"s.css\"\x7d)", 1⟩
      [leaf "identifier" "Component" (some "function") true,
        .node ⟨"arguments", some "arguments", true, "(\x7bstyleUrl:\"s.css\"\x7d)", 1⟩
          [leaf "(" "(" none false, object, leaf ")" ")" none false]]
  .node ⟨"program", none, true, sharingSource name, 1⟩
    [.node ⟨"class_declaration", none, true, sharingSource name, 1⟩
      [.node ⟨"decorator", some "decorator", true, "@Component(\x7bstyleUrl:\"s.css\"\x7d)", 1⟩
          [leaf "@" "@" none false, call],
        leaf "class" "class" none false, leaf "type_identifier" name (some "name") true,
        .node ⟨"class_body", some "body", true, "\x7b\x7d", 1⟩
          [leaf "\x7b" "\x7b" none false, leaf "\x7d" "\x7d" none false]]]

@[reducible]
def sharingParser : Outline.ScriptParser where
  parse octets :=
    if octets = Text.Utf8.encode (sharingSource "A") then sharingTree "A" else sharingTree "B"

attribute [local instance] sharingParser

theorem classesOf_sharingTree (name : String) : Outline.classesOf (sharingTree name) =
    [⟨name, 1, [⟨"Component", some [("styleUrl", some ⟨"\"s.css\"", none, none⟩)]⟩]⟩] := by
  rw [Outline.classesOf_eq]
  simp [sharingTree, Outline.Tree.withOuter, Outline.Tree.partsWithOuter, Outline.Tree.parts,
    Outline.Tree.preorder, Outline.Tree.label]
  rfl

def sharingSources : List (String × List UInt8) :=
  [("a.ts", Text.Utf8.encode (sharingSource "A")), ("b.ts", Text.Utf8.encode (sharingSource "B"))]

theorem componentsIn_sharingSources : componentsIn sharingSources =
    [⟨"A", "a.ts", 1, none, none, ["s.css"]⟩, ⟨"B", "b.ts", 1, none, none, ["s.css"]⟩] := by
  have hfirst : Outline.classesIn (Text.Utf8.encode (sharingSource "A")) = _ :=
    (congrArg Outline.classesOf (if_pos rfl)).trans (classesOf_sharingTree "A")
  have hsecond : Outline.classesIn (Text.Utf8.encode (sharingSource "B")) = _ :=
    (congrArg Outline.classesOf (if_neg (by decide +kernel))).trans (classesOf_sharingTree "B")
  simp only [componentsIn, sharingSources, List.flatMap_cons, List.flatMap_nil,
    Workspace.ClassKind.entriesIn, hfirst, hsecond]
  decide +kernel

def sharingHost : Host :=
  ⟨⟨(["web"], .directory) :: sharingSources.map fun (file, octets) => (["web", file], .file octets),
      []⟩, fun _ => Git.Snapshot.answer ⟨.ok ["s.css"], [], []⟩⟩

theorem sourceFiles_sharing :
    Workspace.sourceFiles sharingHost.files ⟨"/", ["web"]⟩ = .ok sharingSources := by
  let candidates := sharingSources.map fun (file, octets) => ([file], FileNode.file octets)
  have hcandidates : ((sharingHost.files.below ["web"]).filter fun p =>
      Workspace.isSource p.1 && (!false || p.1.head? == some "src")) = candidates := by
    decide +kernel
  have hordered : candidates.Pairwise fun a b => FileTree.namesLe a.1 b.1 :=
    List.pairwise_pair.mpr (by decide +kernel)
  exact Workspace.sourceFiles_eq rfl rfl hcandidates hordered

/-- Both components name the changed stylesheet, and only the second one is reported. -/
theorem analyze_owners_shared :
    ∃ s, Setting.make ⟨"web", ⟨"/", ["web"]⟩, .angular, [.tsMorph], none, none⟩ ⟨"main", "HEAD"⟩ =
        .ok s ∧
      ((componentsIn sharingSources).map fun c => (c.name, c.file, c.styles)) =
        [("A", "a.ts", ["s.css"]), ("B", "b.ts", ["s.css"])] ∧
      ∃ found, analyze s sharingHost = .ok found ∧
        ("B", "b.ts", .style, "s.css") ∈ Impact.causes found ∧
        ("A", "a.ts", .style, "s.css") ∉ Impact.causes found := by
  have hmade : (Setting.make ⟨"web", ⟨"/", ["web"]⟩, .angular, [.tsMorph], none, none⟩
      ⟨"main", "HEAD"⟩).toOption.map (fun s =>
        (s.repo.path, (s.changedFiles sharingHost AngularWorkspace.name).toOption)) =
          some (⟨"/", ["web"]⟩, some ["s.css"]) := by
    decide +kernel
  obtain ⟨s, hs, hmade⟩ := Option.map_eq_some_iff.mp hmade
  obtain ⟨hpath, hchanged⟩ := Prod.mk.inj hmade
  rw [← eq_ok_iff_toOption] at hs hchanged
  have hsources : Workspace.sourceFiles sharingHost.files s.repo.path = .ok sharingSources := by
    rw [hpath]
    exact sourceFiles_sharing
  have howner : styleSort.owner? (componentsIn sharingSources) "s.css" =
      some ⟨"B", "b.ts", 1, none, none, ["s.css"]⟩ := by
    rw [componentsIn_sharingSources]
    decide
  obtain ⟨found, hfound, -, hstyle, -⟩ := analyze_owners hchanged hsources
  refine ⟨s, hs, by rw [componentsIn_sharingSources]; rfl, found, hfound, ?_, ?_⟩
  · rw [hstyle]
    exact ⟨List.mem_singleton_self _, by decide, .inl ⟨_, howner, rfl, rfl⟩⟩
  · rw [hstyle, howner]
    rintro ⟨-, -, ⟨c, hc, hname, -⟩ | ⟨-, hglobal, -⟩⟩
    · cases hc
      exact absurd hname (by decide)
    · exact absurd hglobal (by decide)

end Analysis.AngularWorkspace

end Ripple
