import Ripple.Proofs.Paths
import Ripple.Proofs.TemplateOwners

/-! # Where locations lead

A location that is written in a file is a walk that starts in the directory of the file and takes
one name after the other. It is resolved to the text of the place where the walk ends, and to no
place at all if the walk leaves the repository. What a component refers to is therefore recorded by
its place, whichever of the many spellings the component uses.
-/
namespace Ripple

namespace Location

/-- Where one name leads from a place in the repository. An empty name and a dot stay, and a double
dot leads up, though never out of the repository. -/
def step (place : List String) (name : String) : Option (List String) :=
  if name = "" ∨ name = "." then some place
  else if name = ".." then if place = [] then none else some place.dropLast
  else some (place ++ [name])

def walk (place names : List String) : Option (List String) := names.foldlM step place

theorem walk_cons (place : List String) (name : String) (rest : List String) :
    walk place (name :: rest) = (step place name).bind fun next => walk next rest :=
  List.foldlM_cons

/-- Only proper names move a walk. -/
theorem walk_filter (place names : List String) :
    walk place (names.filter fun n => n ≠ "" ∧ n ≠ ".") = walk place names := by
  induction names generalizing place with
  | nil => rfl
  | cons n rest ih =>
    by_cases hn : n = "" ∨ n = "."
    · rw [List.filter_cons_of_neg (by simpa [← not_or] using hn), ih, walk_cons, step, if_pos hn,
        Option.bind_some]
    · rw [List.filter_cons_of_pos (by simpa [← not_or] using hn), walk_cons, walk_cons]
      simp only [ih]

/-- Once the names have led out, they stay outside. -/
theorem exists_foldl_descend_out (names rest : List String) :
    ∃ others, names.foldl (descend false) (".." :: rest) = ".." :: others := by
  induction names generalizing rest with
  | nil => exact ⟨rest, rfl⟩
  | cons n names ih =>
    have hstep : ∃ next, descend false (".." :: rest) n = ".." :: next := by
      by_cases hn : n = ".."
      · obtain ⟨last, hlast⟩ : ∃ last, (".." :: rest).getLast? = some last :=
          ⟨_, List.getLast?_eq_some_getLast (List.cons_ne_nil _ _)⟩
        by_cases hup : last = ".."
        · exact ⟨rest ++ [".."], by simp [descend, hn, hlast, hup]⟩
        · have hrest : rest ≠ [] := by
            rintro rfl
            exact hup (Option.some.inj hlast).symm
          exact ⟨rest.dropLast, by
            simp [descend, hn, hlast, hup, List.dropLast_cons_of_ne_nil hrest]⟩
      · exact ⟨rest ++ [n], by simp [descend, hn]⟩
    obtain ⟨next, hnext⟩ := hstep
    rw [List.foldl_cons, hnext]
    exact ih next

/-- From a place in the repository a walk over proper names ends where the names lead, provided they
do not lead out. -/
theorem walk_eq_some_iff {names : List String} (h : ∀ n ∈ names, Path.IsName n)
    {place : List String} (hplace : ".." ∉ place) (target : List String) :
    walk place names = some target ↔
      names.foldl (descend false) place = target ∧ ".." ∉ target := by
  induction names generalizing place with
  | nil =>
    rw [List.foldl_nil, show walk place [] = some place from rfl, Option.some_inj]
    exact ⟨fun heq => ⟨heq, heq ▸ hplace⟩, And.left⟩
  | cons n rest ih =>
    obtain ⟨hn, hrest⟩ := List.forall_mem_cons.mp h
    have hproper : ¬(n = "" ∨ n = ".") := not_or.mpr ⟨hn.ne_empty, hn.ne_dot⟩
    rw [walk_cons, step, if_neg hproper, List.foldl_cons]
    by_cases hup : n = ".."
    · rw [if_pos hup]
      by_cases htop : place = []
      · obtain ⟨others, hout⟩ := exists_foldl_descend_out rest []
        have hstep : descend false place n = [".."] := by simp [descend, hup, htop]
        rw [if_pos htop, hstep, hout]
        constructor
        · intro hnone
          cases hnone
        · rintro ⟨rfl, hin⟩
          exact absurd List.mem_cons_self hin
      · have hlast : place.getLast htop ≠ ".." := fun heq => hplace (heq ▸ List.getLast_mem htop)
        have hstep : descend false place n = place.dropLast := by
          simp [descend, hup, List.getLast?_eq_some_getLast htop, hlast]
        rw [if_neg htop, hstep]
        exact ih hrest fun hmem => hplace (List.dropLast_subset _ hmem)
    · have hstep : descend false place n = place ++ [n] := by simp [descend, hup]
      rw [if_neg hup, hstep]
      exact ih hrest (by simp [hplace, Ne.symm hup])

theorem foldl_descend_of_forall_ne {names : List String} (h : ∀ n ∈ names, n ≠ "..")
    (place : List String) : names.foldl (descend false) place = place ++ names := by
  induction names generalizing place with
  | nil => rw [List.foldl_nil, List.append_nil]
  | cons n rest ih =>
    obtain ⟨hn, hrest⟩ := List.forall_mem_cons.mp h
    have hstep : descend false place n = place ++ [n] := by simp [descend, hn]
    rw [List.foldl_cons, hstep, ih hrest, List.append_assoc, List.singleton_append]

theorem isName_of_mem_foldl_descend {names place : List String}
    (h : ∀ n ∈ place ++ names, Path.IsName n) :
    ∀ n ∈ names.foldl (descend false) place, Path.IsName n := by
  induction names generalizing place with
  | nil => simpa using h
  | cons n rest ih =>
    apply ih
    intro m hm
    rw [List.mem_append] at hm
    rcases hm with hm | hm
    · have hstep : m ∈ place ∨ m = n := by
        rw [descend] at hm
        split at hm
        · split at hm
          · simp_all
          · split at hm
            · simp_all
            · exact .inl (List.dropLast_subset _ hm)
        · simpa using hm
      rcases hstep with hm | rfl
      · exact h m (List.mem_append_left _ hm)
      · exact h m (by simp)
    · exact h m (by simp [hm])

section Directory

variable {dirs : List String} {base : String}

/-- A text of names ends in a character of a name. -/
theorem exists_join_eq_concat (hne : dirs ≠ []) (h : ∀ n ∈ dirs, Path.IsName n) :
    ∃ front c, (Text.join "/" dirs).toList = front ++ [c] ∧ c ≠ '/' := by
  induction dirs using List.reverseRecOn with
  | nil => exact absurd rfl hne
  | append_singleton first last _ =>
    have hlast : Path.IsName last := h last (by simp)
    obtain ⟨front, c, hc⟩ := List.eq_nil_or_concat' last.toList |>.resolve_left
      (String.toList_eq_nil_iff.not.mpr hlast.ne_empty)
    have hslash : c ≠ '/' := by
      rintro rfl
      exact hlast.notMem (by simp [hc])
    by_cases hfirst : first = []
    · exact ⟨front, c, by simp [hfirst, Text.join, hc], hslash⟩
    · refine ⟨(Text.join "/" first).toList ++ '/' :: front, c, ?_, hslash⟩
      rw [Text.toList_join_append hfirst (List.cons_ne_nil _ _), Text.join, hc]
      simp

theorem directory_join (hdirs : ∀ n ∈ dirs, Path.IsName n) (hbase : Path.IsName base) :
    directory (Text.join "/" (dirs ++ [base])) = Text.join "/" dirs := by
  have hfree : ∀ c ∈ base.toList.reverse, decide (c ≠ '/') = true := by
    intro c hc
    rw [decide_eq_true_eq]
    rintro rfl
    exact hbase.notMem (List.mem_reverse.mp hc)
  apply String.toList_injective
  by_cases hempty : dirs = []
  · have hhead : (Text.join "/" (dirs ++ [base])).toList.reverse.dropWhile (· ≠ '/') = [] := by
      rw [hempty, List.nil_append, Text.join, ← List.append_nil base.toList.reverse,
        List.dropWhile_append_of_pos hfree, List.dropWhile_nil]
    rw [directory, hhead, hempty]
    rfl
  · obtain ⟨front, c, hc, hslash⟩ := exists_join_eq_concat hempty hdirs
    have hhead : (Text.join "/" (dirs ++ [base])).toList.reverse.dropWhile (· ≠ '/') =
        '/' :: c :: front.reverse := by
      rw [Text.toList_join_append hempty (List.cons_ne_nil base []), hc, List.reverse_append,
        List.reverse_cons, List.append_assoc, Text.join, List.dropWhile_append_of_pos hfree]
      simp
    rw [directory, hhead, hc]
    simp [hslash]

end Directory

theorem root_eq_empty {s : String} (h : Text.startsWith s "/" = false) : root s = "" := by
  have hlonger : ∀ more : String, Text.startsWith s ("/" ++ more) = false := by
    intro more
    rw [Bool.eq_false_iff, Ne, Text.startsWith, List.isPrefixOf_iff_prefix] at h ⊢
    rw [String.toList_append]
    exact fun hhead => h ((List.prefix_append _ _).trans hhead)
  have htwo : Text.startsWith s "//" = false := hlonger "/"
  have hthree : Text.startsWith s "///" = false := hlonger "//"
  rw [root, hthree, htwo, h]
  rfl

section Relative

variable {dirs : List String} {location : String}

/-- A location is written behind the directory, with a slash between them. -/
theorem toList_join (hdirs : ∀ n ∈ dirs, Path.IsName n)
    (hrelative : Text.startsWith location "/" = false) :
    (join (Text.join "/" dirs) location).toList =
      if dirs = [] then location.toList
      else (Text.join "/" dirs).toList ++ '/' :: location.toList := by
  rw [join, hrelative, if_neg Bool.false_ne_true]
  by_cases hempty : dirs = []
  · simp [hempty, Text.join]
  · obtain ⟨front, c, hc, hslash⟩ := exists_join_eq_concat hempty hdirs
    have hends : Text.endsWith (Text.join "/" dirs) "/" = false := by
      rw [Bool.eq_false_iff, Ne, Text.endsWith, List.isSuffixOf_iff_suffix, hc]
      simpa [List.singleton_suffix_iff_getLast?_eq_some] using hslash
    simp [hempty, Path.join_ne_empty hempty hdirs, hends]

theorem startsWith_join_eq_false (hdirs : ∀ n ∈ dirs, Path.IsName n)
    (hrelative : Text.startsWith location "/" = false) :
    Text.startsWith (join (Text.join "/" dirs) location) "/" = false := by
  rw [Text.startsWith, toList_join hdirs hrelative]
  by_cases hempty : dirs = []
  · rw [if_pos hempty]
    exact hrelative
  · have hstart := Path.startsWith_join hdirs
    obtain ⟨c, rest, htext⟩ := List.exists_cons_of_ne_nil
      (String.toList_eq_nil_iff.not.mpr (Path.join_ne_empty hempty hdirs))
    rw [if_neg hempty]
    rw [Text.startsWith] at hstart
    simpa [htext, List.isPrefixOf] using hstart

theorem namesOf_join (hdirs : ∀ n ∈ dirs, Path.IsName n)
    (hrelative : Text.startsWith location "/" = false) :
    Path.namesOf (join (Text.join "/" dirs) location) = dirs ++ Path.namesOf location := by
  rw [Path.namesOf, Text.split, toList_join hdirs hrelative]
  by_cases hempty : dirs = []
  · rw [if_pos hempty, hempty]
    rfl
  · rw [if_neg hempty, Text.splitBy_append_separator rfl, List.map_append, List.filter_append]
    exact congrArg (· ++ _) (Path.namesOf_join hdirs)

end Relative

/-- The names lead down from the top of the repository to a file. -/
structure IsPlace (names : List String) : Prop where
  nonempty : names ≠ []
  name : ∀ n ∈ names, Path.IsName n
  below : ".." ∉ names

instance (names : List String) : Decidable (IsPlace names) :=
  decidable_of_iff (names ≠ [] ∧ (∀ n ∈ names, Path.IsName n) ∧ ".." ∉ names)
    ⟨fun h => ⟨h.1, h.2.1, h.2.2⟩, fun h => ⟨h.nonempty, h.name, h.below⟩⟩

section Resolve

variable {file target : List String} {location : String}

theorem resolve_eq (hfile : IsPlace file) (hrelative : Text.startsWith location "/" = false) :
    resolve (Text.join "/" file) location =
      let located := Text.join "/" ((Path.namesOf location).foldl (descend false) file.dropLast)
      if located = "" then "." else located := by
  obtain ⟨dirs, base, rfl⟩ := List.eq_nil_or_concat' file |>.resolve_left hfile.nonempty
  obtain ⟨hdirs, hbase⟩ := List.forall_mem_append.mp hfile.name
  have hbelow : ∀ n ∈ dirs, n ≠ ".." := fun n hn he => hfile.below (by simp [← he, hn])
  have hnames := namesOf_join hdirs hrelative
  rw [Path.namesOf] at hnames
  rw [resolve, directory_join hdirs (hbase base (List.mem_singleton_self base)), normalize,
    root_eq_empty (startsWith_join_eq_false hdirs hrelative), hnames, List.foldl_append,
    List.dropLast_concat]
  simp [foldl_descend_of_forall_ne hbelow]

/-- A location is resolved to a place just if the walk from the directory of the file ends there. -/
theorem resolve_eq_iff_walk (hfile : IsPlace file) (htarget : IsPlace target)
    (hrelative : Text.startsWith location "/" = false) :
    resolve (Text.join "/" file) location = Text.join "/" target ↔
      walk file.dropLast (Text.split '/' location) = some target := by
  have hnames : ∀ n ∈ Path.namesOf location, Path.IsName n := fun n hn =>
    Path.isName_of_mem_ofString (s := location) hn
  have hdirs : ∀ n ∈ file.dropLast, Path.IsName n := fun n hn =>
    hfile.name n (List.dropLast_subset _ hn)
  have hend := isName_of_mem_foldl_descend (List.forall_mem_append.mpr ⟨hdirs, hnames⟩)
  rw [← walk_filter, ← Path.namesOf,
    walk_eq_some_iff hnames fun hmem => hfile.below (List.dropLast_subset _ hmem),
    resolve_eq hfile hrelative]
  dsimp only
  generalize (Path.namesOf location).foldl (descend false) file.dropLast = names at hend
  constructor
  · intro hresolve
    have hread : Path.namesOf (if Text.join "/" names = "" then "." else Text.join "/" names) =
        names := by
      have hjoin := Path.namesOf_join hend
      split
      · rename_i hempty
        rw [hempty] at hjoin
        exact hjoin
      · exact hjoin
    rw [hresolve, Path.namesOf_join htarget.name] at hread
    exact ⟨hread.symm, htarget.below⟩
  · rintro ⟨rfl, -⟩
    rw [if_neg (Path.join_ne_empty htarget.nonempty htarget.name)]

end Resolve

end Location

namespace Workspace

open Outline (ClassDeclaration Decorator)

theorem find?_insert {α : Type} (key : α → String) (a : α) (table : List α) (k : String) :
    (insert key a table).find? (fun b => key b = k) =
      if key a = k then some a else table.find? fun b => key b = k := by
  induction table with
  | nil => by_cases ha : key a = k <;> simp [insert, ha]
  | cons b rest ih =>
    rw [insert]
    by_cases hb : key b = key a
    · by_cases ha : key a = k <;> simp [hb, ha]
    · rw [if_neg hb, List.find?_cons, List.find?_cons, ih]
      by_cases ha : key a = k
      · have hk : key b ≠ k := fun h => hb (h.trans ha.symm)
        simp [ha, hk]
      · simp [ha]

/-- Every file that is entered with a name belongs to that name afterwards. -/
theorem lookup_foldl_insert (name : String) (files : List String) (table : List (String × String))
    (g : String) :
    (files.foldl (fun t file => insert (·.1) (file, name) t) table).lookup g =
      if g ∈ files then some name else table.lookup g := by
  induction files generalizing table with
  | nil => simp
  | cons file rest ih =>
    rw [List.foldl_cons, ih]
    by_cases hrest : g ∈ rest
    · simp [hrest]
    · rw [if_neg hrest, lookup_eq_find?, find?_insert, lookup_eq_find?]
      by_cases hfile : file = g
      · simp [hfile]
      · simp [hrest, hfile, Ne.symm hfile]

theorem addDecorated_of_component (file source : String) (c : ClassDeclaration) (p : Project)
    {d : Decorator} (hd : d.name = "Component") :
    p.addDecorated file source c d = p.addComponent source (componentOf file c d) := by
  simp [Project.addDecorated, hd]

section Recorded

variable (p : Project) (source file : String) (c : ClassDeclaration) {d : Decorator}

theorem component?_addComponent (component : Component) :
    (p.addComponent source component).component? component.name = some component := by
  rw [Project.component?, Project.addComponent, find?_insert, if_pos rfl]

theorem owner_of_mem_template {component : Component} {g : String}
    (h : component.template = some g) :
    (p.addComponent source component).templates.lookup g = some component.name := by
  rw [Project.addComponent, lookup_foldl_insert]
  simp [h]

theorem owner_of_mem_styles {component : Component} {g : String} (h : g ∈ component.styles) :
    (p.addComponent source component).styles.lookup g = some component.name := by
  rw [Project.addComponent, lookup_foldl_insert, if_pos h]

theorem template_of_textOption (hd : d.name = "Component") {location : String}
    (hsome : location ≠ "")
    (h : textOption (d.options.getD []) "templateUrl" = some location) :
    (componentOf file c d).template = some (Location.resolve file location) := by
  simp [componentOf, hd, h, hsome]

theorem styles_of_styleLocations (hd : d.name = "Component") :
    (componentOf file c d).styles =
      (styleLocations (d.options.getD [])).map (Location.resolve file) := by
  simp [componentOf, hd]

end Recorded

/-- A location leads to a place in the repository just if it is resolved to the text of the place.
Then a component whose template has that location is recorded with the place as its template, each
stylesheet with that location is recorded with the place, and the place belongs to the component. -/
theorem recorded_of_walk {file target : List String} (hfile : Location.IsPlace file)
    (htarget : Location.IsPlace target) {location : String} (hsome : location ≠ "")
    (hrelative : Text.startsWith location "/" = false) :
    (Location.resolve (Text.join "/" file) location = Text.join "/" target ↔
      Location.walk file.dropLast (Text.split '/' location) = some target) ∧
    (Location.walk file.dropLast (Text.split '/' location) = some target →
      ∀ (p : Project) (source : String) (c : ClassDeclaration) (d : Decorator),
        d.name = "Component" →
        let recorded := p.addDecorated (Text.join "/" file) source c d
        ∃ component, recorded.component? c.name = some component ∧
          (textOption (d.options.getD []) "templateUrl" = some location →
            component.template = some (Text.join "/" target) ∧
              recorded.templates.lookup (Text.join "/" target) = some c.name) ∧
          ∀ i : Nat, (styleLocations (d.options.getD []))[i]? = some location →
            component.styles[i]? = some (Text.join "/" target) ∧
              recorded.styles.lookup (Text.join "/" target) = some c.name) := by
  have hresolve := Location.resolve_eq_iff_walk hfile htarget hrelative
  refine ⟨hresolve, fun hwalk p source c d hd => ?_⟩
  have htext := hresolve.mpr hwalk
  dsimp only
  rw [addDecorated_of_component _ source c p hd]
  refine ⟨_, component?_addComponent p source _, ?_, ?_⟩
  · intro htemplate
    have hplace := template_of_textOption (Text.join "/" file) c hd hsome htemplate
    rw [htext] at hplace
    exact ⟨hplace, owner_of_mem_template p source hplace⟩
  · intro i hi
    have hplace : (componentOf (Text.join "/" file) c d).styles[i]? =
        some (Text.join "/" target) := by
      rw [styles_of_styleLocations _ c hd, List.getElem?_map, hi, Option.map_some, htext]
    exact ⟨hplace, owner_of_mem_styles p source (List.mem_of_getElem? hplace)⟩

/-- The template and the second stylesheet have a location with double slashes, a dot, a name that
is taken back and a slash at the end. -/
def detourDecorator : Decorator :=
  ⟨"Component", some [("templateUrl", some ⟨"'..//./../lib/x/../card.html/'", none, none⟩),
    ("styleUrls", some ⟨"[]", some ["'a.css'", "'..//./../lib/x/../card.html/'"], none⟩)]⟩

def detourClass : ClassDeclaration := ⟨"Card", 1, [detourDecorator]⟩

/-- One step up less leads to another place, and one step more out of the repository. -/
theorem recorded_of_walk_detour :
    Location.IsPlace ["src", "app", "card.ts"] ∧ Location.IsPlace ["lib", "card.html"] ∧
      Location.walk ["src", "app"] (Text.split '/' "..//./../lib/x/../card.html/") =
        some ["lib", "card.html"] ∧
      Location.resolve "src/app/card.ts" "..//./../lib/x/../card.html/" = "lib/card.html" ∧
      Location.resolve "src/app/card.ts" "../lib/card.html" ≠ "lib/card.html" ∧
      Location.resolve "src/app/card.ts" "../../../lib/card.html" ≠ "lib/card.html" ∧
      let p := Project.empty.addDecorated "src/app/card.ts" "" detourClass detourDecorator
      ∃ component, p.component? "Card" = some component ∧
        component.template = some "lib/card.html" ∧
        component.styles[1]? = some "lib/card.html" ∧
        p.templates.lookup "lib/card.html" = some "Card" ∧
        p.styles.lookup "lib/card.html" = some "Card" := by
  have hfile : Location.IsPlace ["src", "app", "card.ts"] := by decide +kernel
  have htarget : Location.IsPlace ["lib", "card.html"] := by decide +kernel
  have hwalk : Location.walk ["src", "app"] (Text.split '/' "..//./../lib/x/../card.html/") =
      some ["lib", "card.html"] := by decide +kernel
  obtain ⟨hresolve, hrecorded⟩ := @recorded_of_walk _ _ hfile htarget
    "..//./../lib/x/../card.html/" (by decide) (by decide)
  have hshort := (@recorded_of_walk _ _ hfile htarget "../lib/card.html" (by decide)
    (by decide)).1
  have hout := (@recorded_of_walk _ _ hfile htarget "../../../lib/card.html" (by decide)
    (by decide)).1
  obtain ⟨component, hfound, htemplate, hstyles⟩ :=
    hrecorded hwalk Project.empty "" detourClass detourDecorator rfl
  obtain ⟨htemplate, htemplates⟩ := htemplate (by decide +kernel)
  obtain ⟨hstyle, hstyles⟩ := hstyles 1 (by decide +kernel)
  exact ⟨hfile, htarget, hwalk, hresolve.mpr hwalk, hshort.not.mpr (by decide +kernel),
    hout.not.mpr (by decide +kernel), component, hfound, htemplate, hstyle, htemplates, hstyles⟩

end Workspace

end Ripple
