import Ripple.Proofs.Instants
import Ripple.Proofs.Lines

/-! # The lines of the Markdown report

The report is put together from texts of the result, counts, an instant and words of its own. If no
text that is shown has a line feed in it, then no line of the report has.
-/
namespace Ripple

def Impact.texts (i : Impact) : List String :=
  i.component :: i.file :: i.reasons.map (·.description) ++ i.testHints.getD []

def RepoResult.texts (r : RepoResult) : List String :=
  r.name :: r.errors ++ r.impacts.flatMap Impact.texts

def Record.texts (r : Record) : List String :=
  r.sourceRepo :: r.sourceComponent :: r.targetRepo :: r.targets

def Result.texts (r : Result) : List String :=
  r.about.baseRef :: r.about.headRef :: r.summary.repos.map (·.name) ++
    r.repos.flatMap RepoResult.texts ++ r.crossImpacts.flatMap Record.texts

section texts

variable {P : String → Prop}

theorem Impact.forall_mem_texts {i : Impact} : (∀ s ∈ i.texts, P s) ↔
    P i.component ∧ P i.file ∧ (∀ r ∈ i.reasons, P r.description) ∧
      ∀ s ∈ i.testHints.getD [], P s := by
  simp only [texts, List.cons_append, List.forall_mem_cons, List.forall_mem_append,
    List.forall_mem_map]

theorem RepoResult.forall_mem_texts {r : RepoResult} : (∀ s ∈ r.texts, P s) ↔
    P r.name ∧ (∀ s ∈ r.errors, P s) ∧ ∀ i ∈ r.impacts, ∀ s ∈ i.texts, P s := by
  simp only [texts, List.cons_append, List.forall_mem_cons, List.forall_mem_append,
    List.forall_mem_flatMap]

theorem Record.forall_mem_texts {r : Record} : (∀ s ∈ r.texts, P s) ↔
    P r.sourceRepo ∧ P r.sourceComponent ∧ P r.targetRepo ∧ ∀ s ∈ r.targets, P s := by
  simp only [texts, List.forall_mem_cons]

theorem Result.forall_mem_texts {r : Result} : (∀ s ∈ r.texts, P s) ↔
    P r.about.baseRef ∧ P r.about.headRef ∧ (∀ repo ∈ r.summary.repos, P repo.name) ∧
      (∀ repo ∈ r.repos, ∀ s ∈ repo.texts, P s) ∧
      ∀ cross ∈ r.crossImpacts, ∀ s ∈ cross.texts, P s := by
  simp only [texts, List.cons_append, List.forall_mem_cons, List.forall_mem_append,
    List.forall_mem_map, List.forall_mem_flatMap, and_assoc]

end texts

namespace Report.Markdown

open Text

theorem oneLine_of_digits {s : String} (h : ∀ c ∈ s.toList, c.isDigit = true) : OneLine s :=
  fun hmem => absurd (h _ hmem) (by decide)

theorem oneLine_zeroPadded (width n : Nat) : OneLine (zeroPadded width n) :=
  oneLine_of_digits fun _ hc => Checker.isDigit_of_mem_zeroPadded hc

theorem oneLine_toString (i : Int) : OneLine (toString i) := by
  rw [OneLine, Json.toList_toString_int, List.mem_append, not_or]
  refine ⟨by split <;> decide, fun h => ?_⟩
  exact absurd (Json.isDigit_of_mem_toDigits h) (by decide)

theorem oneLine_longText (t : Timestamp) : OneLine t.longText := by
  have hconst : OneLine "" ∧ OneLine "-" ∧ OneLine "+" ∧ OneLine ":" ∧ OneLine "T" ∧
      OneLine "." := by decide
  obtain ⟨hempty, hminus, hplus, hcolon, ht, hpoint⟩ := hconst
  have hmicro : OneLine (if t.micro = 0 then "" else "." ++ zeroPadded 6 t.micro) := by
    split
    · exact hempty
    · exact oneLine_append.mpr ⟨hpoint, oneLine_zeroPadded _ _⟩
  have hclock : OneLine t.clockText := by
    simp only [Timestamp.clockText, oneLine_append, oneLine_zeroPadded, hminus, hcolon, ht, hmicro,
      and_self]
  have hminutes : ∀ offset, OneLine (Timestamp.offsetText offset) := by
    intro offset
    have hsign : OneLine (if offset < 0 then "-" else "+") := by
      split
      · exact hminus
      · exact hplus
    simp only [Timestamp.offsetText, oneLine_append, oneLine_zeroPadded, hsign, hcolon, and_self]
  rw [Timestamp.longText, oneLine_append]
  refine ⟨hclock, ?_⟩
  split
  · exact hempty
  · refine oneLine_append.mpr ⟨hminutes _, ?_⟩
    split
    · exact hempty
    · exact oneLine_append.mpr ⟨hcolon, oneLine_zeroPadded _ _⟩

theorem oneLine_heading {s : String} (level : Nat) (h : OneLine s) : OneLine (heading level s) := by
  have hmarks : OneLine (String.ofList (List.replicate level '#')) := by
    rw [OneLine, String.toList_ofList]
    exact fun hmem => absurd (List.eq_of_mem_replicate hmem) (by decide)
  have hspace : OneLine " " := by decide
  simp only [heading, oneLine_append, hmarks, hspace, h, and_self]

theorem oneLine_inCode {s : String} (h : OneLine s) : OneLine (inCode s) := by
  have hquote : OneLine "\x60" := by decide
  simp only [inCode, oneLine_append, hquote, h, and_self]

theorem oneLine_row {cells : List String} (h : ∀ s ∈ cells, OneLine s) : OneLine (row cells) := by
  have hconst : OneLine "| " ∧ OneLine " | " ∧ OneLine " |" := by decide
  obtain ⟨hstart, hbetween, hstop⟩ := hconst
  simp only [row, oneLine_append, hstart, oneLine_join hbetween h, hstop, and_self]

theorem oneLine_listItem {title : String} (htitle : OneLine title) {items : List String}
    (h : ∀ s ∈ items, OneLine s) : ∀ line ∈ listItem title items, OneLine line := by
  have hconst : OneLine "- **" ∧ OneLine ":**" ∧ OneLine "  - " := by decide
  obtain ⟨hstart, hstop, hmark⟩ := hconst
  rw [listItem]
  split
  · exact List.forall_mem_nil _
  · refine List.forall_mem_cons.mpr ⟨?_, List.forall_mem_map.mpr fun s hs => ?_⟩
    · simp only [oneLine_append, hstart, htitle, hstop, and_self]
    · exact oneLine_append.mpr ⟨hmark, h s hs⟩

theorem oneLine_opening {r : Result} (hbase : OneLine r.about.baseRef)
    (hhead : OneLine r.about.headRef) (hnames : ∀ repo ∈ r.summary.repos, OneLine repo.name) :
    ∀ line ∈ opening r, OneLine line := by
  have hyesNo : ∀ b, OneLine (yesNo b) := by decide
  have hrow : ∀ repo ∈ r.summary.repos,
      OneLine (row [repo.name, toString repo.changedFiles, toString repo.impactCount]) :=
    fun repo hrepo => oneLine_row (List.forall_mem_cons.mpr ⟨hnames repo hrepo,
      List.forall_mem_cons.mpr ⟨oneLine_toString _,
        List.forall_mem_singleton.mpr (oneLine_toString _)⟩⟩)
  have htotal : ∀ title count, OneLine title → OneLine count → OneLine (row [title, count]) :=
    fun title count htitle hcount => oneLine_row (by simp [htitle, hcount])
  rw [opening, List.forall_mem_append, List.forall_mem_append, List.forall_mem_map]
  refine ⟨⟨?_, hrow⟩, by decide⟩
  simp only [List.forall_mem_cons]
  refine ⟨by decide, by decide, ?generated, ?base, ?head, by decide, by decide, by decide,
    by decide, by decide, ?files, ?components, ?breaking, by decide, by decide, by decide,
    by decide, by decide, List.forall_mem_nil _⟩
  case generated => exact oneLine_append.mpr ⟨by decide, oneLine_longText _⟩
  case base => exact oneLine_append.mpr ⟨by decide, oneLine_inCode hbase⟩
  case head => exact oneLine_append.mpr ⟨by decide, oneLine_inCode hhead⟩
  case files => exact htotal _ _ (by decide) (oneLine_toString _)
  case components => exact htotal _ _ (by decide) (oneLine_toString _)
  case breaking => exact htotal _ _ (by decide) (hyesNo _)

theorem oneLine_impactLines {i : Impact} (h : ∀ s ∈ i.texts, OneLine s) :
    ∀ line ∈ impactLines i, OneLine line := by
  obtain ⟨hcomponent, hfile, hreasons, hhints⟩ := Impact.forall_mem_texts.mp h
  have hkind : ∀ k : ReasonKind, OneLine k.text := by
    intro k
    cases k <;> decide
  have hconst : OneLine "[" ∧ OneLine "] " := by decide
  have hreason : ∀ r ∈ i.reasons, OneLine ("[" ++ r.kind.text ++ "] " ++ r.description) := by
    intro r hr
    simp only [oneLine_append, hconst, hkind, hreasons r hr, and_self]
  simp only [impactLines, List.forall_mem_append, List.forall_mem_cons]
  refine ⟨⟨⟨⟨oneLine_heading 4 hcomponent, by decide, ?_, List.forall_mem_nil _⟩,
    oneLine_listItem (by decide) (List.forall_mem_map.mpr hreason)⟩,
    oneLine_listItem (by decide) hhints⟩, by decide, List.forall_mem_nil _⟩
  exact oneLine_append.mpr ⟨by decide, oneLine_inCode hfile⟩

theorem oneLine_repoLines {repo : RepoResult} (h : ∀ s ∈ repo.texts, OneLine s) :
    ∀ line ∈ repoLines repo, OneLine line := by
  obtain ⟨hname, herrors, himpacts⟩ := RepoResult.forall_mem_texts.mp h
  rw [repoLines, errorLines, List.forall_mem_append]
  constructor
  · split
    · exact List.forall_mem_nil _
    · simp only [List.forall_mem_append, List.forall_mem_cons, List.forall_mem_map]
      refine ⟨⟨⟨oneLine_heading 3 (oneLine_append.mpr ⟨hname, by decide⟩), by decide,
        List.forall_mem_nil _⟩, fun s hs => ?_⟩, by decide, List.forall_mem_nil _⟩
      exact oneLine_append.mpr ⟨by decide, herrors s hs⟩
  · split
    · exact List.forall_mem_nil _
    · simp only [List.forall_mem_append, List.forall_mem_cons, List.forall_mem_flatMap]
      exact ⟨⟨oneLine_heading 3 hname, by decide, List.forall_mem_nil _⟩,
        fun i hi => oneLine_impactLines (himpacts i hi)⟩

theorem oneLine_crossLines {r : Record} (h : ∀ s ∈ r.texts, OneLine s) :
    ∀ line ∈ crossLines r, OneLine line := by
  obtain ⟨hsource, hcomponent, htarget, htargets⟩ := Record.forall_mem_texts.mp h
  have hkind : OneLine r.relation.text := by cases r.relation <;> decide
  have hitem : ∀ s ∈ r.targets, OneLine (subItem s) := fun s hs =>
    oneLine_append.mpr ⟨by decide, htargets s hs⟩
  simp only [crossLines, List.forall_mem_append, List.forall_mem_cons, List.forall_mem_map]
  refine ⟨⟨⟨oneLine_heading 3 ?_, by decide, ?_, ?_, by decide, List.forall_mem_nil _⟩, hitem⟩,
    by decide, List.forall_mem_nil _⟩
  · simp only [oneLine_append, hsource, htarget, and_true, true_and]
    decide
  · exact oneLine_append.mpr ⟨by decide, hkind⟩
  · exact oneLine_append.mpr ⟨by decide, hcomponent⟩

theorem oneLine_lines {r : Result} (h : ∀ s ∈ r.texts, OneLine s) :
    ∀ line ∈ lines r, OneLine line := by
  obtain ⟨hbase, hhead, hnames, hrepos, hcross⟩ := Result.forall_mem_texts.mp h
  rw [lines, List.forall_mem_append, List.forall_mem_append, List.forall_mem_flatMap]
  refine ⟨⟨oneLine_opening hbase hhead hnames,
    fun repo hrepo => oneLine_repoLines (hrepos repo hrepo)⟩, ?_⟩
  split
  · exact List.forall_mem_nil _
  · rw [List.forall_mem_append, List.forall_mem_flatMap]
    exact ⟨by decide, fun cross hr => oneLine_crossLines (hcross cross hr)⟩

end Report.Markdown

end Ripple
