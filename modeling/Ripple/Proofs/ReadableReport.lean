import Ripple.Proofs.ReportTexts

/-! # Reading the Markdown report

The report shows of each repository its errors and impacts, of each impact its component, file,
reasons and hints, and the records across repositories with all that is in them. If no text that is
shown has a line feed in it, no source of a record has an arrow in its name, and no two repositories
have the same name, then all of this can be read off the report again.
-/
namespace Ripple

/-- What the report shows of an impact. -/
@[ext]
structure ShownImpact where
  component : String
  file : String
  reasons : List (ReasonKind × String)
  hints : List String
  deriving DecidableEq, Repr

def Impact.shown (i : Impact) : ShownImpact where
  component := i.component
  file := i.file
  reasons := i.reasons.map fun r => (r.kind, r.description)
  hints := i.testHints.getD []

/-- What the report shows of a repository that is in it. -/
structure ShownRepo where
  name : String
  errors : List String
  impacts : List ShownImpact
  deriving DecidableEq, Repr

/-- Repositories without errors and impacts have no place in the report. -/
def RepoResult.isShown (r : RepoResult) : Bool := !r.errors.isEmpty || !r.impacts.isEmpty

def RepoResult.shown (r : RepoResult) : ShownRepo := ⟨r.name, r.errors, r.impacts.map Impact.shown⟩

def Result.shownRepos (r : Result) : List ShownRepo :=
  (r.repos.filter RepoResult.isShown).map RepoResult.shown

/-- A result whose report can be read: every text on one line, no repository twice, and no arrow in
the names between which arrows are put. -/
structure Result.Readable (r : Result) : Prop where
  oneLine : ∀ s ∈ r.texts, Text.OneLine s
  distinct : (r.repos.map (·.name)).Nodup
  arrowless : ∀ cross ∈ r.crossImpacts, Text.has cross.sourceRepo "->" = false

namespace Report.Markdown

open Text

theorem heading_three (s : String) : heading 3 s = "### " ++ s := rfl

theorem heading_four (s : String) : heading 4 s = "#### " ++ s := rfl

variable {rest rest' : List String}

theorem avoids_listItem {mark title : String} (items : List String)
    (hmark : startsWith ("- **" ++ title ++ ":**") mark = false) (h : Avoids mark rest) :
    Avoids mark (listItem title items ++ rest) := by
  rw [listItem]
  split
  · exact h
  · exact avoids_cons hmark _

theorem listItem_append_inj {title : String} (h : Avoids "  - " rest) (h' : Avoids "  - " rest')
    (htitle : Avoids ("- **" ++ title ++ ":**") rest)
    (htitle' : Avoids ("- **" ++ title ++ ":**") rest') {items items' : List String}
    (heq : listItem title items ++ rest = listItem title items' ++ rest') :
    items = items' ∧ rest = rest' := by
  have hclash : ∀ {rest others : List String}, Avoids ("- **" ++ title ++ ":**") rest →
      rest ≠ ("- **" ++ title ++ ":**") :: others := by
    rintro _ others havoids rfl
    exact Bool.false_ne_true ((havoids _ rfl).symm.trans (startsWith_self _))
  cases items with
  | nil =>
    cases items' with
    | nil => exact ⟨rfl, heq⟩
    | cons b bs => exact absurd heq (hclash htitle)
  | cons a as =>
    cases items' with
    | nil => exact absurd heq.symm (hclash htitle')
    | cons b bs => exact map_append_inj h h' (List.cons.inj heq).2

theorem inCode_inj {s t : String} (h : inCode s = inCode t) : s = t :=
  (String.append_right_inj _).mp ((String.append_left_inj _).mp h)

def reasonLine (reason : ReasonKind × String) : String :=
  "[" ++ reason.1.text ++ "] " ++ reason.2

theorem reasonKind_text_inj {k l : ReasonKind} (h : k.text = l.text) : k = l := by
  cases k <;> cases l <;> first | rfl | exact absurd h (by decide)

theorem relationKind_text_inj {k l : RelationKind} (h : k.text = l.text) : k = l := by
  cases k <;> cases l <;> first | rfl | exact absurd h (by decide)

/-- The kind of a reason ends at the first bracket. -/
theorem reasonLine_injective : Function.Injective reasonLine := by
  rintro ⟨k, s⟩ ⟨l, t⟩ h
  have hfree : ∀ k : ReasonKind, ']' ∉ k.text.toList := by
    intro k
    cases k <;> decide
  have hchars : k.text.toList ++ ']' :: (' ' :: s.toList) =
      l.text.toList ++ ']' :: (' ' :: t.toList) := by
    have h := congrArg String.toList h
    simpa [reasonLine] using h
  obtain ⟨hkind, hdescription⟩ :=
    append_separator_inj (hfree k) (hfree l) hchars
  rw [reasonKind_text_inj (String.toList_injective hkind),
    String.toList_injective (List.cons.inj hdescription).2]

theorem impactLines_append (i : Impact) (rest : List String) : impactLines i ++ rest =
    ("#### " ++ i.component) :: "" :: ("- **File:** " ++ inCode i.file) ::
      (listItem "Reasons" (i.shown.reasons.map reasonLine) ++
        (listItem "Test hints" i.shown.hints ++ "" :: rest)) := by
  rw [Impact.shown, List.map_map]
  simp only [impactLines, heading_four, List.append_assoc, List.cons_append, List.nil_append]
  rfl

theorem impactLines_append_inj (i j : Impact) (rest rest' : List String)
    (h : impactLines i ++ rest = impactLines j ++ rest') : i.shown = j.shown ∧ rest = rest' := by
  have hend : ∀ {mark : String} (rest : List String), startsWith "" mark = false →
      Avoids mark ("" :: rest) := fun rest hmark => avoids_cons hmark rest
  have hhints : ∀ {mark : String} (items rest : List String), startsWith "" mark = false →
      startsWith "- **Test hints:**" mark = false →
        Avoids mark (listItem "Test hints" items ++ "" :: rest) :=
    fun items rest hempty hmark => avoids_listItem items hmark (hend rest hempty)
  rw [impactLines_append, impactLines_append] at h
  simp only [List.cons.injEq, true_and] at h
  obtain ⟨hcomponent, hfile, hlists⟩ := h
  obtain ⟨hreasons, hlists⟩ := listItem_append_inj (hhints _ _ (by decide) (by decide))
    (hhints _ _ (by decide) (by decide)) (hhints _ _ (by decide) (by decide))
    (hhints _ _ (by decide) (by decide)) hlists
  obtain ⟨hhints, hrest⟩ := listItem_append_inj (hend _ (by decide)) (hend _ (by decide))
    (hend _ (by decide)) (hend _ (by decide)) hlists
  refine ⟨ShownImpact.ext ?_ ?_ ?_ hhints, (List.cons.inj hrest).2⟩
  · exact (String.append_right_inj _).mp hcomponent
  · exact inCode_inj ((String.append_right_inj _).mp hfile)
  · exact List.map_injective_iff.mpr reasonLine_injective hreasons

theorem impacts_append_inj (h : Avoids "#### " rest) (h' : Avoids "#### " rest')
    {impacts impacts' : List Impact}
    (heq : impacts.flatMap impactLines ++ rest = impacts'.flatMap impactLines ++ rest') :
    impacts.map Impact.shown = impacts'.map Impact.shown ∧ rest = rest' :=
  flatMap_append_inj (fun i _ j _ => impactLines_append_inj i j)
    (fun i => ⟨_, rfl, startsWith_append "#### " i.component⟩) h h' heq

/-- Where the first of two arrows starts, no other can start before it has ended. -/
theorem eq_nil_of_arrow {as v v' : List Char} (h : ¬ ['-', '>'] <:+: as)
    (heq : ' ' :: '-' :: '>' :: ' ' :: v = as ++ ' ' :: '-' :: '>' :: ' ' :: v') : as = [] := by
  match as, h, heq with
  | [], _, _ => rfl
  | [_], _, heq | [_, _], _, heq => simp at heq
  | a :: b :: c :: others, h, heq =>
    simp only [List.cons_append, List.cons.injEq] at heq
    obtain ⟨-, rfl, rfl, -⟩ := heq
    exact absurd ⟨[a], others, rfl⟩ h

/-- Names without an arrow end where the first arrow starts. -/
theorem arrow_inj {s s' t t' : String} (h : has s "->" = false) (h' : has s' "->" = false)
    (heq : s ++ " -> " ++ t = s' ++ " -> " ++ t') : s = s' ∧ t = t' := by
  have hchars : s.toList ++ ' ' :: '-' :: '>' :: ' ' :: t.toList =
      s'.toList ++ ' ' :: '-' :: '>' :: ' ' :: t'.toList := by
    have hlist := congrArg String.toList heq
    simpa using hlist
  rw [Bool.eq_false_iff, Ne, has_iff] at h h'
  have hsame : s.toList = s'.toList := by
    rcases List.append_eq_append_iff.mp hchars with ⟨as, hs, hrest⟩ | ⟨as, hs, hrest⟩
    · have hnil := eq_nil_of_arrow (fun hin => h' (hs ▸ List.infix_append_of_infix_right hin)) hrest
      rw [hs, hnil, List.append_nil]
    · have hnil := eq_nil_of_arrow (fun hin => h (hs ▸ List.infix_append_of_infix_right hin)) hrest
      rw [hs, hnil, List.append_nil]
  rw [hsame] at hchars
  have ht := List.append_cancel_left hchars
  simp only [List.cons.injEq, true_and] at ht
  exact ⟨String.toList_injective hsame, String.toList_injective ht⟩

theorem crossLines_append (r : Record) (rest : List String) : crossLines r ++ rest =
    ("### " ++ (r.sourceRepo ++ " -> " ++ r.targetRepo)) :: "" ::
      ("- **Relation:** " ++ r.relation.text) :: ("- **Source:** " ++ r.sourceComponent) ::
        "- **Potentially affected components:**" ::
          (r.targets.map ("  - " ++ ·) ++ "" :: rest) := by
  simp only [crossLines, heading_three, List.append_assoc, List.cons_append, List.nil_append]
  rfl

theorem crossLines_append_inj {r r' : Record} (h : has r.sourceRepo "->" = false)
    (h' : has r'.sourceRepo "->" = false) (heq : crossLines r ++ rest = crossLines r' ++ rest') :
    r = r' ∧ rest = rest' := by
  rw [crossLines_append, crossLines_append] at heq
  simp only [List.cons.injEq, true_and] at heq
  obtain ⟨hrepos, hrelation, hsource, htargets⟩ := heq
  obtain ⟨hsourceRepo, htargetRepo⟩ := arrow_inj h h' ((String.append_right_inj _).mp hrepos)
  obtain ⟨htargets, hrest⟩ := map_append_inj (avoids_cons (by decide) _)
    (avoids_cons (by decide) _) htargets
  refine ⟨?_, (List.cons.inj hrest).2⟩
  cases r
  cases r'
  simp only [Record.mk.injEq]
  exact ⟨hsourceRepo, (String.append_right_inj _).mp hsource, htargetRepo, htargets,
    relationKind_text_inj ((String.append_right_inj _).mp hrelation)⟩

/-- The part of a repository with its impacts. -/
def impactSection (repo : RepoResult) : List String :=
  if repo.impacts.isEmpty then []
  else [heading 3 repo.name, ""] ++ repo.impacts.flatMap impactLines

theorem repoLines_append (repo : RepoResult) (rest : List String) :
    repoLines repo ++ rest = errorLines repo ++ (impactSection repo ++ rest) :=
  List.append_assoc ..

variable {repo repo' : RepoResult}

theorem errorLines_append (h : repo.errors ≠ []) (rest : List String) : errorLines repo ++ rest =
    ("### " ++ (repo.name ++ " (errors)")) :: "" ::
      (repo.errors.map ("- " ++ ·) ++ "" :: rest) := by
  rw [errorLines, if_neg (by simpa using h), heading_three]
  simp

theorem impactSection_append (h : repo.impacts ≠ []) (rest : List String) :
    impactSection repo ++ rest =
      ("### " ++ repo.name) :: "" :: (repo.impacts.flatMap impactLines ++ rest) := by
  rw [impactSection, if_neg (by simpa using h), heading_three]
  simp

theorem errorLines_of_eq_nil (h : repo.errors = []) : errorLines repo = [] := by
  rw [errorLines, h]
  rfl

theorem impactSection_of_eq_nil (h : repo.impacts = []) : impactSection repo = [] := by
  rw [impactSection, h]
  rfl

/-- An item follows on the heading of errors, and a heading on that of impacts. -/
theorem errorLines_ne_impactSection (h : repo.errors ≠ []) (h' : repo'.impacts ≠ [])
    (rest rest' : List String) : errorLines repo ++ rest ≠ impactSection repo' ++ rest' := by
  intro heq
  rw [errorLines_append h, impactSection_append h'] at heq
  obtain ⟨error, errors, herrors⟩ := List.exists_cons_of_ne_nil h
  obtain ⟨impact, impacts, himpacts⟩ := List.exists_cons_of_ne_nil h'
  rw [herrors, himpacts, List.map_cons, List.flatMap_cons, List.append_assoc,
    impactLines_append] at heq
  have hline : "- " ++ error = "#### " ++ impact.component :=
    (List.cons.inj (List.cons.inj (List.cons.inj heq).2).2).1
  have hmark : startsWith ("- " ++ error) "#### " = false :=
    startsWith_append_eq_false (by decide) (by decide) error
  rw [hline, startsWith_append] at hmark
  cases hmark

theorem name_of_impactSection (h : repo.impacts ≠ []) (h' : repo'.impacts ≠ [])
    (heq : impactSection repo ++ rest = impactSection repo' ++ rest') : repo.name = repo'.name := by
  rw [impactSection_append h, impactSection_append h'] at heq
  exact (String.append_right_inj _).mp (List.cons.inj heq).1

theorem impactSection_append_inj (h : repo.impacts ≠ []) (h' : repo'.impacts ≠ [])
    (hrest : Avoids "#### " rest) (hrest' : Avoids "#### " rest')
    (heq : impactSection repo ++ rest = impactSection repo' ++ rest') :
    repo.impacts.map Impact.shown = repo'.impacts.map Impact.shown ∧ rest = rest' := by
  rw [impactSection_append h, impactSection_append h'] at heq
  exact impacts_append_inj hrest hrest' (List.cons.inj (List.cons.inj heq).2).2

theorem isShown_iff : repo.isShown = true ↔ repo.errors ≠ [] ∨ repo.impacts ≠ [] := by
  simp [RepoResult.isShown]

/-- The errors of two repositories whose parts start alike. -/
theorem errorLines_append_inj (hshown : repo.isShown = true) (hshown' : repo'.isShown = true)
    (heq : errorLines repo ++ (impactSection repo ++ rest) =
      errorLines repo' ++ (impactSection repo' ++ rest')) :
    repo.errors = repo'.errors ∧ (repo.errors ≠ [] → repo.name = repo'.name) ∧
      impactSection repo ++ rest = impactSection repo' ++ rest' := by
  rw [isShown_iff] at hshown hshown'
  by_cases h : repo.errors = []
  · by_cases h' : repo'.errors = []
    · rw [errorLines_of_eq_nil h, errorLines_of_eq_nil h'] at heq
      exact ⟨h.trans h'.symm, fun hne => absurd h hne, heq⟩
    · rw [errorLines_of_eq_nil h] at heq
      have himpacts := hshown.resolve_left (not_not_intro h)
      exact absurd heq.symm (errorLines_ne_impactSection h' himpacts _ _)
  · by_cases h' : repo'.errors = []
    · rw [errorLines_of_eq_nil h'] at heq
      have himpacts := hshown'.resolve_left (not_not_intro h')
      exact absurd heq (errorLines_ne_impactSection h himpacts _ _)
    · rw [errorLines_append h, errorLines_append h'] at heq
      simp only [List.cons.injEq, true_and] at heq
      obtain ⟨herrors, hrest⟩ := map_append_inj (avoids_cons (by decide) _)
        (avoids_cons (by decide) _) heq.2
      refine ⟨herrors, fun _ => ?_, (List.cons.inj hrest).2⟩
      exact (String.append_left_inj _).mp ((String.append_right_inj _).mp heq.1)

theorem exists_heading (h : repo.isShown = true) :
    ∃ name others, repoLines repo = ("### " ++ name) :: others := by
  rw [← List.append_nil (repoLines repo), repoLines_append]
  by_cases herrors : repo.errors = []
  · have himpacts := (isShown_iff.mp h).resolve_left (not_not_intro herrors)
    rw [errorLines_of_eq_nil herrors, List.nil_append, impactSection_append himpacts]
    exact ⟨_, _, rfl⟩
  · rw [errorLines_append herrors]
    exact ⟨_, _, rfl⟩

variable {repos repos' : List RepoResult}

theorem avoids_repos (hshown : ∀ r ∈ repos, r.isShown = true) (hrest : Avoids "#### " rest) :
    Avoids "#### " (repos.flatMap repoLines ++ rest) := by
  cases repos with
  | nil => exact hrest
  | cons r others =>
    obtain ⟨name, lines, hlines⟩ := exists_heading (hshown r List.mem_cons_self)
    rw [List.flatMap_cons, hlines]
    exact avoids_cons (startsWith_append_eq_false (by decide) (by decide) name) _

/-- Where the impacts of a repository come next, one of the next repositories has its name. -/
theorem name_mem_of_impactSection (hshown : ∀ r ∈ repos, r.isShown = true)
    (hrest : Avoids "### " rest) (h : repo.impacts ≠ [])
    (heq : repos.flatMap repoLines ++ rest = impactSection repo ++ rest') :
    repo.name ∈ repos.map (·.name) := by
  cases repos with
  | nil =>
    rw [List.flatMap_nil, List.nil_append, impactSection_append h] at heq
    rw [heq] at hrest
    exact absurd ((hrest _ rfl).symm.trans (startsWith_append _ _)) Bool.false_ne_true
  | cons r others =>
    rw [List.flatMap_cons, List.append_assoc, repoLines_append] at heq
    by_cases herrors : r.errors = []
    · have himpacts :=
        (isShown_iff.mp (hshown r List.mem_cons_self)).resolve_left (not_not_intro herrors)
      rw [errorLines_of_eq_nil herrors, List.nil_append] at heq
      rw [← name_of_impactSection himpacts h heq]
      exact List.mem_cons_self
    · exact absurd heq (errorLines_ne_impactSection herrors h _ _)

/-- Nothing like a part of a repository comes first. -/
def EndsRepos (rest : List String) : Prop := Avoids "### " rest ∧ Avoids "#### " rest

theorem ne_repoLines (hrest : EndsRepos rest) (h : repo.isShown = true) (others : List String) :
    rest ≠ repoLines repo ++ others := by
  obtain ⟨name, lines, hlines⟩ := exists_heading h
  rintro rfl
  rw [hlines] at hrest
  exact Bool.false_ne_true ((hrest.1 _ rfl).symm.trans (startsWith_append _ _))

/-- Two repositories whose parts start alike are shown alike, unless a name comes twice. -/
theorem shown_of_repoLines (hshown : ∀ r ∈ repo :: repos, r.isShown = true)
    (hshown' : ∀ r ∈ repo' :: repos', r.isShown = true)
    (hnames : repo.name ∉ repos.map (·.name)) (hnames' : repo'.name ∉ repos'.map (·.name))
    (hrest : EndsRepos rest) (hrest' : EndsRepos rest')
    (heq : repoLines repo ++ (repos.flatMap repoLines ++ rest) =
      repoLines repo' ++ (repos'.flatMap repoLines ++ rest')) :
    repo.shown = repo'.shown ∧
      repos.flatMap repoLines ++ rest = repos'.flatMap repoLines ++ rest' := by
  obtain ⟨hfirst, hothers⟩ := List.forall_mem_cons.mp hshown
  obtain ⟨hfirst', hothers'⟩ := List.forall_mem_cons.mp hshown'
  rw [repoLines_append, repoLines_append] at heq
  obtain ⟨herrors, hname, hsections⟩ := errorLines_append_inj hfirst hfirst' heq
  rw [RepoResult.shown, RepoResult.shown, ShownRepo.mk.injEq]
  -- of a repository with impacts and one without, both have errors, so they have one name
  by_cases h : repo.impacts = []
  · by_cases h' : repo'.impacts = []
    · rw [impactSection_of_eq_nil h, impactSection_of_eq_nil h'] at hsections
      have hsome := (isShown_iff.mp hfirst).resolve_right (not_not_intro h)
      exact ⟨⟨hname hsome, herrors, by rw [h, h']⟩, hsections⟩
    · have hsome := (isShown_iff.mp hfirst).resolve_right (not_not_intro h)
      rw [impactSection_of_eq_nil h] at hsections
      refine absurd (name_mem_of_impactSection hothers hrest.1 h' hsections) ?_
      rwa [← hname hsome]
  · by_cases h' : repo'.impacts = []
    · have hsome : repo.errors ≠ [] :=
        herrors ▸ (isShown_iff.mp hfirst').resolve_right (not_not_intro h')
      rw [impactSection_of_eq_nil h'] at hsections
      refine absurd (name_mem_of_impactSection hothers' hrest'.1 h hsections.symm) ?_
      rwa [hname hsome]
    · obtain ⟨himpacts, htail⟩ := impactSection_append_inj h h' (avoids_repos hothers hrest.2)
        (avoids_repos hothers' hrest'.2) hsections
      exact ⟨⟨name_of_impactSection h h' hsections, herrors, himpacts⟩, htail⟩

theorem shown_append_inj (hshown : ∀ r ∈ repos, r.isShown = true)
    (hshown' : ∀ r ∈ repos', r.isShown = true) (hnames : (repos.map (·.name)).Nodup)
    (hnames' : (repos'.map (·.name)).Nodup) (hrest : EndsRepos rest) (hrest' : EndsRepos rest')
    (heq : repos.flatMap repoLines ++ rest = repos'.flatMap repoLines ++ rest') :
    repos.map RepoResult.shown = repos'.map RepoResult.shown ∧ rest = rest' := by
  induction repos generalizing repos' with
  | nil =>
    cases repos' with
    | nil => exact ⟨rfl, heq⟩
    | cons r' others' =>
      rw [List.flatMap_cons, List.append_assoc] at heq
      exact absurd heq (ne_repoLines hrest (hshown' r' List.mem_cons_self) _)
  | cons r others ih =>
    cases repos' with
    | nil =>
      rw [List.flatMap_cons, List.append_assoc] at heq
      exact absurd heq.symm (ne_repoLines hrest' (hshown r List.mem_cons_self) _)
    | cons r' others' =>
      rw [List.map_cons, List.nodup_cons] at hnames hnames'
      rw [List.flatMap_cons, List.flatMap_cons, List.append_assoc, List.append_assoc] at heq
      obtain ⟨hfirst, htail⟩ :=
        shown_of_repoLines hshown hshown' hnames.1 hnames'.1 hrest hrest' heq
      obtain ⟨hall, hends⟩ := ih (List.forall_mem_cons.mp hshown).2
        (List.forall_mem_cons.mp hshown').2 hnames.2 hnames'.2 htail
      exact ⟨by rw [List.map_cons, List.map_cons, hfirst, hall], hends⟩

theorem flatMap_filter_isShown (repos : List RepoResult) :
    (repos.filter RepoResult.isShown).flatMap repoLines = repos.flatMap repoLines := by
  induction repos with
  | nil => rfl
  | cons r others ih =>
    rw [List.filter_cons, List.flatMap_cons]
    split
    · rw [List.flatMap_cons, ih]
    · rename_i h
      rw [isShown_iff, not_or, not_not, not_not] at h
      have hlines := repoLines_append r []
      rw [errorLines_of_eq_nil h.1, impactSection_of_eq_nil h.2, List.append_nil] at hlines
      rw [ih, hlines]
      rfl

theorem repos_append_inj (hnames : (repos.map (·.name)).Nodup)
    (hnames' : (repos'.map (·.name)).Nodup) (hrest : EndsRepos rest) (hrest' : EndsRepos rest')
    (heq : repos.flatMap repoLines ++ rest = repos'.flatMap repoLines ++ rest') :
    (repos.filter RepoResult.isShown).map RepoResult.shown =
      (repos'.filter RepoResult.isShown).map RepoResult.shown ∧ rest = rest' := by
  rw [← flatMap_filter_isShown repos, ← flatMap_filter_isShown repos'] at heq
  exact shown_append_inj (fun r hr => (List.mem_filter.mp hr).2)
    (fun r hr => (List.mem_filter.mp hr).2) (hnames.sublist (List.filter_sublist.map _))
    (hnames'.sublist (List.filter_sublist.map _)) hrest hrest' heq

/-- The part of the report with the records. -/
def crossSection (records : List Record) : List String :=
  if records.isEmpty then []
  else
    [heading 2 "Cross-Repository Impacts", "",
        "These changes may affect other repositories:", ""] ++
      records.flatMap crossLines

theorem endsRepos_crossSection (records : List Record) : EndsRepos (crossSection records) := by
  rw [crossSection]
  split
  · exact ⟨avoids_nil _, avoids_nil _⟩
  · exact ⟨avoids_cons (by decide) _, avoids_cons (by decide) _⟩

theorem crossSection_inj {records records' : List Record}
    (h : ∀ cross ∈ records, has cross.sourceRepo "->" = false)
    (h' : ∀ cross ∈ records', has cross.sourceRepo "->" = false)
    (heq : crossSection records = crossSection records') : records = records' := by
  cases records with
  | nil =>
    cases records' with
    | nil => rfl
    | cons b bs => cases heq
  | cons a as =>
    cases records' with
    | nil => cases heq
    | cons b bs =>
      have hlines : (a :: as).flatMap crossLines ++ [] = (b :: bs).flatMap crossLines ++ [] := by
        rw [List.append_nil, List.append_nil]
        exact List.append_cancel_left heq
      have hall : (a :: as).map id = (b :: bs).map id ∧ [] = [] := flatMap_append_inj
        (fun r hr r' hr' _ _ => crossLines_append_inj (h r hr) (h' r' hr'))
        (fun r => ⟨_, rfl, by rw [heading_three]; exact startsWith_append "### " _⟩)
        (avoids_nil _) (avoids_nil _) hlines
      simpa using hall.1

/-- The table of repositories ends with its rows. -/
theorem opening_append_inj {r r' : Result} (heq : opening r ++ rest = opening r' ++ rest') :
    rest = rest' := by
  rw [opening, opening, List.append_assoc, List.append_assoc, List.append_assoc,
    List.append_assoc] at heq
  have hrows := List.append_inj_right heq (by simp only [List.length_cons])
  rw [List.map_eq_flatMap, List.map_eq_flatMap] at hrows
  have hends := @flatMap_append_inj _ Unit "| " _ _ _ (fun _ => ()) _ _
    (fun a _ b _ _ _ hrow => ⟨rfl, (List.cons.inj hrow).2⟩)
    (fun s => ⟨_, rfl, by rw [row, String.append_assoc]; exact startsWith_append "| " _⟩)
    (avoids_cons (by decide) _) (avoids_cons (by decide) _) hrows
  exact (List.append_right_inj ["", heading 2 "Detailed Impacts", ""]).mp hends.2

theorem lines_ne_nil (r : Result) : lines r ≠ [] := by
  rw [lines, opening]
  simp

/-- Two readable results with the same report show the same repositories with the same errors and
impacts, in the same order, and have the same records. -/
theorem shown_of_markdown_eq {r r' : Result} (h : r.Readable) (h' : r'.Readable)
    (heq : markdown r = markdown r') :
    r.shownRepos = r'.shownRepos ∧ r.crossImpacts = r'.crossImpacts := by
  have hlines : lines r = lines r' :=
    textOf_inj (lines_ne_nil r) (lines_ne_nil r') (oneLine_lines h.oneLine)
      (oneLine_lines h'.oneLine) heq
  have hparts : opening r ++ (r.repos.flatMap repoLines ++ crossSection r.crossImpacts) =
      opening r' ++ (r'.repos.flatMap repoLines ++ crossSection r'.crossImpacts) := by
    rw [← List.append_assoc, ← List.append_assoc]
    exact hlines
  obtain ⟨hrepos, hcross⟩ := repos_append_inj h.distinct h'.distinct (endsRepos_crossSection _)
    (endsRepos_crossSection _) (opening_append_inj hparts)
  exact ⟨hrepos, crossSection_inj h.arrowless h'.arrowless hcross⟩

/-- A repository with errors and impacts in front of one that is named like the heading of errors,
and one that is not shown. -/
def lookalikeResult (line : Option Int) (source : String) (hints : Option (List String)) :
    Result where
  about := ⟨⟨⟨2024, 1, 2⟩, 3, 4, 5, 0, some 0⟩, "main", "HEAD", toolName, toolVersion, none⟩
  summary := ⟨1, 2, false, [⟨"api", 1, 1⟩, ⟨"api (errors)", 0, 1⟩, ⟨"web", 0, 0⟩]⟩
  repos :=
    [⟨"api", 1, [⟨"Query.a", "api", "a.graphql", line, [⟨.direct, source, "changed"⟩], hints⟩],
      ["go-ast: parser failed"]⟩,
      ⟨"api (errors)", 0, [⟨"- log", "api", "b.go", line, [], some ["run it"]⟩], []⟩,
      ⟨"web", 0, [], []⟩]
  crossImpacts := [⟨"api", "Query.a", "web", ["List"], .graphqlSchema⟩]

theorem shown_of_markdown_eq_lookalike :
    (lookalikeResult none "a.graphql" none).Readable ∧
      (lookalikeResult (some 3) "schema-diff" (some [])).Readable ∧
      markdown (lookalikeResult none "a.graphql" none) =
        markdown (lookalikeResult (some 3) "schema-diff" (some [])) ∧
      (lookalikeResult none "a.graphql" none).shownRepos =
        (lookalikeResult (some 3) "schema-diff" (some [])).shownRepos ∧
      (lookalikeResult none "a.graphql" none).crossImpacts =
        (lookalikeResult (some 3) "schema-diff" (some [])).crossImpacts := by
  have hread : (lookalikeResult none "a.graphql" none).Readable :=
    ⟨by decide +kernel, by decide, by decide⟩
  have hread' : (lookalikeResult (some 3) "schema-diff" (some [])).Readable :=
    ⟨by decide +kernel, by decide, by decide⟩
  have heq : markdown (lookalikeResult none "a.graphql" none) =
      markdown (lookalikeResult (some 3) "schema-diff" (some [])) :=
    congrArg textOf (show lines _ = lines _ from rfl)
  exact ⟨hread, hread', heq, shown_of_markdown_eq hread hread' heq⟩

end Report.Markdown

end Ripple
