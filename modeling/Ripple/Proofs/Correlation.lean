import Ripple.Proofs.Gathering
import Ripple.Proofs.Matching
import Ripple.Relation.Correlation

/-! # What correlation finds across repositories

A relation leads from a component of its source to a component of its target when its kind has a
matcher, both its repositories were analysed, an impact on the one component triggers and an impact
on the other consumes. Correlation returns exactly the records to which relations lead, unless the
globs of some relation stall.
-/
namespace Ripple

/-- The relation declares an edge of a kind between two repositories. -/
def Relation.Joins (r : Relation) (source target : String) (via : RelationKind) : Prop :=
  r.source = source ∧ r.target = target ∧ r.via = via

namespace Correlation

variable (registry : MatcherRegistry) (repos : List RepoImpacts)

/-- The matcher and the two repositories that serve a relation. -/
structure Serves (r : Relation) (m : Matcher) (source target : RepoImpacts) : Prop where
  matcher : registry.find? r.via.text = some m
  source : findRepo? repos r.source = some source
  target : findRepo? repos r.target = some target

variable {registry repos}

theorem findRepo?_name {name : String} {found : RepoImpacts}
    (h : findRepo? repos name = some found) : found.name = name := by
  simpa using List.find?_some h

theorem Serves.unique {r : Relation} {m m' : Matcher} {source source' target target' : RepoImpacts}
    (h : Serves registry repos r m source target)
    (h' : Serves registry repos r m' source' target') :
    m' = m ∧ source' = source ∧ target' = target :=
  ⟨Option.some.inj (h'.matcher.symm.trans h.matcher),
    Option.some.inj (h'.source.symm.trans h.source),
    Option.some.inj (h'.target.symm.trans h.target)⟩

variable (registry repos) [Regex.Names]

/-- The relation leads from a component of its source to one of its target. -/
def Leads (r : Relation) (component affected : String) : Prop :=
  ∃ m source target, Serves registry repos r m source target ∧
    m.Triggers source component ∧ m.Consumes target r affected

def Stalls (r : Relation) : Prop :=
  ∃ m source target, Serves registry repos r m source target ∧ m.Stalls source target r

/-- Globs whose repetition counts are all in range do not stall. -/
theorem not_stalls_of_sized {r : Relation} (h : ∀ p ∈ r.patterns.getD [], ¬ Glob.Oversized p) :
    ¬ Stalls registry repos r := by
  rintro ⟨m, source, target, _, _, _, i, _, _, before, p, after, heq, hsize, _⟩
  exact h p (by rw [heq]; simp) hsize

variable {registry repos}

theorem relate_of_serves {r : Relation} {m : Matcher} {source target : RepoImpacts}
    (h : Serves registry repos r m source target) :
    relate registry repos r = m.correlate source target r := by
  rw [relate, h.source, h.target, h.matcher]

theorem relate_of_unserved {r : Relation}
    (h : ¬ ∃ m source target, Serves registry repos r m source target) :
    relate registry repos r = .ok [] := by
  rw [relate]
  cases hs : findRepo? repos r.source with
  | none => rfl
  | some source =>
    cases ht : findRepo? repos r.target with
    | none => rfl
    | some target =>
      cases hm : registry.find? r.via.text with
      | none => rfl
      | some m => exact absurd ⟨m, source, target, hm, hs, ht⟩ h

theorem relate_fails {r : Relation} (h : Stalls registry repos r) :
    ∃ f, relate registry repos r = .error f := by
  obtain ⟨m, source, target, hserves, hstalls⟩ := h
  rw [relate_of_serves hserves]
  exact m.correlate_fails source target r hstalls

theorem relate_eq_ok {r : Relation} (h : ¬ Stalls registry repos r) :
    ∃ records, relate registry repos r = .ok records ∧ (∀ x ∈ records, x.targets ≠ []) ∧
      ∀ k t, Record.Reaches records k t ↔
        ∃ c, k = (r.source, c, r.target, r.via) ∧ Leads registry repos r c t := by
  by_cases hserved : ∃ m source target, Serves registry repos r m source target
  · obtain ⟨m, source, target, hserves⟩ := hserved
    have hstalls : ¬ m.Stalls source target r := fun hs => h ⟨m, source, target, hserves, hs⟩
    obtain ⟨records, hrecords, hne, hreaches⟩ := m.correlate_eq_ok source target r hstalls
    refine ⟨records, by rw [relate_of_serves hserves, hrecords], hne, fun k t => ?_⟩
    rw [hreaches, findRepo?_name hserves.source, findRepo?_name hserves.target]
    constructor
    · rintro ⟨c, hk, htrigger, ht⟩
      exact ⟨c, hk, m, source, target, hserves, htrigger, ht⟩
    · rintro ⟨c, hk, m', source', target', hserves', htrigger, ht⟩
      obtain ⟨rfl, rfl, rfl⟩ := hserves.unique hserves'
      exact ⟨c, hk, htrigger, ht⟩
  · refine ⟨[], relate_of_unserved hserved, by simp, fun k t => ?_⟩
    constructor
    · rintro ⟨x, hx, _⟩
      simp at hx
    · rintro ⟨c, _, m, source, target, hserves, _⟩
      exact absurd ⟨m, source, target, hserves⟩ hserved

theorem relateAll_fails {relations : List Relation}
    (h : ∃ r ∈ relations, Stalls registry repos r) :
    ∃ f, relateAll registry repos relations = .error f := by
  induction relations with
  | nil => simp at h
  | cons r rest ih =>
    rw [relateAll]
    cases hr : relate registry repos r with
    | error f => exact ⟨f, rfl⟩
    | ok first =>
      obtain ⟨s, hs, hstalls⟩ := h
      rcases List.mem_cons.mp hs with rfl | hs
      · obtain ⟨f, hf⟩ := relate_fails hstalls
        simp [hr] at hf
      · obtain ⟨f, hf⟩ := ih ⟨s, hs, hstalls⟩
        exact ⟨f, by rw [hf]; rfl⟩

theorem relateAll_eq_ok {relations : List Relation}
    (h : ∀ r ∈ relations, ¬ Stalls registry repos r) :
    ∃ records, relateAll registry repos relations = .ok records ∧ (∀ x ∈ records, x.targets ≠ []) ∧
      ∀ k t, Record.Reaches records k t ↔
        ∃ r ∈ relations, ∃ c, k = (r.source, c, r.target, r.via) ∧ Leads registry repos r c t := by
  induction relations with
  | nil => exact ⟨[], rfl, by simp, by simp [Record.Reaches]⟩
  | cons r rest ih =>
    obtain ⟨first, hfirst, hfirstNe, hfirstReaches⟩ := relate_eq_ok (h r List.mem_cons_self)
    obtain ⟨others, hothers, hothersNe, hothersReaches⟩ :=
      ih fun s hs => h s (List.mem_cons_of_mem r hs)
    refine ⟨first ++ others, by rw [relateAll, hfirst, hothers]; rfl, ?_, fun k t => ?_⟩
    · intro x hx
      rcases List.mem_append.mp hx with hx | hx
      · exact hfirstNe x hx
      · exact hothersNe x hx
    · rw [Record.reaches_append, hfirstReaches, hothersReaches]
      simp

theorem correlate_fails {relations : List Relation}
    (h : ∃ r ∈ relations, Stalls registry repos r) :
    ∃ f, correlate registry repos relations = .error f := by
  obtain ⟨f, hf⟩ := relateAll_fails h
  exact ⟨f, by rw [correlate, hf]; rfl⟩

variable (registry repos)

/-- The records are those to which the relations lead: one for each key, with all its targets. -/
structure Answers (relations : List Relation) (records : List Record) : Prop where
  exists_key : ∀ a c b k, (∃ x ∈ records, x.key = (a, c, b, k)) ↔
    ∃ r ∈ relations, r.Joins a b k ∧ ∃ t, Leads registry repos r c t
  mem_targets : ∀ x ∈ records, ∀ t, t ∈ x.targets ↔
    ∃ r ∈ relations, r.Joins x.sourceRepo x.targetRepo x.relation ∧
      Leads registry repos r x.sourceComponent t
  nodup_keys : (records.map Record.key).Nodup
  targets_ne_nil : ∀ x ∈ records, x.targets ≠ []
  nodup_targets : ∀ x ∈ records, x.targets.Nodup

variable {registry repos}

theorem correlate_eq_ok {relations : List Relation}
    (h : ∀ r ∈ relations, ¬ Stalls registry repos r) :
    ∃ records, correlate registry repos relations = .ok records ∧
      Answers registry repos relations records := by
  obtain ⟨raw, hraw, hne, hreaches⟩ := relateAll_eq_ok h
  have hleads : ∀ a c b k t, Record.Reaches raw (a, c, b, k) t ↔
      ∃ r ∈ relations, r.Joins a b k ∧ Leads registry repos r c t := by
    intro a c b k t
    rw [hreaches]
    constructor
    · rintro ⟨r, hr, c', hkey, hl⟩
      obtain ⟨rfl, rfl, rfl, rfl⟩ := by simpa using hkey
      exact ⟨r, hr, ⟨rfl, rfl, rfl⟩, hl⟩
    · rintro ⟨r, hr, ⟨rfl, rfl, rfl⟩, hl⟩
      exact ⟨r, hr, c, rfl, hl⟩
  refine ⟨Record.unite raw, by rw [correlate, hraw]; rfl, ?_, ?_, Record.nodup_map_key_unite raw,
    fun x hx => Record.targets_ne_nil_of_mem_unite hne hx,
    fun x hx => Record.nodup_targets_of_mem_unite hx⟩
  · intro a c b k
    rw [Record.exists_mem_unite_key]
    constructor
    · rintro ⟨x, hx, hkey⟩
      obtain ⟨t, ht⟩ := List.exists_mem_of_ne_nil _ (hne x hx)
      obtain ⟨r, hr, hjoins, hl⟩ := (hleads a c b k t).mp ⟨x, hx, hkey, ht⟩
      exact ⟨r, hr, hjoins, t, hl⟩
    · rintro ⟨r, hr, hjoins, t, hl⟩
      obtain ⟨x, hx, hkey, _⟩ := (hleads a c b k t).mpr ⟨r, hr, hjoins, hl⟩
      exact ⟨x, hx, hkey⟩
  · intro x hx t
    rw [Record.mem_targets_of_mem_unite hx]
    exact hleads ..

theorem correlate_ok_iff (relations : List Relation) :
    (∃ records, correlate registry repos relations = .ok records) ↔
      ∀ r ∈ relations, ¬ Stalls registry repos r := by
  constructor
  · rintro ⟨records, hrecords⟩ r hr hs
    obtain ⟨f, hf⟩ := correlate_fails ⟨r, hr, hs⟩
    simp [hrecords] at hf
  · intro h
    obtain ⟨records, hrecords, _⟩ := correlate_eq_ok h
    exact ⟨records, hrecords⟩

theorem answers_of_correlate {relations : List Relation} {records : List Record}
    (h : correlate registry repos relations = .ok records) :
    Answers registry repos relations records := by
  obtain ⟨records', hrecords', hanswers⟩ :=
    correlate_eq_ok ((correlate_ok_iff relations).mp ⟨records, h⟩)
  obtain rfl := Except.ok.inj (h.symm.trans hrecords')
  exact hanswers

/-- Correlation answers if and only if the globs of no relation stall, and every answer holds
exactly the records to which the relations lead. Of the built-in matchers, only that of GraphQL
schemas uses globs. -/
theorem correlate_answers (registry : MatcherRegistry) (repos : List RepoImpacts)
    (relations : List Relation) :
    (∀ k : RelationKind, k.matcher.usesPatterns = true ↔ k = .graphqlSchema) ∧
    ((∃ records, correlate registry repos relations = .ok records) ↔
      ∀ r ∈ relations, ¬ Stalls registry repos r) ∧
    ∀ records, correlate registry repos relations = .ok records →
      Answers registry repos relations records := by
  refine ⟨?_, correlate_ok_iff relations, fun records h => answers_of_correlate h⟩
  intro k
  cases k <;> simp [RelationKind.matcher]

end Correlation

end Ripple
