import Ripple.Proofs.Glob
import Ripple.Proofs.Outcome
import Ripple.Proofs.Record
import Ripple.Relation.Matcher

/-! # What one matcher finds between two repositories

A matcher answers with one record for each triggering impact of the source. Its targets are the
components of the consuming impacts of the target: those that show the signal and, for a matcher
that uses them, those whose file one of the relation's globs selects. There is no answer if and only
if an impact triggers and the globs stall on an impact that does not show the signal.
-/
namespace Ripple

namespace Matcher

/-- Some impact of the source on the component triggers. -/
def Triggers (m : Matcher) (source : RepoImpacts) (component : String) : Prop :=
  ∃ i ∈ source.impacts, i.component = component ∧ m.trigger.holds i = true

theorem triggers_iff (m : Matcher) (source : RepoImpacts) (c : String) :
    m.Triggers source c ↔
      ∃ i ∈ source.impacts.filter m.trigger.holds, i.component = c := by
  constructor
  · rintro ⟨i, hi, hc, ht⟩
    exact ⟨i, List.mem_filter.mpr ⟨hi, ht⟩, hc⟩
  · rintro ⟨i, hi, hc⟩
    obtain ⟨hi, ht⟩ := List.mem_filter.mp hi
    exact ⟨i, hi, hc, ht⟩

end Matcher

variable [Regex.Names]

def IsConsumer (consumer : Signal) (patterns : List String) (i : Impact) : Prop :=
  consumer.holds i = true ∨ ∃ p ∈ patterns, Glob.selects p i.file = .ok true

def StallsOn (consumer : Signal) (patterns : List String) (i : Impact) : Prop :=
  consumer.holds i = false ∧ Glob.Stalls i.file patterns

theorem consumes_fails_iff (consumer : Signal) (patterns : List String) (i : Impact) :
    (∃ f, consumes consumer patterns i = .error f) ↔ StallsOn consumer patterns i := by
  rw [consumes, StallsOn, ← Glob.anySelects_fails_iff]
  cases consumer.holds i <;> simp

theorem consumes_eq_ok {consumer : Signal} {patterns : List String} {i : Impact} {b : Bool}
    (h : consumes consumer patterns i = .ok b) :
    b = true ↔ IsConsumer consumer patterns i := by
  rw [consumes] at h
  rw [IsConsumer]
  cases hs : consumer.holds i with
  | true =>
    rw [hs] at h
    cases h
    simp
  | false =>
    rw [hs] at h
    rw [Glob.anySelects_eq_ok h]
    simp

theorem consumers_fails {consumer : Signal} {patterns : List String} {impacts : List Impact}
    (h : ∃ i ∈ impacts, StallsOn consumer patterns i) :
    ∃ f, consumers consumer patterns impacts = .error f := by
  obtain ⟨i, hi, hs⟩ := h
  obtain ⟨f, hf⟩ := Outcome.filterM_fails
    ⟨i, hi, (consumes_fails_iff consumer patterns i).mpr hs⟩
  exact ⟨f, by rw [consumers, hf]; rfl⟩

theorem findSome?_refusal?_of_consumers {consumer : Signal} {patterns : List String}
    {impacts : List Impact} {f : Regex.Fault} (h : consumers consumer patterns impacts = .error f) :
    patterns.findSome? Glob.refusal? = some f := by
  rcases Outcome.bind_eq_error_iff.mp h with h | ⟨chosen, -, h⟩
  · obtain ⟨i, -, hi⟩ := Outcome.exists_of_filterM_error h
    rw [consumes] at hi
    split at hi
    · cases hi
    · exact Glob.findSome?_refusal?_of_anySelects hi
  · cases h

theorem consumers_of_answers {consumer : Signal} {patterns : List String} {impacts : List Impact}
    {p : Impact → Bool} (h : ∀ i ∈ impacts, consumes consumer patterns i = .ok (p i)) :
    consumers consumer patterns impacts =
      .ok (distinct ((impacts.filter p).map (·.component))) := by
  rw [consumers, Outcome.filterM_eq_ok h]
  rfl

theorem consumers_eq_ok {consumer : Signal} {patterns : List String} {impacts : List Impact}
    (h : ∀ i ∈ impacts, ¬ StallsOn consumer patterns i) :
    ∃ targets, consumers consumer patterns impacts = .ok targets ∧
      ∀ t, t ∈ targets ↔ ∃ i ∈ impacts, i.component = t ∧ IsConsumer consumer patterns i := by
  classical
  let q : Impact → Bool := fun i => decide (IsConsumer consumer patterns i)
  have hq : ∀ i ∈ impacts, consumes consumer patterns i = .ok (q i) := by
    intro i hi
    cases hc : consumes consumer patterns i with
    | error f => exact absurd ((consumes_fails_iff consumer patterns i).mp ⟨f, hc⟩) (h i hi)
    | ok b =>
      congr 1
      rw [Bool.eq_iff_iff, consumes_eq_ok hc, decide_eq_true_iff]
  refine ⟨_, consumers_of_answers hq, fun t => ?_⟩
  rw [mem_distinct, List.mem_map]
  constructor
  · rintro ⟨i, hi, rfl⟩
    obtain ⟨hi, hqi⟩ := List.mem_filter.mp hi
    exact ⟨i, hi, rfl, of_decide_eq_true hqi⟩
  · rintro ⟨i, hi, rfl, hc⟩
    exact ⟨i, List.mem_filter.mpr ⟨hi, decide_eq_true hc⟩, rfl⟩

namespace Matcher

variable (m : Matcher) (source target : RepoImpacts) (r : Relation)

/-- Some impact of the target on the component consumes. -/
def Consumes (component : String) : Prop :=
  ∃ i ∈ target.impacts, i.component = component ∧
    (m.consumer.holds i = true ∨
      m.usesPatterns = true ∧ ∃ p ∈ r.patterns.getD [], Glob.selects p i.file = .ok true)

/-- Something triggers, but the globs of the relation stall on an impact of the target. -/
def Stalls : Prop :=
  (∃ c, m.Triggers source c) ∧ m.usesPatterns = true ∧
    ∃ i ∈ target.impacts, StallsOn m.consumer (r.patterns.getD []) i

theorem isConsumer_globs (i : Impact) :
    IsConsumer m.consumer (m.globs r) i ↔
      m.consumer.holds i = true ∨
        m.usesPatterns = true ∧ ∃ p ∈ r.patterns.getD [], Glob.selects p i.file = .ok true := by
  rw [IsConsumer, globs]
  cases m.usesPatterns <;> simp

theorem stallsOn_globs (i : Impact) :
    StallsOn m.consumer (m.globs r) i ↔
      m.usesPatterns = true ∧ StallsOn m.consumer (r.patterns.getD []) i := by
  rw [globs]
  cases m.usesPatterns with
  | true => simp
  | false => simp [StallsOn, Glob.Stalls]

/-- The answer once it is known that something triggers. -/
theorem correlate_of_triggers {c : String} (h : m.Triggers source c) :
    m.correlate source target r =
      (consumers m.consumer (m.globs r) target.impacts).map fun targets =>
        if targets.isEmpty then []
        else (source.impacts.filter m.trigger.holds).map fun i =>
          Record.ofTargets source.name i.component target.name targets r.via := by
  obtain ⟨i, hi, _⟩ := (m.triggers_iff source c).mp h
  have hsome : (source.impacts.filter m.trigger.holds).isEmpty = false :=
    List.isEmpty_eq_false_iff_exists_mem.mpr ⟨i, hi⟩
  rw [correlate, hsome]
  cases consumers m.consumer (m.globs r) target.impacts with
  | error f => rfl
  | ok targets =>
    exact (apply_ite Except.ok (targets.isEmpty = true) [] _).symm

theorem correlate_of_no_trigger (h : ¬ ∃ c, m.Triggers source c) :
    m.correlate source target r = .ok [] := by
  have hnone : (source.impacts.filter m.trigger.holds).isEmpty = true := by
    rw [List.isEmpty_iff, List.filter_eq_nil_iff]
    exact fun i hi ht => h ⟨i.component, i, hi, rfl, ht⟩
  rw [correlate, hnone]
  rfl

theorem correlate_fails (h : m.Stalls source target r) :
    ∃ f, m.correlate source target r = .error f := by
  obtain ⟨⟨c, hc⟩, huses, i, hi, hs⟩ := h
  obtain ⟨f, hf⟩ := consumers_fails ⟨i, hi, (m.stallsOn_globs r i).mpr ⟨huses, hs⟩⟩
  exact ⟨f, by rw [m.correlate_of_triggers source target r hc, hf]; rfl⟩

/-- The records lead from each triggering component to each consuming one, and none is empty. -/
theorem correlate_eq_ok (h : ¬ m.Stalls source target r) :
    ∃ records, m.correlate source target r = .ok records ∧
      (∀ x ∈ records, x.targets ≠ []) ∧
      ∀ k t, Record.Reaches records k t ↔
        ∃ c, k = (source.name, c, target.name, r.via) ∧ m.Triggers source c ∧
          m.Consumes target r t := by
  by_cases hc : ∃ c, m.Triggers source c
  · obtain ⟨c, hc⟩ := hc
    have hstall : ∀ i ∈ target.impacts, ¬ StallsOn m.consumer (m.globs r) i := by
      intro i hi hs
      obtain ⟨huses, hs⟩ := (m.stallsOn_globs r i).mp hs
      exact h ⟨⟨c, hc⟩, huses, i, hi, hs⟩
    obtain ⟨targets, htargets, hmem⟩ := consumers_eq_ok hstall
    have hconsumes : ∀ t, t ∈ targets ↔ m.Consumes target r t := by
      intro t
      rw [hmem, Consumes]
      simp only [isConsumer_globs]
    rw [m.correlate_of_triggers source target r hc, htargets]
    cases targets with
    | nil =>
      refine ⟨[], rfl, by simp, fun k t => ?_⟩
      constructor
      · rintro ⟨x, hx, _⟩
        simp at hx
      · rintro ⟨_, _, _, ht⟩
        simpa using (hconsumes t).mpr ht
    | cons first others =>
      refine ⟨_, rfl, ?_, fun k t => ?_⟩
      · intro x hx
        obtain ⟨i, _, rfl⟩ := List.mem_map.mp hx
        exact List.ne_nil_of_mem ((Record.mem_targets_ofTargets ..).mpr List.mem_cons_self)
      · constructor
        · rintro ⟨x, hx, rfl, ht⟩
          obtain ⟨i, hi, rfl⟩ := List.mem_map.mp hx
          rw [Record.mem_targets_ofTargets] at ht
          exact ⟨i.component, rfl, (m.triggers_iff source _).mpr ⟨i, hi, rfl⟩, (hconsumes t).mp ht⟩
        · rintro ⟨c, rfl, htrigger, ht⟩
          obtain ⟨i, hi, rfl⟩ := (m.triggers_iff source c).mp htrigger
          refine ⟨_, List.mem_map_of_mem hi, rfl, ?_⟩
          rw [Record.mem_targets_ofTargets]
          exact (hconsumes t).mpr ht
  · refine ⟨[], m.correlate_of_no_trigger source target r hc, by simp, fun k t => ?_⟩
    constructor
    · rintro ⟨x, hx, _⟩
      simp at hx
    · rintro ⟨c, _, ht, _⟩
      exact absurd ⟨c, ht⟩ hc

end Matcher

end Ripple
