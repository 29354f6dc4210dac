import Ripple.Proofs.Distinct
import Ripple.Proofs.Instants
import Ripple.Proofs.JsonRoundTrip
import Ripple.Report.Files

/-! # Reading reports that were written

A result is read back from its report as it was, unless one of its integers has more digits than the
reader converts or the offset of its timestamp has seconds.
-/
namespace Ripple

open Checker

section Checking

variable {α : Type} {check : Checker α} {f : α → Value}

theorem Check.items_listOf {l : List α} (h : ∀ a ∈ l, check (f a) = .valid a) (n : Nat) :
    items check n (l.map f) = .valid l := by
  rw [items_eq_valid_iff, List.forall₂_map_left_iff, List.forall₂_same]
  exact h

theorem Checker.list_listOf {l : List α} (h : ∀ a ∈ l, check (f a) = .valid a) :
    list check (.listOf f l) = .valid l :=
  Check.items_listOf h 0

theorem Checker.tuple_listOf {l : List α} (h : ∀ a ∈ l, check (f a) = .valid a) :
    tuple check (.listOf f l) = .valid l :=
  Check.items_listOf h 0

theorem Checker.optional_optional {o : Option α} (h : ∀ a ∈ o, check (f a) = .valid a)
    (hf : ∀ a, f a ≠ .null) : optional check (.optional f o) = .valid o := by
  cases o with
  | none => rfl
  | some a =>
    rw [Value.optional, optional.eq_def]
    split
    · exact absurd ‹_› (hf a)
    · rw [h a rfl]
      rfl

theorem Checker.record_record (name : String) (fields : List (Value × Value) → Check α)
    (entries : List (String × Value)) :
    record name fields (.record entries) = fields (entries.map fun (k, v) => (.text k, v)) := rfl

theorem Checker.required_eq {name : String} {es : List (Value × Value)} {v : Value}
    (h : Value.find? name es = some v) : required name check es = (check v).under (.key name) := by
  rw [required, h]

theorem Checker.defaulted_eq {name : String} {default : α} {es : List (Value × Value)} {v : Value}
    (h : Value.find? name es = some v) :
    defaulted name check default es = (check v).under (.key name) := by
  rw [defaulted, h]

end Checking

theorem ReasonKind.check_text (k : ReasonKind) : check (.text k.text) = .valid k := by
  cases k <;> rfl

theorem RelationKind.check_text (k : RelationKind) : check (.text k.text) = .valid k := by
  cases k <;> rfl

theorem Reason.check_toValue (r : Reason) : check r.toValue = .valid r := by
  rw [check, toValue, record_record, required_eq rfl, required_eq rfl, required_eq rfl,
    ReasonKind.check_text]
  rfl

theorem Impact.check_toValue (i : Impact) : check i.toValue = .valid i := by
  have hline : optional integer (.optional .int i.line) = .valid i.line :=
    optional_optional (fun _ _ => rfl) nofun
  have hhints : optional (tuple text) (.optional (.listOf .text) i.testHints) =
      .valid i.testHints :=
    optional_optional (fun _ _ => tuple_listOf fun _ _ => rfl) nofun
  have hreasons : tuple Reason.check (.listOf Reason.toValue i.reasons) = .valid i.reasons :=
    tuple_listOf fun r _ => r.check_toValue
  rw [check, toValue, record_record, required_eq rfl, required_eq rfl, required_eq rfl,
    defaulted_eq rfl, defaulted_eq rfl, defaulted_eq rfl, hline, hhints, hreasons]
  rfl

theorem Record.check_toValue {r : Record} (h : r.targets.Nodup) : check r.toValue = .valid r := by
  have htargets : tuple text (.listOf .text r.targets) = .valid r.targets :=
    tuple_listOf fun _ _ => rfl
  have hdistinct : distinct r.targets = r.targets := distinctBy_of_nodup id (by rwa [List.map_id])
  rw [check, toValue, record_record, required_eq rfl, required_eq rfl, required_eq rfl,
    defaulted_eq rfl, required_eq rfl, htargets, RelationKind.check_text]
  exact congrArg (fun targets => Check.valid { r with targets }) hdistinct

theorem RepoResult.check_toValue (r : RepoResult) : check r.toValue = .valid r := by
  have himpacts : list Impact.check (.listOf Impact.toValue r.impacts) = .valid r.impacts :=
    list_listOf fun i _ => i.check_toValue
  have herrors : list text (.listOf .text r.errors) = .valid r.errors :=
    list_listOf fun _ _ => rfl
  rw [check, toValue, record_record, required_eq rfl, defaulted_eq rfl, defaulted_eq rfl,
    defaulted_eq rfl, himpacts, herrors]
  rfl

theorem RepoSummary.check_toValue (r : RepoSummary) : check r.toValue = .valid r := rfl

theorem Summary.check_toValue (s : Summary) : check s.toValue = .valid s := by
  have hrepos : list RepoSummary.check (.listOf RepoSummary.toValue s.repos) = .valid s.repos :=
    list_listOf fun r _ => r.check_toValue
  rw [check, toValue, record_record, defaulted_eq rfl, defaulted_eq rfl, defaulted_eq rfl,
    defaulted_eq rfl, hrepos]
  rfl

/-- What a result is about is read back without the seconds of the offset. -/
theorem Meta.check_toValue (now : Timestamp) {m : Meta} (h : m.timestamp.Exists) :
    check now m.toValue = .valid { m with timestamp := m.timestamp.wholeMinutes } := by
  have hpull : optional text (.optional .text m.pullRequest) = .valid m.pullRequest :=
    optional_optional (fun _ _ => rfl) nofun
  rw [check, toValue, record_record, defaulted_eq rfl, required_eq rfl, required_eq rfl,
    defaulted_eq rfl, required_eq rfl, defaulted_eq rfl, instant_text h, hpull]
  rfl

/-- The targets of a record are distinct, and the timestamp exists. -/
structure Result.WellFormed (r : Result) : Prop where
  timestamp : r.about.timestamp.Exists
  targets : ∀ x ∈ r.crossImpacts, x.targets.Nodup

/-- A result without the seconds of its timestamp's offset. -/
def Result.wholeMinutes (r : Result) : Result :=
  { r with about := { r.about with timestamp := r.about.timestamp.wholeMinutes } }

/-- The written form of a result is checked and becomes the result, without the seconds of the
offset. -/
theorem Result.check_toValue (now : Timestamp) {r : Result} (h : r.WellFormed) :
    check now r.toValue = .valid r.wholeMinutes := by
  have hrepos : list RepoResult.check (.listOf RepoResult.toValue r.repos) = .valid r.repos :=
    list_listOf fun p _ => p.check_toValue
  have hcross : list Record.check (.listOf Record.toValue r.crossImpacts) =
      .valid r.crossImpacts := list_listOf fun x hx => Record.check_toValue (h.targets x hx)
  rw [check, toValue, record_record, required_eq rfl, required_eq rfl, defaulted_eq rfl,
    defaulted_eq rfl, Meta.check_toValue now h.timestamp, r.summary.check_toValue, hrepos, hcross]
  rfl

namespace Json

theorem plain_listOf {α : Type} {f : α → Value} {l : List α} (h : ∀ a ∈ l, Plain (f a)) :
    Plain (.listOf f l) := by
  have hitems : PlainItems (l.map f) := by
    induction l with
    | nil => trivial
    | cons a l ih =>
      exact ⟨h a List.mem_cons_self, ih fun b hb => h b (List.mem_cons_of_mem a hb)⟩
  exact hitems

theorem plain_optional {α : Type} {f : α → Value} (h : ∀ a, Plain (f a)) (o : Option α) :
    Plain (.optional f o) := by
  cases o with
  | none => trivial
  | some a => exact h a

theorem plain_record {entries : List (String × Value)} (hnames : (entries.map (·.1)).Nodup)
    (h : ∀ e ∈ entries, Plain e.2) : Plain (.record entries) := by
  have hmembers : PlainMembers (entries.map fun (k, v) => (.text k, v)) := by
    clear hnames
    induction entries with
    | nil => trivial
    | cons e entries ih =>
      exact ⟨⟨e.1, rfl⟩, h e List.mem_cons_self, ih fun b hb => h b (List.mem_cons_of_mem e hb)⟩
  refine ⟨?_, hmembers⟩
  rw [List.map_map]
  have hkeys := hnames.map (f := Value.text) fun _ _ => Value.text.inj
  rwa [List.map_map] at hkeys

theorem legible_listOf {α : Type} (f : α → Value) (l : List α) :
    Legible (.listOf f l) ↔ ∀ a ∈ l, Legible (f a) := by
  have hitems : LegibleItems (l.map f) ↔ ∀ a ∈ l, Legible (f a) := by
    induction l with
    | nil => simp [LegibleItems]
    | cons a l ih => rw [List.map_cons, LegibleItems, ih, List.forall_mem_cons]
  exact hitems

theorem legible_record (entries : List (String × Value)) :
    Legible (.record entries) ↔ ∀ e ∈ entries, Legible e.2 := by
  have hmembers : LegibleMembers (entries.map fun (k, v) => (.text k, v)) ↔
      ∀ e ∈ entries, Legible e.2 := by
    induction entries with
    | nil => simp [LegibleMembers]
    | cons e entries ih => rw [List.map_cons, LegibleMembers, ih, List.forall_mem_cons]
  exact hmembers

theorem legible_optional_int (o : Option Int) :
    Legible (.optional .int o) ↔ ∀ i ∈ o, Convertible i := by
  cases o <;> simp [Value.optional, Legible]

end Json

open Json (Plain plain_record plain_listOf plain_optional Legible legible_record legible_listOf
  legible_optional_int Convertible)

theorem plain_texts (l : List String) : Plain (.listOf .text l) := plain_listOf fun _ _ => trivial

theorem legible_texts (l : List String) : Legible (.listOf .text l) :=
  (legible_listOf _ _).mpr fun _ _ => trivial

theorem Reason.plain_toValue (r : Reason) : Plain r.toValue :=
  plain_record (by simp) (by simp [Plain])

theorem Reason.legible_toValue (r : Reason) : Legible r.toValue :=
  (legible_record _).mpr (by simp [Legible])

theorem Impact.plain_toValue (i : Impact) : Plain i.toValue := by
  have hline := plain_optional (f := .int) (fun _ => trivial) i.line
  have hhints := plain_optional plain_texts i.testHints
  have hreasons : Plain (.listOf Reason.toValue i.reasons) :=
    plain_listOf fun r _ => r.plain_toValue
  exact plain_record (by simp) (by simp [Plain, hline, hhints, hreasons])

theorem Impact.legible_toValue (i : Impact) :
    Legible i.toValue ↔ ∀ n ∈ i.line, Convertible n := by
  have hhints : Legible (.optional (.listOf .text) i.testHints) := by
    cases i.testHints with
    | none => trivial
    | some hints => exact legible_texts hints
  have hreasons : Legible (.listOf Reason.toValue i.reasons) :=
    (legible_listOf _ _).mpr fun r _ => r.legible_toValue
  rw [toValue, legible_record]
  simp [Legible, hhints, hreasons, legible_optional_int]

theorem Record.plain_toValue (r : Record) : Plain r.toValue :=
  plain_record (by simp) (by simp [Plain, plain_texts])

theorem Record.legible_toValue (r : Record) : Legible r.toValue :=
  (legible_record _).mpr (by simp [Legible, legible_texts])

theorem RepoResult.plain_toValue (r : RepoResult) : Plain r.toValue := by
  have himpacts : Plain (.listOf Impact.toValue r.impacts) :=
    plain_listOf fun i _ => i.plain_toValue
  exact plain_record (by simp) (by simp [Plain, himpacts, plain_texts])

theorem RepoSummary.plain_toValue (r : RepoSummary) : Plain r.toValue :=
  plain_record (by simp) (by simp [Plain])

theorem Summary.plain_toValue (s : Summary) : Plain s.toValue := by
  have hrepos : Plain (.listOf RepoSummary.toValue s.repos) :=
    plain_listOf fun r _ => r.plain_toValue
  exact plain_record (by simp) (by simp [Plain, hrepos])

theorem Meta.plain_toValue (m : Meta) : Plain m.toValue := by
  have hpull := plain_optional (f := .text) (fun _ => trivial) m.pullRequest
  exact plain_record (by simp) (by simp [Plain, hpull])

theorem Meta.legible_toValue (m : Meta) : Legible m.toValue := by
  have hpull : Legible (.optional .text m.pullRequest) := by
    cases m.pullRequest <;> trivial
  exact (legible_record _).mpr (by simp [Legible, hpull])

theorem Result.plain_toValue (r : Result) : Plain r.toValue := by
  have hrepos : Plain (.listOf RepoResult.toValue r.repos) :=
    plain_listOf fun p _ => p.plain_toValue
  have hcross : Plain (.listOf Record.toValue r.crossImpacts) :=
    plain_listOf fun x _ => x.plain_toValue
  exact plain_record (by simp)
    (by simp [r.about.plain_toValue, r.summary.plain_toValue, hrepos, hcross])

/-- The integers of a result about one repository: the count and the lines. -/
def RepoResult.integers (p : RepoResult) : List Int :=
  p.changedFiles :: p.impacts.flatMap (·.line.toList)

def Summary.integers (s : Summary) : List Int :=
  s.totalChangedFiles :: s.totalImpactedComponents ::
    s.repos.flatMap fun r => [r.changedFiles, r.impactCount]

def Result.integers (r : Result) : List Int :=
  r.summary.integers ++ r.repos.flatMap RepoResult.integers

theorem RepoResult.legible_toValue (p : RepoResult) :
    Legible p.toValue ↔ ∀ i ∈ p.integers, Convertible i := by
  rw [toValue, legible_record, integers]
  simp only [List.forall_mem_cons, List.forall_mem_flatMap, legible_listOf, Impact.legible_toValue,
    Legible, Option.mem_toList]
  simp

theorem Summary.legible_toValue (s : Summary) :
    Legible s.toValue ↔ ∀ i ∈ s.integers, Convertible i := by
  have hcounts : ∀ r : RepoSummary, Legible r.toValue ↔
      ∀ i ∈ [r.changedFiles, r.impactCount], Convertible i := by
    intro r
    rw [RepoSummary.toValue, legible_record]
    simp [Legible]
  rw [toValue, legible_record, integers]
  simp only [List.forall_mem_cons, List.forall_mem_flatMap, legible_listOf, hcounts, Legible]
  simp

theorem Result.legible_toValue (r : Result) :
    Legible r.toValue ↔ ∀ i ∈ r.integers, Convertible i := by
  have hcross : Legible (.listOf Record.toValue r.crossImpacts) :=
    (legible_listOf _ _).mpr fun x _ => x.legible_toValue
  rw [toValue, legible_record, integers, List.forall_mem_append, List.forall_mem_flatMap]
  simp [Summary.legible_toValue, Meta.legible_toValue, legible_listOf,
    RepoResult.legible_toValue, hcross]

theorem Timestamp.wholeMinutes_eq_self_iff (t : Timestamp) :
    t.wholeMinutes = t ↔ ∀ o ∈ t.offset, 60 ∣ o := by
  have hminutes : ∀ o : Int, o.tdiv 60 * 60 = o ↔ 60 ∣ o :=
    fun o => ⟨fun h => ⟨o.tdiv 60, by omega⟩, Int.tdiv_mul_cancel⟩
  obtain ⟨date, hour, minute, second, micro, offset⟩ := t
  cases offset <;> simp [wholeMinutes, hminutes]

theorem Result.wholeMinutes_eq_self_iff (r : Result) :
    r.wholeMinutes = r ↔ ∀ o ∈ r.about.timestamp.offset, 60 ∣ o := by
  rw [← Timestamp.wholeMinutes_eq_self_iff]
  obtain ⟨⟨timestamp, _, _, _, _, _⟩, _, _, _⟩ := r
  simp [wholeMinutes]

/-- What reading a report and checking it gives: the result without the seconds of the offset, or
nothing if an integer is too long. -/
theorem Result.exists_parse_check_iff (now : Timestamp) {r : Result} (h : r.WellFormed)
    (other : Result) :
    (∃ v, Json.parse (Report.render r .json).toList = .ok v ∧
        Result.check now v = .valid other) ↔
      (∀ i ∈ r.integers, Convertible i) ∧ r.wholeMinutes = other := by
  have hparse : ∀ v, Json.parse (Report.render r .json).toList = .ok v ↔
      Legible r.toValue ∧ v = r.toValue := Json.parse_render_pretty_iff r.plain_toValue
  simp only [hparse, r.legible_toValue, and_assoc, exists_and_left, exists_eq_left,
    check_toValue now h, Check.valid.injEq]

/-- The morning of a day in January, with an offset from universal time. -/
def morning (offset : Option Int) : Timestamp := ⟨⟨2024, 1, 2⟩, 3, 4, 5, 678900, offset⟩

def schemaResult : Result where
  about := ⟨morning (some 19800), "main", "HEAD", toolName, toolVersion, none⟩
  summary := ⟨1, 1, true, [⟨"api", 1, 1⟩]⟩
  repos := [⟨"api", 1, [⟨"Query.users", "api", "schema.graphql", some 3,
    [⟨.schema, "schema.graphql", "Field \"users\" was removed"⟩], some ["check \\ users"]⟩], []⟩]
  crossImpacts := [⟨"api", "Query.users", "web", ["UserList", "Profile"], .graphqlSchema⟩]

theorem wellFormed_schemaResult : schemaResult.WellFormed :=
  ⟨by decide, by decide⟩

def countingResult (changedFiles : Int) (offset : Option Int) : Result where
  about := ⟨morning offset, "main", "HEAD", toolName, toolVersion, none⟩
  summary := ⟨changedFiles, 0, false, []⟩
  repos := []
  crossImpacts := []

end Ripple
