import Ripple.Config.Document

/-! # Where a check breaks off

Complaints are collected, but a break ends a check, and the first one counts. Of all parts of a
configuration only the path of a repository can break its check off: when it is no text, or when it
starts in the home directory of an unknown user.
-/
namespace Ripple

namespace Check

variable {α β : Type}

def break? : Check α → Option Break
  | .broken why => some why
  | _ => none

@[simp] theorem break?_fail (flaw : Flaw) : (fail flaw : Check α).break? = none := rfl

@[simp] theorem break?_valid (a : α) : (Check.valid a).break? = none := rfl

@[simp] theorem break?_map (f : α → β) (x : Check α) : (Check.map f x).break? = x.break? := by
  cases x <;> rfl

@[simp] theorem break?_functor (f : α → β) (x : Check α) : (f <$> x).break? = x.break? :=
  break?_map f x

@[simp] theorem break?_seq (f : Check (α → β)) (x : Check α) :
    (Check.seq f x).break? = f.break?.or x.break? := by
  cases f <;> cases x <;> rfl

@[simp] theorem break?_applicative (f : Check (α → β)) (x : Check α) :
    (f <*> x).break? = f.break?.or x.break? :=
  break?_seq f x

@[simp] theorem break?_under (step : Step) (x : Check α) : (x.under step).break? = x.break? := by
  cases x <;> rfl

/-- A further check that cannot break off changes nothing about the breaks. -/
theorem break?_andThen {f : α → Check β} (h : ∀ a, (f a).break? = none) (x : Check α) :
    (x.andThen f).break? = x.break? := by
  cases x with
  | valid a => exact h a
  | _ => rfl

@[simp] theorem break?_items (check : Checker α) (n : Nat) (vs : List Value) :
    (items check n vs).break? = vs.findSome? fun v => (check v).break? := by
  induction vs generalizing n with
  | nil => rfl
  | cons v rest ih =>
    rw [items, break?_seq, break?_map, break?_under, ih, List.findSome?_cons]
    cases (check v).break? <;> rfl

end Check

namespace Checker

open Check (break?)

variable {α : Type}

/-- A check that never breaks off. -/
def NeverBreaks (check : Checker α) : Prop := ∀ v, (check v).break? = none

theorem neverBreaks_text : NeverBreaks text := by
  intro v
  rw [text.eq_def]
  split
  · rfl
  · rfl
  · split <;> rfl
  · rfl

theorem neverBreaks_sizedText (least : Nat) (most : Option Nat) :
    NeverBreaks (sizedText least most) := by
  intro v
  rw [sizedText, Check.break?_andThen, neverBreaks_text]
  intro s
  split
  · rfl
  · split
    · split <;> rfl
    · rfl

theorem neverBreaks_member (choices : List (String × α)) : NeverBreaks (member choices) := by
  intro v
  rw [member.eq_def]
  split
  · split <;> rfl
  · rfl

theorem neverBreaks_literal (choices : List (String × α)) : NeverBreaks (literal choices) := by
  intro v
  rw [literal.eq_def]
  split
  · split <;> rfl
  · rfl

theorem neverBreaks_path : NeverBreaks path := by
  intro v
  rw [path.eq_def]
  split <;> rfl

theorem NeverBreaks.optional {check : Checker α} (h : NeverBreaks check) :
    NeverBreaks (optional check) := by
  intro v
  rw [Checker.optional.eq_def]
  split
  · rfl
  · rw [Check.break?_map, h]

theorem break?_list (check : Checker α) (v : Value) :
    (list check v).break? =
      match v with
      | .list vs | .set vs => vs.findSome? fun v => (check v).break?
      | _ => none := by
  rw [list.eq_def]
  split <;> simp

theorem NeverBreaks.list {check : Checker α} (h : NeverBreaks check) :
    NeverBreaks (list check) := by
  intro v
  rw [break?_list]
  split <;> simp [h _]

theorem NeverBreaks.atLeast {check : Checker (List α)} (h : NeverBreaks check) (least : Nat) :
    NeverBreaks (atLeast least check) := by
  intro v
  rw [Checker.atLeast, Check.break?_andThen, h]
  intro as
  split <;> rfl

theorem break?_record (name : String) (fields : List (Value × Value) → Check α) (v : Value) :
    (record name fields v).break? =
      match v with
      | .map es => (fields es).break?
      | _ => none := by
  cases v <;> rfl

theorem break?_required (name : String) (check : Checker α) (es : List (Value × Value)) :
    (required name check es).break? = (Value.find? name es).bind fun v => (check v).break? := by
  rw [required]
  cases Value.find? name es <;> simp

theorem break?_defaulted (name : String) (check : Checker α) (default : α)
    (es : List (Value × Value)) :
    (defaulted name check default es).break? =
      (Value.find? name es).bind fun v => (check v).break? := by
  rw [defaulted]
  cases Value.find? name es <;> simp

theorem NeverBreaks.required {check : Checker α} (h : NeverBreaks check) (name : String)
    (es : List (Value × Value)) : (required name check es).break? = none := by
  rw [break?_required]
  cases Value.find? name es with
  | none => rfl
  | some v => exact h v

theorem NeverBreaks.defaulted {check : Checker α} (h : NeverBreaks check) (name : String)
    (default : α) (es : List (Value × Value)) :
    (defaulted name check default es).break? = none := by
  rw [break?_defaulted]
  cases Value.find? name es with
  | none => rfl
  | some v => exact h v

end Checker

open Checker

theorem Relation.neverBreaks_check : NeverBreaks Relation.check := by
  intro v
  have hkind : NeverBreaks RelationKind.check := neverBreaks_member _
  rw [Relation.check, break?_record]
  split
  · simp only [Check.break?_applicative, Check.break?_functor,
      (neverBreaks_sizedText 1 none).required, hkind.required,
      neverBreaks_text.list.optional.defaulted, Option.or_none]
  · rfl

theorem OutputConfig.neverBreaks_check : NeverBreaks OutputConfig.check := by
  intro v
  have hformat : NeverBreaks ReportFormat.check := neverBreaks_literal _
  rw [OutputConfig.check, break?_record]
  split
  · simp only [Check.break?_applicative, Check.break?_functor, neverBreaks_path.defaulted,
      hformat.list.defaulted, Option.or_none]
  · rfl

theorem LoggingConfig.neverBreaks_check : NeverBreaks LoggingConfig.check := by
  intro v
  have hlevel : NeverBreaks LogLevel.check := neverBreaks_literal _
  have hformat : NeverBreaks LogFormat.check := neverBreaks_literal _
  rw [LoggingConfig.check, break?_record]
  split
  · simp only [Check.break?_applicative, Check.break?_functor,
      hlevel.defaulted, hformat.defaulted, neverBreaks_path.optional.defaulted,
      neverBreaks_text.defaulted, Option.or_none]
  · rfl

/-- Of a repository, only its path can break the check off. -/
theorem Repository.break?_check (homes : Homes) (v : Value) :
    (Repository.check homes v).break? =
      (v.get? "path").bind fun p => (repositoryPath homes p).break? := by
  have hkind : NeverBreaks RepoKind.check := neverBreaks_member _
  have hanalyzer : NeverBreaks AnalyzerKind.check := neverBreaks_member _
  rw [Repository.check, break?_record]
  cases v with
  | map es =>
    simp only [Check.break?_applicative, Check.break?_functor,
      (neverBreaks_sizedText 1 (some 100)).required, hkind.required,
      (hanalyzer.list.atLeast 1).required,
      neverBreaks_text.list.optional.defaulted, Option.or_none, Option.none_or, break?_required,
      Value.get?]
  | _ => rfl

/-- Why the path of a repository breaks its check off. -/
theorem Checker.break?_repositoryPath (homes : Homes) (v : Value) :
    (repositoryPath homes v).break? =
      match v with
      | .text s => if s.isEmpty then none else (homes.expand (Path.ofString s)).break?
      | .brokenText => some .unencodable
      | v => some (.notPathLike v.qualifiedKindName) := by
  cases v with
  | text s => cases hs : s.isEmpty <;> simp [repositoryPath, hs]
  | _ => rfl

theorem Config.break?_checkSurplus (es : List (Value × Value)) :
    (checkSurplus es).break? = none := by
  induction es with
  | nil => rfl
  | cons e rest ih =>
    obtain ⟨k, v⟩ := e
    cases k with
    | text k =>
      rw [checkSurplus]
      split
      · exact ih
      · simp [ih]
    | _ => exact ih

/-- Of a configuration, only the repositories can break the check off. -/
theorem Config.break?_check (homes : Homes) (entries : List (Value × Value)) :
    (Config.check homes entries).break? =
      match Value.find? "repos" entries with
      | some (.list items) | some (.set items) =>
        items.findSome? fun item => (Repository.check homes item).break?
      | _ => none := by
  rw [Config.check, Check.break?_andThen]
  · simp only [Check.break?_applicative, Check.break?_functor, break?_defaulted "repos",
      break?_list, Relation.neverBreaks_check.list.defaulted,
      OutputConfig.neverBreaks_check.defaulted, LoggingConfig.neverBreaks_check.defaulted,
      break?_checkSurplus, Option.or_none]
    cases Value.find? "repos" entries with
    | none => rfl
    | some v => cases v <;> rfl
  · intro c
    split <;> rfl

end Ripple
