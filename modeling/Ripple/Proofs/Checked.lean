import Mathlib.Data.List.Forall2
import Ripple.Config.Document
import Ripple.Proofs.Outcome

/-! # What a valid check says

A check of several parts is valid if and only if each part is, and then it is made of what the parts
were read as. So what a check accepts can be taken apart, and what it should accept can be put
together, one part at a time.
-/
namespace Ripple

namespace Check

variable {α β : Type}

theorem map_eq_valid_iff {f : α → β} {x : Check α} {b : β} :
    f <$> x = .valid b ↔ ∃ a, x = .valid a ∧ f a = b := by
  cases x <;> simp [Functor.map, Check.map]

theorem seq_eq_valid_iff {f : Check (α → β)} {x : Check α} {b : β} :
    f <*> x = .valid b ↔ ∃ g a, f = .valid g ∧ x = .valid a ∧ g a = b := by
  cases f <;> cases x <;> simp [Seq.seq, Check.seq]

theorem under_eq_valid_iff {step : Step} {x : Check α} {a : α} :
    x.under step = .valid a ↔ x = .valid a := by
  cases x <;> simp [under]

theorem andThen_eq_valid_iff {x : Check α} {f : α → Check β} {b : β} :
    x.andThen f = .valid b ↔ ∃ a, x = .valid a ∧ f a = .valid b := by
  cases x <;> simp [Check.andThen]

theorem items_eq_valid_iff {check : Checker α} {n : Nat} {vs : List Value} {as : List α} :
    items check n vs = .valid as ↔ List.Forall₂ (fun v a => check v = .valid a) vs as := by
  induction vs generalizing n as with
  | nil => simp [items, eq_comm]
  | cons v rest ih =>
    have hcons : items check n (v :: rest) =
        (List.cons <$> (check v).under (.index n)) <*> items check (n + 1) rest := rfl
    rw [hcons, seq_eq_valid_iff, List.forall₂_cons_left_iff]
    simp only [map_eq_valid_iff, under_eq_valid_iff, ih]
    constructor
    · rintro ⟨_, others, ⟨a, ha, rfl⟩, hothers, rfl⟩
      exact ⟨a, others, ha, hothers, rfl⟩
    · rintro ⟨a, others, ha, hothers, rfl⟩
      exact ⟨_, others, ⟨a, ha, rfl⟩, hothers, rfl⟩

end Check

namespace Checker

open Check

variable {α : Type}

theorem sizedText_eq_valid_iff {least : Nat} {most : Option Nat} {v : Value} {s : String} :
    sizedText least most v = .valid s ↔
      text v = .valid s ∧ least ≤ s.length ∧ ∀ n ∈ most, s.length ≤ n := by
  rw [sizedText, andThen_eq_valid_iff]
  constructor
  · rintro ⟨s', htext, h⟩
    cases most <;> grind [Check.fail]
  · rintro ⟨htext, hleast, hmost⟩
    refine ⟨s, htext, ?_⟩
    rw [if_neg (Nat.not_lt.mpr hleast)]
    cases most with
    | none => rfl
    | some most => exact if_neg (Nat.not_lt.mpr (hmost most rfl))

theorem list_eq_valid_iff {check : Checker α} {v : Value} {as : List α} :
    list check v = .valid as ↔ ∃ vs, (v = .list vs ∨ v = .set vs) ∧
      List.Forall₂ (fun v a => check v = .valid a) vs as := by
  cases v <;> simp [list, items_eq_valid_iff, Check.fail]

theorem record_eq_valid_iff {name : String} {fields : List (Value × Value) → Check α} {v : Value}
    {a : α} : record name fields v = .valid a ↔ ∃ es, v = .map es ∧ fields es = .valid a := by
  cases v <;> simp [record, Check.fail]

theorem required_eq_valid_iff {name : String} {check : Checker α} {es : List (Value × Value)}
    {a : α} : required name check es = .valid a ↔
      ∃ v, Value.find? name es = some v ∧ check v = .valid a := by
  rw [required]
  cases Value.find? name es <;> simp [under_eq_valid_iff, Check.fail]

theorem defaulted_eq_valid_iff {name : String} {check : Checker α} {default : α}
    {es : List (Value × Value)} {a : α} : defaulted name check default es = .valid a ↔
      (∃ v, Value.find? name es = some v ∧ check v = .valid a) ∨
        Value.find? name es = none ∧ default = a := by
  rw [defaulted]
  cases Value.find? name es <;> simp [under_eq_valid_iff]

end Checker

open Checker

theorem Repository.check_eq_valid_iff {homes : Homes} {v : Value} {r : Repository} :
    Repository.check homes v = .valid r ↔ ∃ es, v = .map es ∧
      required "name" (sizedText 1 (some 100)) es = .valid r.name ∧
      required "path" (repositoryPath homes) es = .valid r.path ∧
      required "type" RepoKind.check es = .valid r.kind ∧
      required "analyzers" (atLeast 1 (list AnalyzerKind.check)) es = .valid r.analyzers ∧
      defaulted "include_paths" (optional (list text)) none es = .valid r.includePaths ∧
      defaulted "exclude_paths" (optional (list text)) none es = .valid r.excludePaths := by
  rw [Repository.check, record_eq_valid_iff]
  refine exists_congr fun es => and_congr_right fun _ => ?_
  simp only [Check.seq_eq_valid_iff, Check.map_eq_valid_iff]
  constructor
  · rintro ⟨_, _, ⟨_, _, ⟨_, _, ⟨_, _, ⟨_, _, ⟨name, hname, rfl⟩, hpath, rfl⟩, hkind, rfl⟩,
      hanalyzers, rfl⟩, hincluded, rfl⟩, hexcluded, rfl⟩
    exact ⟨hname, hpath, hkind, hanalyzers, hincluded, hexcluded⟩
  · rintro ⟨hname, hpath, hkind, hanalyzers, hincluded, hexcluded⟩
    exact ⟨_, _, ⟨_, _, ⟨_, _, ⟨_, _, ⟨_, _, ⟨_, hname, rfl⟩, hpath, rfl⟩, hkind, rfl⟩,
      hanalyzers, rfl⟩, hincluded, rfl⟩, hexcluded, rfl⟩

theorem Config.check_eq_valid_iff {homes : Homes} {es : List (Value × Value)} {c : Config} :
    Config.check homes es = .valid c ↔
      defaulted "repos" (list (Repository.check homes)) [] es = .valid c.repos ∧
      defaulted "relations" (list Relation.check) [] es = .valid c.relations ∧
      defaulted "output" OutputConfig.check OutputConfig.standard es = .valid c.output ∧
      defaulted "logging" LoggingConfig.check LoggingConfig.standard es = .valid c.logging ∧
      checkSurplus es = .valid () ∧ c.brokenRule? = none := by
  rw [Config.check, Check.andThen_eq_valid_iff]
  simp only [Check.seq_eq_valid_iff, Check.map_eq_valid_iff]
  constructor
  · rintro ⟨_, ⟨_, _, ⟨_, _, ⟨_, _, ⟨_, _, ⟨repos, hrepos, rfl⟩, hrelations, rfl⟩, houtput, rfl⟩,
      hlogging, rfl⟩, hsurplus, rfl⟩, hrules⟩
    split at hrules
    · cases hrules
    · rename_i hrule
      cases hrules
      exact ⟨hrepos, hrelations, houtput, hlogging, hsurplus, hrule⟩
  · rintro ⟨hrepos, hrelations, houtput, hlogging, hsurplus, hrule⟩
    refine ⟨c, ⟨_, _, ⟨_, _, ⟨_, _, ⟨_, _, ⟨_, hrepos, rfl⟩, hrelations, rfl⟩, houtput, rfl⟩,
      hlogging, rfl⟩, hsurplus, rfl⟩, ?_⟩
    rw [hrule]

/-- Every repository of a valid configuration has been checked. -/
theorem Config.exists_check_of_mem {homes : Homes} {es : List (Value × Value)} {c : Config}
    (h : Config.check homes es = .valid c) {r : Repository} (hr : r ∈ c.repos) :
    ∃ v, Repository.check homes v = .valid r := by
  obtain ⟨hrepos, -⟩ := Config.check_eq_valid_iff.mp h
  rcases defaulted_eq_valid_iff.mp hrepos with ⟨v, -, hv⟩ | ⟨-, hnone⟩
  · obtain ⟨vs, -, hall⟩ := list_eq_valid_iff.mp hv
    obtain ⟨item, -, hitem⟩ := Outcome.exists_of_mem_forall₂ hall hr
    exact ⟨item, hitem⟩
  · rw [← hnone] at hr
    cases hr

end Ripple
