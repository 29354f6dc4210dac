import Mathlib.Computability.Language
import Ripple.Regex.Basic

/-! # The words that a search can match

The search hands each way to match a part to what remains to be matched, and tries the next way if
that fails. So it succeeds if and only if some word of the part's language comes next and what
remains succeeds behind it. This is shown for characters, sequences and greedy repetitions without
bounds. A repetition may skip rounds that match nothing, because they do not change the place.
-/
namespace Ripple.Regex

open Computability

structure Cursor.Passes (s : Cursor) (w : List Char) (t : Cursor) : Prop where
  ahead : s.ahead = w ++ t.ahead
  behind : t.behind = w.reverse ++ s.behind
  groups : t.groups = s.groups

namespace Cursor

variable {s t u : Cursor} {v w : List Char}

@[simp] theorem passes_nil : s.Passes [] t ↔ t = s := by
  constructor
  · rintro ⟨hahead, hbehind, hgroups⟩
    obtain ⟨behind, ahead, groups⟩ := s
    obtain ⟨behind', ahead', groups'⟩ := t
    simp_all
  · rintro rfl
    exact ⟨rfl, rfl, rfl⟩

theorem passes_append : s.Passes (v ++ w) u ↔ ∃ t, s.Passes v t ∧ t.Passes w u := by
  constructor
  · rintro ⟨hahead, hbehind, hgroups⟩
    refine ⟨⟨v.reverse ++ s.behind, w ++ u.ahead, s.groups⟩, ⟨?_, rfl, rfl⟩, ⟨rfl, ?_, hgroups⟩⟩
    · rw [hahead, List.append_assoc]
    · rw [hbehind, List.reverse_append, List.append_assoc]
  · rintro ⟨t, hv, hw⟩
    refine ⟨?_, ?_, hw.groups.trans hv.groups⟩
    · rw [hv.ahead, hw.ahead, List.append_assoc]
    · rw [hw.behind, hv.behind, List.reverse_append, List.append_assoc]

theorem Passes.length_lt (h : s.Passes w t) (hw : w ≠ []) : t.ahead.length < s.ahead.length := by
  have hpos := List.length_pos_iff.mpr hw
  rw [h.ahead, List.length_append]
  omega

theorem advance?_cons (test : Char → Bool) (c : Char) (behind rest : List Char)
    (groups : List (Nat × List Char)) :
    advance? test ⟨behind, c :: rest, groups⟩ =
      if test c then some ⟨c :: behind, rest, groups⟩ else none :=
  rfl

theorem passes_singleton_cons {c d : Char} {behind rest : List Char}
    {groups : List (Nat × List Char)} :
    Passes ⟨behind, d :: rest, groups⟩ [c] t ↔ c = d ∧ t = ⟨d :: behind, rest, groups⟩ := by
  constructor
  · rintro ⟨hahead, hbehind, hgroups⟩
    obtain ⟨behind', ahead', groups'⟩ := t
    simp_all
  · rintro ⟨rfl, rfl⟩
    exact ⟨rfl, rfl, rfl⟩

theorem advance?_eq_some_iff {test : Char → Bool} :
    s.advance? test = some t ↔ ∃ c, test c = true ∧ s.Passes [c] t := by
  obtain ⟨behind, ahead, groups⟩ := s
  cases ahead with
  | nil =>
    constructor
    · intro h
      cases h
    · rintro ⟨c, -, hpasses⟩
      cases hpasses.ahead
  | cons d rest =>
    rw [advance?_cons]
    by_cases hd : test d = true
    · simp [passes_singleton_cons, hd, @eq_comm _ t]
    · simp [passes_singleton_cons, hd]

theorem exists_passes_start_iff {s : List Char} :
    (∃ t, (start s).Passes w t) ↔ w <+: s := by
  constructor
  · rintro ⟨t, h⟩
    exact ⟨t.ahead, h.ahead.symm⟩
  · rintro ⟨rest, rfl⟩
    exact ⟨⟨w.reverse, rest, []⟩, rfl, by simp [start], rfl⟩

end Cursor

/-- What a part finds: it succeeds where a word of the language comes next and what remains to be
matched succeeds behind it. -/
def Finds (part : Continuation → Continuation) (l : Language Char) : Prop :=
  ∀ k s, (part k s).isSome = true ↔ ∃ w ∈ l, ∃ t, s.Passes w t ∧ (k t).isSome = true

/-- The ways to match the expression are the words of the language. -/
def Denotes (r : Regex) (l : Language Char) : Prop := Finds r.run l

variable {r r' : Regex} {l l' : Language Char}

theorem append_mem_kstar {v w : List Char} (hv : v ∈ l) (hw : w ∈ l∗) : v ++ w ∈ l∗ := by
  obtain ⟨words, rfl, hwords⟩ := Language.mem_kstar.mp hw
  exact Language.mem_kstar.mpr ⟨v :: words, rfl, List.forall_mem_cons.mpr ⟨hv, hwords⟩⟩

/-- A word of a repetition is empty or begins with a word that is not. -/
theorem exists_mem_kstar_iff {P : List Char → Prop} :
    (∃ w ∈ l∗, P w) ↔ P [] ∨ ∃ v ∈ l, v ≠ [] ∧ ∃ w ∈ l∗, P (v ++ w) := by
  constructor
  · rintro ⟨w, hw, hP⟩
    obtain ⟨words, rfl, hwords⟩ := Language.mem_kstar_iff_exists_nonempty.mp hw
    cases words with
    | nil => exact .inl hP
    | cons v words =>
      obtain ⟨⟨hv, hne⟩, hwords⟩ := List.forall_mem_cons.mp hwords
      have hrest : words.flatten ∈ l∗ := Language.join_mem_kstar fun w hw => (hwords w hw).1
      exact .inr ⟨v, hv, hne, words.flatten, hrest, hP⟩
  · rintro (hP | ⟨v, hv, -, w, hw, hP⟩)
    · exact ⟨[], Language.nil_mem_kstar l, hP⟩
    · exact ⟨v ++ w, append_mem_kstar hv hw, hP⟩

/-- The words of one character with a property. -/
def oneChar (p : Char → Prop) : Language Char := {w | ∃ c, p c ∧ w = [c]}

/-- Repeated, they are the words all of whose characters have the property. -/
theorem mem_kstar_oneChar {p : Char → Prop} {w : List Char} :
    w ∈ (oneChar p)∗ ↔ ∀ c ∈ w, p c := by
  constructor
  · rw [Language.mem_kstar]
    rintro ⟨words, rfl, hwords⟩ c hc
    obtain ⟨word, hword, hc⟩ := List.mem_flatten.mp hc
    obtain ⟨d, hd, rfl⟩ := hwords word hword
    rw [List.mem_singleton] at hc
    rwa [hc]
  · intro h
    induction w with
    | nil => exact Language.nil_mem_kstar _
    | cons c rest ih =>
      obtain ⟨hc, hrest⟩ := List.forall_mem_cons.mp h
      have hone : [c] ∈ oneChar p := ⟨c, hc, rfl⟩
      exact append_mem_kstar hone (ih hrest)

theorem denotes_empty : Denotes .empty 1 := by
  intro k s
  simp [run, Language.mem_one]

theorem finds_advance? (test : Char → Bool) :
    Finds (fun k s => (s.advance? test).bind k) (oneChar fun c => test c = true) := by
  intro k s
  rw [Option.isSome_bind, Option.any_eq_true]
  simp only [Cursor.advance?_eq_some_iff]
  constructor
  · rintro ⟨t, ⟨c, hc, hpasses⟩, hk⟩
    exact ⟨[c], ⟨c, hc, rfl⟩, t, hpasses, hk⟩
  · rintro ⟨_, ⟨c, hc, rfl⟩, t, hpasses, hk⟩
    exact ⟨t, ⟨c, hc, hpasses⟩, hk⟩

theorem denotes_anyChar : Denotes .anyChar (oneChar fun c => c ≠ '\n') := by
  have h := finds_advance? fun c => c != '\n'
  simp only [bne_iff_ne] at h
  exact h

theorem denotes_oneOf (negated : Bool) (items : List ClassItem) :
    Denotes (.oneOf negated items)
      (oneChar fun c => (items.any (·.holds c) != negated) = true) :=
  finds_advance? _

theorem Denotes.seq (h : Denotes r l) (h' : Denotes r' l') : Denotes (.seq r r') (l * l') := by
  intro k s
  rw [run, h]
  simp only [h' k, Language.mem_mul]
  constructor
  · rintro ⟨v, hv, t, hpasses, w, hw, u, hpasses', hk⟩
    exact ⟨v ++ w, ⟨v, hv, w, hw, rfl⟩, u, Cursor.passes_append.mpr ⟨t, hpasses, hpasses'⟩, hk⟩
  · rintro ⟨_, ⟨v, hv, w, hw, rfl⟩, u, hpasses, hk⟩
    obtain ⟨t, hpasses, hpasses'⟩ := Cursor.passes_append.mp hpasses
    exact ⟨v, hv, t, hpasses, w, hw, u, hpasses', hk⟩

theorem denotes_concat {parts : List Regex} {languages : List (Language Char)}
    (h : List.Forall₂ Denotes parts languages) : Denotes (concat parts) languages.prod := by
  induction h with
  | nil => exact denotes_empty
  | @cons part language rest others hpart hrest ih =>
    cases hrest with
    | nil => simpa [concat] using hpart
    | cons hnext hrest => exact hpart.seq ih

/-- A round that gets no further ends the repetition. -/
theorem more_of_stuck (round : Continuation → Continuation) (k : Continuation) (fuel : Nat)
    (t : Cursor) : more round k fuel none (some t.ahead.length) t = k t := by
  cases fuel with
  | zero => rfl
  | succ fuel => simp [more]

variable {round : Continuation → Continuation}

/-- Either the repetition ends, or a word that is not empty comes next and the repetition goes on
behind it. -/
theorem Finds.more_succ (h : Finds round l) (k : Continuation) (fuel : Nat) {last : Option Nat}
    {s : Cursor} (hlast : last ≠ some s.ahead.length) :
    (more round k (fuel + 1) none last s).isSome = true ↔
      (k s).isSome = true ∨ ∃ w ∈ l, w ≠ [] ∧ ∃ t, s.Passes w t ∧
        (more round k fuel none (some s.ahead.length) t).isSome = true := by
  rw [more, if_neg (by simp [hlast]), Option.orElse_eq_or, Option.isSome_or, Bool.or_eq_true, h,
    Option.map_none]
  constructor
  · rintro (⟨w, hw, t, hpasses, hmore⟩ | hk)
    · by_cases hempty : w = []
      · rw [hempty, Cursor.passes_nil] at hpasses
        rw [hpasses, more_of_stuck] at hmore
        exact .inl hmore
      · exact .inr ⟨w, hw, hempty, t, hpasses, hmore⟩
    · exact .inl hk
  · rintro (hk | ⟨w, hw, -, t, hpasses, hmore⟩)
    · exact .inr hk
    · exact .inl ⟨w, hw, t, hpasses, hmore⟩

/-- With enough fuel the repetition finds the repetitions of the language. -/
theorem Finds.more (h : Finds round l) (k : Continuation) {fuel : Nat} {last : Option Nat}
    {s : Cursor} (hfuel : s.ahead.length < fuel) (hlast : last ≠ some s.ahead.length) :
    (more round k fuel none last s).isSome = true ↔
      ∃ w ∈ l∗, ∃ t, s.Passes w t ∧ (k t).isSome = true := by
  induction fuel generalizing last s with
  | zero => omega
  | succ fuel ih =>
    have hnext : ∀ w t, w ≠ [] → s.Passes w t →
        ((Regex.more round k fuel none (some s.ahead.length) t).isSome = true ↔
          ∃ v ∈ l∗, ∃ u, t.Passes v u ∧ (k u).isSome = true) := by
      intro w t hw hpasses
      have hlt := hpasses.length_lt hw
      exact ih (by omega) (by simp; omega)
    rw [h.more_succ k fuel hlast, exists_mem_kstar_iff]
    apply or_congr
    · simp
    · refine exists_congr fun w => and_congr_right fun _ => and_congr_right fun hw => ?_
      constructor
      · rintro ⟨t, hpasses, hmore⟩
        obtain ⟨v, hv, u, hrest, hk⟩ := (hnext w t hw hpasses).mp hmore
        exact ⟨v, hv, u, Cursor.passes_append.mpr ⟨t, hpasses, hrest⟩, hk⟩
      · rintro ⟨v, hv, u, hpasses, hk⟩
        obtain ⟨t, hpasses, hrest⟩ := Cursor.passes_append.mp hpasses
        exact ⟨t, hpasses, (hnext w t hw hpasses).mpr ⟨v, hv, u, hrest, hk⟩⟩

theorem Denotes.star (h : Denotes r l) : Denotes (.loop 0 none false r) l∗ := by
  intro k s
  exact h.more k (by omega) (by simp)

/-- A text starts with a match if and only if it begins with a word of the language. -/
theorem Denotes.matchesStart_iff (h : Denotes r l) (s : List Char) :
    r.matchesStart s = true ↔ ∃ w ∈ l, w <+: s := by
  rw [matchesStart, match?, h]
  simp [Cursor.exists_passes_start_iff]

end Ripple.Regex
