import Mathlib.Data.List.Infix
import Ripple.Glob

/-! # When asking globs fails

The only pattern that cannot be asked is one with a repetition count out of range. Patterns are
asked from the left, so such a pattern does harm only where no pattern before it selects the path.
-/
namespace Ripple.Glob

theorem expression_star {rest : List Char} (h : ∀ r, rest = '*' :: r → False) :
    expression ('*' :: rest) = '[' :: '^' :: '/' :: ']' :: '*' :: expression rest := by
  rw [expression]
  exact h

theorem expression_self {c : Char} (hstar : c ≠ '*') (hmark : c ≠ '?') (hnul : c ≠ '\x00')
    (rest : List Char) : expression (c :: rest) = c :: expression rest := by
  rw [expression] <;> simp_all

/-- The characters that stand in an expression for wildcards. -/
def insertedChars : List Char := ['.', '*', '[', '^', '/', ']']

section

variable {w : List Char}

theorem eq_nil_of_prefix_inserted {c : Char} {s : List Char} (hc : c ∈ insertedChars)
    (hw : ∀ d ∈ w, d ∉ insertedChars) (h : w <+: c :: s) : w = [] := by
  cases w with
  | nil => rfl
  | cons d w =>
    obtain ⟨rfl, _⟩ := List.cons_prefix_cons.mp h
    exact absurd hc (hw d List.mem_cons_self)

theorem prefix_of_expression {pattern : List Char} (hw : ∀ c ∈ w, c ∉ insertedChars)
    (h : w <+: expression pattern) : w <+: pattern := by
  induction pattern using expression.induct generalizing w with
  | case1 => exact h
  | case2 rest ih | case4 rest ih | case5 rest ih =>
    rw [eq_nil_of_prefix_inserted (by decide) hw h]
    exact List.nil_prefix
  | case3 rest hrest ih =>
    rw [expression_star hrest] at h
    rw [eq_nil_of_prefix_inserted (by decide) hw h]
    exact List.nil_prefix
  | case6 c rest _ hstar hmark hnul ih =>
    rw [expression_self hstar hmark hnul] at h
    cases w with
    | nil => exact List.nil_prefix
    | cons d w =>
      obtain ⟨rfl, htail⟩ := List.cons_prefix_cons.mp h
      have hrest : w <+: rest := ih (fun c hc => hw c (List.mem_cons_of_mem d hc)) htail
      exact List.cons_prefix_cons.mpr ⟨rfl, hrest⟩

theorem infix_of_inserted (inserted : List Char) {s : List Char}
    (hin : ∀ c ∈ inserted, c ∈ insertedChars) (hw : ∀ c ∈ w, c ∉ insertedChars)
    (h : w <:+: inserted ++ s) : w <:+: s := by
  induction inserted with
  | nil => exact h
  | cons c inserted ih =>
    rcases List.infix_cons_iff.mp h with hprefix | htail
    · rw [eq_nil_of_prefix_inserted (hin c List.mem_cons_self) hw hprefix]
      exact List.nil_infix
    · exact ih (fun d hd => hin d (List.mem_cons_of_mem c hd)) htail

/-- What is in an expression and has none of the inserted characters is in the pattern. -/
theorem infix_of_expression {pattern : List Char} (hw : ∀ c ∈ w, c ∉ insertedChars)
    (h : w <:+: expression pattern) : w <:+: pattern := by
  induction pattern using expression.induct with
  | case1 => exact h
  | case2 rest ih =>
    have htail := ih (infix_of_inserted ['.', '*'] (by simp [insertedChars]) hw h)
    exact htail.trans (List.suffix_append ['*', '*'] rest).isInfix
  | case3 rest hrest ih =>
    rw [expression_star hrest] at h
    have htail := ih (infix_of_inserted ['[', '^', '/', ']', '*'] (by simp [insertedChars]) hw h)
    exact htail.trans (List.suffix_cons '*' rest).isInfix
  | case4 rest ih =>
    have htail := ih (infix_of_inserted ['.'] (by simp [insertedChars]) hw h)
    exact htail.trans (List.suffix_cons '?' rest).isInfix
  | case5 rest ih =>
    have htail := ih (infix_of_inserted ['.', '*'] (by simp [insertedChars]) hw h)
    exact htail.trans (List.suffix_cons '\x00' rest).isInfix
  | case6 c rest _ hstar hmark hnul ih =>
    have hself := expression_self hstar hmark hnul rest
    rcases List.infix_cons_iff.mp (hself ▸ h) with hprefix | htail
    · exact (prefix_of_expression hw (hself ▸ hprefix)).isInfix
    · exact (ih htail).trans (List.suffix_cons c rest).isInfix

theorem notMem_expression {c : Char} (hc : c ∉ insertedChars) {pattern : List Char}
    (h : c ∉ pattern) : c ∉ expression pattern := by
  intro hmem
  have hw : ∀ d ∈ [c], d ∉ insertedChars := by simpa using hc
  have hinfix := infix_of_expression hw ((List.singleton_infix_iff c _).mpr hmem)
  exact h ((List.singleton_infix_iff c _).mp hinfix)

end

variable [Regex.Names]

/-- The fault of a pattern with a repetition count out of range. -/
def refusal? (pattern : String) : Option Regex.Fault :=
  match Regex.parse (expression pattern.toList) with
  | .ok _ | .error .malformed => none
  | .error f => some f

/-- A repetition count of the pattern is out of range. -/
def Oversized (pattern : String) : Prop := ∃ f, refusal? pattern = some f

/-- An oversized pattern is asked about the path before another pattern selects it. -/
def Stalls (path : String) (patterns : List String) : Prop :=
  ∃ before p after, patterns = before ++ p :: after ∧ Oversized p ∧
    ∀ q ∈ before, selects q path = .ok false

/-- Asking a pattern fails with its own fault, whatever the path. -/
theorem selects_eq_error_iff {pattern path : String} {f : Regex.Fault} :
    selects pattern path = .error f ↔ refusal? pattern = some f := by
  rw [selects, refusal?]
  cases Regex.parse (expression pattern.toList) with
  | ok r => simp
  | error fault => cases fault <;> simp

theorem oversized_iff (pattern path : String) :
    Oversized pattern ↔ ∃ f, selects pattern path = .error f := by
  simp only [Oversized, selects_eq_error_iff]

theorem anySelects_cons (path p : String) (rest : List String) :
    anySelects path (p :: rest) =
      match selects p path with
      | .ok true => .ok true
      | .ok false => anySelects path rest
      | .error f => .error f := by
  rw [anySelects]
  cases selects p path with
  | ok b => cases b <;> rfl
  | error f => rfl

/-- An answer says whether some pattern selects the path. -/
theorem anySelects_eq_ok {path : String} {patterns : List String} {b : Bool}
    (h : anySelects path patterns = .ok b) :
    b = true ↔ ∃ p ∈ patterns, selects p path = .ok true := by
  induction patterns with
  | nil => cases h; simp
  | cons p rest ih =>
    rw [anySelects_cons] at h
    cases hp : selects p path with
    | error f => simp [hp] at h
    | ok c =>
      cases c with
      | true =>
        rw [hp] at h
        cases h
        simp [hp]
      | false =>
        rw [hp] at h
        rw [ih h]
        simp [hp]

theorem stalls_cons (path p : String) (rest : List String) :
    Stalls path (p :: rest) ↔ Oversized p ∨ selects p path = .ok false ∧ Stalls path rest := by
  constructor
  · rintro ⟨before, q, after, heq, hq, hbefore⟩
    cases before with
    | nil =>
      obtain ⟨rfl, _⟩ := List.cons.inj heq
      exact Or.inl hq
    | cons first others =>
      obtain ⟨rfl, rfl⟩ := List.cons.inj heq
      refine Or.inr ⟨hbefore p List.mem_cons_self, others, q, after, rfl, hq, ?_⟩
      exact fun r hr => hbefore r (List.mem_cons_of_mem p hr)
  · rintro (hp | ⟨hp, before, q, after, rfl, hq, hbefore⟩)
    · exact ⟨[], p, rest, rfl, hp, by simp⟩
    · refine ⟨p :: before, q, after, rfl, hq, ?_⟩
      intro r hr
      rcases List.mem_cons.mp hr with rfl | hr
      · exact hp
      · exact hbefore r hr

/-- There is no answer if and only if the patterns stall. -/
theorem anySelects_fails_iff (path : String) (patterns : List String) :
    (∃ f, anySelects path patterns = .error f) ↔ Stalls path patterns := by
  induction patterns with
  | nil => simp [anySelects, Stalls]
  | cons p rest ih =>
    rw [anySelects_cons, stalls_cons, ← ih]
    cases hp : selects p path with
    | error f => simp [oversized_iff p path, hp]
    | ok b =>
      have hsize : ¬ Oversized p := by simp [oversized_iff p path, hp]
      cases b <;> simp [hsize]

/-- Whatever the path, the fault is that of the first pattern with a count out of range. -/
theorem findSome?_refusal?_of_anySelects {path : String} {patterns : List String} {f : Regex.Fault}
    (h : anySelects path patterns = .error f) : patterns.findSome? refusal? = some f := by
  induction patterns with
  | nil => cases h
  | cons p rest ih =>
    rw [anySelects_cons] at h
    rw [List.findSome?_cons]
    split at h
    · cases h
    · rename_i hp
      have hnone : refusal? p = none := by
        rw [Option.eq_none_iff_forall_not_mem]
        intro g hg
        have hg' : selects p path = .error g := selects_eq_error_iff.mpr hg
        rw [hp] at hg'
        cases hg'
      rw [hnone]
      exact ih h
    · rename_i g hp
      cases h
      rw [selects_eq_error_iff.mp hp]

end Ripple.Glob
