import Ripple.Proofs.Glob
import Ripple.Proofs.RegexLanguage
import Ripple.Regex.Names

/-! # The language of a glob

A pattern is read from the left into pieces, a pair of stars being one piece, and its language is
the product of theirs. Where no character of the pattern has a further meaning in an expression, the
expression of the pattern is the row of the expressions of the pieces, so that the pattern selects
just the paths that begin with a word of its language.
-/
namespace Ripple.Glob

open Regex
open Computability

/-- What a pattern is made of. -/
inductive Piece where
  /-- A pair of stars: any text without line feeds. -/
  | anyText
  /-- A star for itself: any text without slashes. -/
  | segment
  /-- A question mark or a dot: any character but a line feed. -/
  | anyChar
  | char (c : Char)
  deriving DecidableEq, Repr

/-- The pieces of a pattern. Of a run of stars the leftmost two are a pair. -/
def pieces : List Char → List Piece
  | [] => []
  | '*' :: '*' :: rest => .anyText :: pieces rest
  | '*' :: rest => .segment :: pieces rest
  | '?' :: rest => .anyChar :: pieces rest
  | '.' :: rest => .anyChar :: pieces rest
  | c :: rest => .char c :: pieces rest

def Piece.language : Piece → Language Char
  | .anyText => {w | '\n' ∉ w}
  | .segment => {w | '/' ∉ w}
  | .anyChar => {w | ∃ c, c ≠ '\n' ∧ w = [c]}
  | .char c => {w | w = [c]}

/-- The words that a pattern stands for. -/
def language (pattern : List Char) : Language Char := ((pieces pattern).map Piece.language).prod

def specialChars : List Char :=
  ['\x00', '\\', '^', '$', '+', '\x7b', '\x7d', '[', ']', '|', '(', ')']

/-- The pattern has no character with a further meaning. -/
def Plain (pattern : List Char) : Prop := ∀ c ∈ pattern, c ∉ specialChars

def Piece.regex : Piece → Regex
  | .anyText => .loop 0 none false .anyChar
  | .segment => .loop 0 none false (.oneOf true [.range 47 47])
  | .anyChar => .anyChar
  | .char c => .char c

theorem holds_point (c d : Char) : (ClassItem.range c.toNat c.toNat).holds d = true ↔ d = c := by
  simp only [ClassItem.holds, Bool.and_eq_true, decide_eq_true_eq]
  constructor
  · rintro ⟨h, h'⟩
    exact Char.toNat_inj.mp (Nat.le_antisymm h' h)
  · rintro rfl
    simp

theorem Piece.denotes_regex (piece : Piece) : Denotes piece.regex piece.language := by
  cases piece with
  | anyText =>
    have hlanguage : (oneChar fun c => c ≠ '\n')∗ = language .anyText := by
      ext w
      rw [mem_kstar_oneChar]
      exact List.forall_mem_ne'
    rw [← hlanguage]
    exact denotes_anyChar.star
  | segment =>
    have hlanguage : (oneChar fun c => ([ClassItem.range 47 47].any (·.holds c) != true) = true)∗ =
        language .segment := by
      ext w
      have hslash : ∀ d, (ClassItem.range 47 47).holds d = true ↔ d = '/' := holds_point '/'
      rw [mem_kstar_oneChar]
      simp only [List.any_cons, List.any_nil, Bool.or_false, bne_iff_ne, ne_eq, hslash]
      exact List.forall_mem_ne'
    rw [← hlanguage]
    exact (denotes_oneOf true [.range 47 47]).star
  | anyChar => exact denotes_anyChar
  | char c =>
    have hlanguage :
        (oneChar fun d => ([ClassItem.range c.toNat c.toNat].any (·.holds d) != false) = true) =
          language (.char c) := by
      ext w
      simp [oneChar, language, holds_point]
    rw [← hlanguage]
    exact denotes_oneOf false [.range c.toNat c.toNat]

theorem denotes_pieces (ps : List Piece) :
    Denotes (concat (ps.map Piece.regex)) (ps.map Piece.language).prod := by
  apply denotes_concat
  rw [List.forall₂_map_left_iff, List.forall₂_map_right_iff, List.forall₂_same]
  exact fun piece _ => piece.denotes_regex

theorem tokens_of_notMem {s : List Char} (h : '\\' ∉ s) : tokens s = s.map .plain := by
  induction s with
  | nil => rfl
  | cons c rest ih =>
    rw [List.mem_cons, not_or] at h
    have hc : c ≠ '\\' := Ne.symm h.1
    simp [tokens, hc, ih h.2]

/-- Without a plus sign behind it, a repetition may give rounds back. -/
theorem repeatLast_of_notMem {s : List Char} (h : '+' ∉ s) {item : Regex}
    (hitem : repeatable item = true) (items : List Regex) (bounds : Nat × Option Nat) :
    repeatLast (item :: items) bounds (s.map .plain) =
      .ok (.loop bounds.1 bounds.2 false item :: items, s.map .plain) := by
  rw [repeatLast, if_pos hitem]
  cases s with
  | nil => simp
  | cons c rest =>
    rw [List.mem_cons, not_or] at h
    simp [Ne.symm h.1]

theorem Plain.tail {c : Char} {rest : List Char} (h : Plain (c :: rest)) : Plain rest :=
  fun d hd => h d (List.mem_cons_of_mem c hd)

theorem Plain.notMem_expression {pattern : List Char} (h : Plain pattern) :
    '\\' ∉ expression pattern ∧ '+' ∉ expression pattern := by
  constructor <;> refine Glob.notMem_expression (by decide) fun hmem => h _ hmem (by decide)

section Reading

variable [Names]

theorem readItems_dot (fuel : Nat) (groups : Groups) (items : List Regex) (ts : List Token) :
    readItems (fuel + 1) groups items (.plain '.' :: ts) =
      readItems fuel groups (.anyChar :: items) ts := by
  rw [readItems]

theorem readItems_notSlash (fuel : Nat) (groups : Groups) (items : List Regex) (ts : List Token) :
    readItems (fuel + 1) groups items
        (.plain '[' :: .plain '^' :: .plain '/' :: .plain ']' :: ts) =
      readItems fuel groups (.oneOf true [.range 47 47] :: items) ts := by
  rw [readItems]
  rfl

theorem readItems_star {s : List Char} (h : '+' ∉ s) (item : Regex) (hitem : repeatable item = true)
    (fuel : Nat) (groups : Groups) (items : List Regex) :
    readItems (fuel + 1) groups (item :: items) (.plain '*' :: s.map .plain) =
      readItems fuel groups (.loop 0 none false item :: items) (s.map .plain) := by
  rw [readItems, repeatLast_of_notMem h hitem]
  rfl

theorem readItems_char {c : Char} (hstar : c ≠ '*') (hmark : c ≠ '?') (hdot : c ≠ '.')
    (h : c ∉ specialChars) (fuel : Nat) (groups : Groups) (items : List Regex) (ts : List Token) :
    readItems (fuel + 1) groups items (.plain c :: ts) =
      readItems fuel groups (char c :: items) ts := by
  simp only [specialChars, List.mem_cons, List.not_mem_nil, or_false, not_or] at h
  rw [readItems] <;> simp_all

/-- The reader turns the expression of a plain pattern into the row of its pieces. -/
theorem readItems_expression {pattern : List Char} (h : Plain pattern) (groups : Groups)
    (items : List Regex) {fuel : Nat} (hfuel : (expression pattern).length < fuel) :
    readItems fuel groups items ((expression pattern).map .plain) =
      .ok (concat (items.reverse ++ (pieces pattern).map Piece.regex), groups, []) := by
  induction pattern using pieces.induct generalizing items fuel with
  | case1 =>
    obtain ⟨fuel, rfl⟩ := Nat.exists_eq_add_of_lt hfuel
    simp [expression, readItems, pieces]
  | case2 rest ih =>
    have hstar := readItems_star h.tail.tail.notMem_expression.2 .anyChar rfl
    rw [expression, List.length_cons, List.length_cons] at hfuel
    obtain ⟨fuel, rfl⟩ : ∃ n, fuel = n + 2 := ⟨fuel - 2, by omega⟩
    rw [expression, List.map_cons, List.map_cons, readItems_dot, hstar, ih h.tail.tail _ (by omega)]
    simp [pieces, Piece.regex]
  | case3 rest hrest ih =>
    have hstar := readItems_star h.tail.notMem_expression.2 (.oneOf true [.range 47 47]) rfl
    rw [expression_star hrest] at hfuel ⊢
    simp only [List.length_cons] at hfuel
    obtain ⟨fuel, rfl⟩ : ∃ n, fuel = n + 2 := ⟨fuel - 2, by omega⟩
    simp only [List.map_cons]
    rw [readItems_notSlash, hstar, ih h.tail _ (by omega)]
    simp [pieces, Piece.regex]
  | case4 rest ih =>
    rw [expression, List.length_cons] at hfuel
    obtain ⟨fuel, rfl⟩ : ∃ n, fuel = n + 1 := ⟨fuel - 1, by omega⟩
    rw [expression, List.map_cons, readItems_dot, ih h.tail _ (by omega)]
    simp [pieces, Piece.regex]
  | case5 rest ih =>
    have hself := expression_self (c := '.') (by decide) (by decide) (by decide) rest
    rw [hself, List.length_cons] at hfuel
    obtain ⟨fuel, rfl⟩ : ∃ n, fuel = n + 1 := ⟨fuel - 1, by omega⟩
    rw [hself, List.map_cons, readItems_dot, ih h.tail _ (by omega)]
    simp [pieces, Piece.regex]
  | case6 c rest _ hstar hmark hdot ih =>
    have hc : c ∉ specialChars := h c List.mem_cons_self
    have hnul : c ≠ '\x00' := fun hnul => hc (by simp [specialChars, hnul])
    have hself := expression_self hstar hmark hnul rest
    rw [hself, List.length_cons] at hfuel
    obtain ⟨fuel, rfl⟩ : ∃ n, fuel = n + 1 := ⟨fuel - 1, by omega⟩
    rw [hself, List.map_cons, readItems_char hstar hmark hdot hc, ih h.tail _ (by omega)]
    simp [pieces, Piece.regex]

theorem parse_expression {pattern : List Char} (h : Plain pattern) :
    Regex.parse (expression pattern) = .ok (concat ((pieces pattern).map Piece.regex)) := by
  have hitems := readItems_expression h ⟨0, []⟩ []
    (show (expression pattern).length < 2 * (expression pattern).length + 1 by omega)
  rw [parse, tokens_of_notMem h.notMem_expression.1]
  simp only [List.length_map]
  rw [readBranches, hitems]
  rfl

/-- A pattern whose characters have no further meaning can be asked about every path, and it selects
the path if and only if the path begins with a word of the pattern's language. -/
theorem selects_iff_language {pattern : String} (h : Plain pattern.toList) (path : String) :
    ∃ answer, selects pattern path = .ok answer ∧
      (answer = true ↔ ∃ w ∈ language pattern.toList, w <+: path.toList) := by
  refine ⟨_, ?_, (denotes_pieces (pieces pattern.toList)).matchesStart_iff path.toList⟩
  rw [selects, parse_expression h]

end Reading

theorem selects_iff_language_stars :
    Plain "src/***?.ts".toList ∧
      ∃ answer, selects "src/***?.ts" "src/a/b\n/c.ts.map" = .ok answer ∧
        (answer = true ↔ ∃ w ∈ language "src/***?.ts".toList, w <+: "src/a/b\n/c.ts.map".toList) :=
  have hplain : Plain "src/***?.ts".toList := by
    simp [Plain, specialChars]
  ⟨hplain, selects_iff_language hplain _⟩

end Ripple.Glob
