import Ripple.Analysis.GraphqlApi
import Ripple.Proofs.OperationHeads
import Ripple.Proofs.RegexSearch

/-! # Which operations the search finds

The analyzer looks for the operations of a document without reading it: it searches the text for a
keyword, white space and a word.
-/
namespace Ripple.Analysis.GraphqlApi

open Graphql Regex

def keywords : List (List Char) := ["query".toList, "mutation".toList, "subscription".toList]

/-- A keyword, white space and a word that stand in a text one behind the other. -/
structure Mention where
  place : Nat
  keyword : List Char
  gap : List Char
  word : List Char
  deriving DecidableEq

namespace Mention

def text (m : Mention) : List Char := m.keyword ++ (m.gap ++ m.word)

def stop (m : Mention) : Nat := m.place + m.text.length

end Mention

def mentionBehind? (place : Nat) (keyword s : List Char) : Option Mention :=
  let gap := s.takeWhile Text.isBlank
  let word := (s.dropWhile Text.isBlank).takeWhile Text.isWord
  if gap = [] then none
  else if word = [] then none
  else some ⟨place, keyword, gap, word⟩

def mentionAt? (place : Nat) (s : List Char) : Option Mention :=
  keywords.findSome? fun keyword =>
    if keyword <+: s then mentionBehind? place keyword (s.drop keyword.length) else none

/-- What is mentioned in a text from a place on, but not in its first characters. -/
def mentionsFrom : Nat → Nat → List Char → List Mention
  | _, _, [] => []
  | place, skipped + 1, _ :: rest => mentionsFrom (place + 1) skipped rest
  | place, 0, c :: rest =>
    match mentionAt? place (c :: rest) with
    | some m => m :: mentionsFrom (place + 1) (m.text.length - 1) rest
    | none => mentionsFrom (place + 1) 0 rest

/-- What is mentioned in a text, as far as it does not overlap. -/
def mentions (s : List Char) : List Mention := mentionsFrom 0 0 s

def Mention.cursor (m : Mention) (behind s : List Char) : Cursor :=
  ⟨m.text.reverse ++ behind, s.drop m.text.length, [(1, m.word)]⟩

def spacedWord : Regex :=
  .concat [.oneOf false [.blank false], blanks, .group 1 (wordChars 1)]

theorem run_oneOf_blank (k : Continuation) (s : Cursor) :
    (oneOf false [.blank false]).run k s = (s.advance? Text.isBlank).bind k := by
  simp [run, ClassItem.holds]

theorem run_oneOf_word (k : Continuation) (s : Cursor) :
    (oneOf false [.word false]).run k s = (s.advance? Text.isWord).bind k := by
  simp [run, ClassItem.holds]

theorem run_word (s : Cursor) :
    (group 1 (wordChars 1)).run some s =
      if s.ahead.takeWhile Text.isWord = [] then none
      else some ((s.skipWhile Text.isWord).capture 1 s) :=
  run_plus run_oneOf_word fun _ => rfl

theorem run_spacedWord (s : Cursor) :
    spacedWord.run some s =
      if s.ahead.takeWhile Text.isBlank = [] then none
      else (group 1 (wordChars 1)).run some (s.skipWhile Text.isBlank) := by
  -- No word begins with white space, so the search cannot succeed before the end of the gap.
  have hfails : ∀ t : Cursor, t.ahead.head?.any Text.isBlank = true →
      (group 1 (wordChars 1)).run some t = none := by
    rintro ⟨behind, ahead, groups⟩ ht
    rw [run_word, if_pos]
    cases ahead with
    | nil => rfl
    | cons c rest => simp [Text.isWord_eq_false_of_isBlank (show Text.isBlank c = true from ht)]
  have hstar : blanks.run ((group 1 (wordChars 1)).run some) =
      fun t => (group 1 (wordChars 1)).run some (t.skipWhile Text.isBlank) :=
    funext fun t => run_star run_oneOf_blank (.inr hfails)
  change (oneOf false [.blank false]).run (blanks.run ((group 1 (wordChars 1)).run some)) s = _
  rw [run_oneOf_blank, hstar]
  exact advance?_bind_skipWhile _ _ s

theorem run_keyword (place : Nat) (keyword behind s : List Char) :
    (literal keyword).run (spacedWord.run some) ⟨behind, s, []⟩ =
      (if keyword <+: s then mentionBehind? place keyword (s.drop keyword.length) else none).map
        fun m => m.cursor behind s := by
  rw [run_literal, Cursor.skip?_eq]
  split_ifs with hkeyword
  · rw [Option.bind_some, run_spacedWord, run_word, mentionBehind?, Cursor.capture_skipWhile,
      Cursor.ahead_skipWhile]
    dsimp only
    split_ifs with hgap hword
    · rfl
    · rfl
    · rw [Option.map_some, Mention.cursor, Mention.text, List.length_append, List.length_append,
        ← List.drop_drop, ← List.drop_drop, Text.drop_length_takeWhile, Text.drop_length_takeWhile]
      simp [Cursor.skipWhile]
  · rfl

theorem run_namedOperation (place : Nat) (behind s : List Char) :
    namedOperation.run some ⟨behind, s, []⟩ =
      (mentionAt? place s).map fun m => m.cursor behind s := by
  have hpart : (Option.map fun m => m.cursor behind s) ∘ (fun keyword =>
      if keyword <+: s then mentionBehind? place keyword (s.drop keyword.length) else none) =
      fun keyword => (literal keyword).run (spacedWord.run some) ⟨behind, s, []⟩ :=
    funext fun keyword => (run_keyword place keyword behind s).symm
  rw [mentionAt?, List.map_findSome?, hpart, keywords]
  change (alt _ (alt _ _)).run (spacedWord.run some) _ = _
  rw [run, run, List.findSome?_cons, List.findSome?_cons, List.findSome?_cons, List.findSome?_nil]
  cases (literal "query".toList).run (spacedWord.run some) ⟨behind, s, []⟩ with
  | some _ => rfl
  | none =>
    cases (literal "mutation".toList).run (spacedWord.run some) ⟨behind, s, []⟩ with
    | some _ => rfl
    | none =>
      cases (literal "subscription".toList).run (spacedWord.run some) ⟨behind, s, []⟩ <;> rfl

section Mentions

variable {place skipped i : Nat} {m : Mention} {s : List Char}

theorem mentionAt?_nil (place : Nat) : mentionAt? place [] = none := by
  simp [mentionAt?, keywords]

/-- What is mentioned at a place stands there, with white space in front of the word. -/
theorem of_mentionAt? (h : mentionAt? place s = some m) :
    m.place = place ∧ place < m.stop ∧ ∀ c ∈ m.gap, Text.isBlank c = true := by
  obtain ⟨before, keyword, after, hkeywords, hfound, -⟩ := List.findSome?_eq_some_iff.mp h
  have hne : keyword ≠ [] := by
    have hall : ∀ k ∈ keywords, k ≠ [] := by decide
    exact hall keyword (by simp [hkeywords])
  split_ifs at hfound
  rw [mentionBehind?] at hfound
  split_ifs at hfound
  cases hfound
  refine ⟨rfl, ?_, fun c hc => List.mem_takeWhile_imp hc⟩
  have hpos := List.length_pos_iff.mpr hne
  simp only [Mention.stop, Mention.text, List.length_append]
  omega

theorem mentionsFrom_eq (place skipped : Nat) (s : List Char) :
    mentionsFrom place skipped s = mentionsFrom (place + skipped) 0 (s.drop skipped) := by
  induction s generalizing place skipped with
  | nil => cases skipped <;> rfl
  | cons c rest ih =>
    cases skipped with
    | zero => rfl
    | succ skipped =>
      rw [mentionsFrom, ih, List.drop_succ_cons]
      congr 1
      omega

theorem mentionsFrom_of_some (h : mentionAt? place s = some m) :
    mentionsFrom place 0 s = m :: mentionsFrom m.stop 0 (s.drop m.text.length) := by
  cases s with
  | nil =>
    rw [mentionAt?_nil] at h
    cases h
  | cons c rest =>
    obtain ⟨rfl, hlt, -⟩ := of_mentionAt? h
    rw [Mention.stop] at hlt ⊢
    obtain ⟨n, hn⟩ := Nat.exists_eq_add_of_lt hlt
    have hlength : m.text.length = n + 1 := by omega
    rw [mentionsFrom, h]
    dsimp only
    rw [mentionsFrom_eq, hlength, Nat.add_sub_cancel, List.drop_succ_cons]
    congr 2
    omega

theorem mentionsFrom_of_none (h : mentionAt? place (s.drop place) = none) :
    mentionsFrom place 0 (s.drop place) = mentionsFrom (place + 1) 0 (s.drop (place + 1)) := by
  have hnext : s.drop (place + 1) = (s.drop place).drop 1 := List.drop_drop.symm
  rw [hnext]
  cases hs : s.drop place with
  | nil => rfl
  | cons c rest =>
    rw [hs] at h
    rw [mentionsFrom, h]
    rfl

/-- Nothing is mentioned between two places, so the search goes on from the second one. -/
theorem mentionsFrom_of_forall {later : Nat} (hle : place ≤ later)
    (h : ∀ i, place ≤ i → i < later → mentionAt? i (s.drop i) = none) :
    mentionsFrom place 0 (s.drop place) = mentionsFrom later 0 (s.drop later) := by
  induction later, hle using Nat.le_induction with
  | base => rfl
  | succ later hle ih =>
    rw [ih fun i hi hlt => h i hi (by omega), mentionsFrom_of_none (h later hle (by omega))]

theorem of_mem_mentionsFrom (h : m ∈ mentionsFrom place skipped (s.drop place)) :
    place ≤ m.place ∧ mentionAt? m.place (s.drop m.place) = some m := by
  induction hs : s.drop place generalizing place skipped with
  | nil =>
    rw [hs] at h
    cases h
  | cons c rest ih =>
    obtain rfl : s.drop (place + 1) = rest := by
      rw [← List.drop_drop, hs, List.drop_one, List.tail_cons]
    have hrest : ∀ skipped', m ∈ mentionsFrom (place + 1) skipped' (s.drop (place + 1)) →
        place ≤ m.place ∧ mentionAt? m.place (s.drop m.place) = some m := fun skipped' hmem =>
      (ih hmem rfl).imp_left Nat.le_of_succ_le
    rw [hs] at h
    cases skipped with
    | succ skipped => exact hrest _ h
    | zero =>
      rw [mentionsFrom] at h
      split at h
      · rename_i m' hmention
        rcases List.mem_cons.mp h with rfl | h
        · obtain ⟨hplace, -⟩ := of_mentionAt? hmention
          exact ⟨hplace.ge, by rwa [hplace, hs]⟩
        · exact hrest _ h
      · exact hrest _ h

/-- Whatever is mentioned lies in what the search has found, if it is not skipped. -/
theorem exists_mem_mentionsFrom (h : mentionAt? i (s.drop i) = some m) (hi : place + skipped ≤ i) :
    ∃ m' ∈ mentionsFrom place skipped (s.drop place), m'.place ≤ i ∧ i < m'.stop := by
  induction hs : s.drop place generalizing place skipped with
  | nil =>
    have hle : s.length ≤ place := List.drop_eq_nil_iff.mp hs
    have hend : s.drop i = [] := List.drop_eq_nil_of_le (by omega)
    rw [hend, mentionAt?_nil] at h
    cases h
  | cons c rest ih =>
    obtain rfl : s.drop (place + 1) = rest := by
      rw [← List.drop_drop, hs, List.drop_one, List.tail_cons]
    cases skipped with
    | succ skipped => exact ih (by omega) rfl
    | zero =>
      rw [mentionsFrom]
      rcases Nat.eq_or_lt_of_le (show place ≤ i from hi) with rfl | hlt
      · rw [← hs, h]
        obtain ⟨hplace, hlt, -⟩ := of_mentionAt? h
        exact ⟨m, List.mem_cons_self, hplace.le, hlt⟩
      · cases hmention : mentionAt? place (c :: s.drop (place + 1)) with
        | none => exact ih hlt rfl
        | some m' =>
          obtain ⟨hplace, hpos, -⟩ := of_mentionAt? hmention
          by_cases hstop : i < m'.stop
          · exact ⟨m', List.mem_cons_self, by omega, hstop⟩
          · rw [Mention.stop] at hpos hstop
            have hbehind : place + 1 + (m'.text.length - 1) ≤ i := by omega
            obtain ⟨m'', hmem, hinside⟩ := ih hbehind rfl
            exact ⟨m'', List.mem_cons_of_mem _ hmem, hinside⟩

end Mentions

theorem consumes_namedOperation : namedOperation.Consumes := by
  intro behind ahead t h
  rw [run_namedOperation 0] at h
  obtain ⟨m, hmention, rfl⟩ := Option.map_eq_some_iff.mp h
  have hne : ahead ≠ [] := by
    rintro rfl
    rw [mentionAt?_nil] at hmention
    cases hmention
  have hpos := List.length_pos_iff.mpr hne
  obtain ⟨hplace, hlt, -⟩ := of_mentionAt? hmention
  rw [Mention.stop] at hlt
  rw [Mention.cursor, List.length_drop]
  omega

theorem map_findAllFrom (place fuel : Nat) (behind s : List Char) (hfuel : s.length < fuel) :
    (namedOperation.findAllFrom fuel behind s).map (·.text? 1) =
      (mentionsFrom place 0 s).map fun m => some (String.ofList m.word) := by
  induction hn : s.length using Nat.strong_induction_on generalizing place fuel behind s with
  | h n ih =>
    have hrun := run_namedOperation place behind s
    cases hmention : mentionAt? place s with
    | some m =>
      rw [hmention, Option.map_some] at hrun
      have hlt := consumes_namedOperation _ _ _ hrun
      obtain ⟨fuel, rfl⟩ := Nat.exists_eq_succ_of_ne_zero (Nat.ne_zero_of_lt hfuel)
      rw [findAllFrom_of_run consumes_namedOperation hrun, mentionsFrom_of_some hmention,
        List.map_cons, List.map_cons,
        ih _ (hn ▸ hlt) m.stop fuel _ _ (hlt.trans_le (Nat.le_of_lt_succ hfuel)) rfl]
      rfl
    | none =>
      rw [hmention, Option.map_none] at hrun
      cases s with
      | nil =>
        obtain ⟨fuel, rfl⟩ := Nat.exists_eq_succ_of_ne_zero (Nat.ne_zero_of_lt hfuel)
        rw [findAllFrom, searchFrom, hrun]
        rfl
      | cons c rest =>
        rw [findAllFrom_cons_of_none consumes_namedOperation hrun, mentionsFrom, hmention]
        rw [List.length_cons] at hfuel hn
        exact ih rest.length (by omega) (place + 1) fuel (c :: behind) rest (by omega) rfl

/-- The search of the analyzer finds what is mentioned. -/
theorem map_findAll (s : List Char) :
    (namedOperation.findAll s).map (·.text? 1) =
      (mentions s).map fun m => some (String.ofList m.word) :=
  map_findAllFrom 0 (s.length + 1) [] s (Nat.lt_succ_self _)

end Ripple.Analysis.GraphqlApi
