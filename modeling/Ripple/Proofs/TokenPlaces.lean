import Ripple.Proofs.ReaderNames
import Ripple.Text.Basic

/-! # Where the tokens of a document stand

The tokens are read off the text one behind the other. Separators stand in front of a token: white
space, commas, byte order marks and comments. A name stands in the text as it is, and what is behind
it is no word character unless the tokens end there.
-/
namespace Ripple.Text

theorem drop_length_takeWhile {α : Type} (p : α → Bool) (l : List α) :
    l.drop (l.takeWhile p).length = l.dropWhile p := by
  rw [List.dropWhile_eq_drop_findIdx_not, List.takeWhile_eq_take_findIdx_not, List.length_take,
    Nat.min_eq_left List.findIdx_le_length]

section MaximalMunch

variable {α : Type} {p : α → Bool} {body rest : List α} (hbody : ∀ a ∈ body, p a = true)
  (hrest : rest.head?.any p = false)

include hbody hrest

theorem takeWhile_append : (body ++ rest).takeWhile p = body := by
  rw [List.takeWhile_append_of_pos hbody]
  cases rest with
  | nil => simp
  | cons a rest =>
    have ha : p a = false := hrest
    simp [ha]

theorem dropWhile_append : (body ++ rest).dropWhile p = rest := by
  rw [List.dropWhile_append_of_pos hbody]
  cases rest with
  | nil => rfl
  | cons a rest =>
    have ha : p a = false := hrest
    simp [ha]

end MaximalMunch

def blankPoints : List Nat :=
  List.range' 9 5 ++ List.range' 28 5 ++ List.range' 0x2000 11 ++
    [0x85, 0xa0, 0x1680, 0x2028, 0x2029, 0x202f, 0x205f, 0x3000]

theorem toNat_mem_blankPoints {c : Char} (h : isBlank c = true) : c.toNat ∈ blankPoints := by
  simp only [isBlank, Bool.or_eq_true, Bool.and_eq_true, decide_eq_true_eq, beq_iff_eq] at h
  simp only [blankPoints, List.mem_append, List.mem_range'_1, List.mem_cons, List.not_mem_nil]
  omega

/-- White space has no word characters. -/
theorem isWord_eq_false_of_isBlank {c : Char} (h : isBlank c = true) : isWord c = false := by
  have hpoints : ∀ n ∈ blankPoints, isWord (Char.ofNat n) = false := by decide +kernel
  rw [← c.ofNat_toNat]
  exact hpoints _ (toNat_mem_blankPoints h)

end Ripple.Text

namespace Ripple.Graphql

/-- The place behind a name. -/
def Token.stop (t : Token) : Nat := t.start + t.value.length

/-- How a name stands in its text: as it is, with no further character of a name behind it. -/
structure Token.Stands (t : Token) (s : List Char) : Prop where
  isName : IsName t.value
  text : t.value.toList ++ s.drop t.stop = s.drop t.start
  behind : (s.drop t.stop).head?.any Lexer.isNameChar = false

theorem Token.Stands.head?_any {t : Token} {s : List Char} (h : t.Stands s) :
    (s.drop t.start).head?.any Lexer.isNameChar = true := by
  obtain ⟨c, rest, hvalue, hstart, -⟩ := h.isName
  rw [← h.text, hvalue]
  exact Lexer.isNameChar_of_isNameStart hstart

namespace Lexer

theorem separators_cons (c : Char) (rest : List Char) :
    separators false (c :: rest) =
      if c == '\n' || c == '\r' then separators false rest + 1
      else if c == ' ' || c == '\t' || c == ',' || c == '\ufeff' then separators false rest + 1
      else if c == '#' then separators true rest + 1
      else 0 := rfl

def separating : List Char := ['\n', '\r', ' ', '\t', ',', '\ufeff', '#']

theorem mem_separating {c : Char} {rest : List Char} (h : 0 < separators false (c :: rest)) :
    c ∈ separating := by
  by_contra hc
  simp only [separating, List.mem_cons, List.not_mem_nil, or_false, not_or] at hc
  simp [separators_cons, hc] at h

theorem isWord_of_separators {c : Char} {rest : List Char} (h : 0 < separators false (c :: rest)) :
    Text.isWord c = false := by
  have hall : (separating.all fun c => !Text.isWord c) = true := by decide +kernel
  simpa using List.all_eq_true.mp hall c (mem_separating h)

theorem separators_le (inComment : Bool) (s : List Char) : separators inComment s ≤ s.length := by
  induction s generalizing inComment with
  | nil => exact Nat.le_refl 0
  | cons c rest ih =>
    rw [separators, List.length_cons]
    split_ifs
    all_goals first | exact Nat.succ_le_succ (ih _) | exact Nat.zero_le _

/-- What is lexed and neither separates nor belongs to a name begins with no word character. -/
theorem isWord_of_piece {start length : Nat} {c : Char} {rest : List Char} {kind : TokenKind}
    {value : String} (h : piece start (c :: rest) = .ok (kind, value, length))
    (hc : isNameChar c = false) : Text.isWord c = false := by
  have hmarks : (marks.all fun c => !Text.isWord c) = true := by decide
  rw [piece.eq_def] at h
  split at h <;> rename_i heq <;> cases heq
  · decide
  · decide
  · decide
  · cases h
  · split_ifs at h with hnumber hname hmark
    · rcases Bool.or_eq_true_iff.mp hnumber with hdigit | hsign
      · simp [isNameChar, Char.isAlphanum, hdigit] at hc
      · rw [beq_iff_eq.mp hsign]
        decide
    · rw [isNameChar_of_isNameStart hname] at hc
      cases hc
    · simpa using List.all_eq_true.mp hmarks c (by simpa using hmark)
    all_goals cases h

theorem Leads.stands {t : Token} {width : Nat} {s : List Char}
    (h : Leads t.value width (s.drop t.start)) : t.Stands s := by
  have hdrop : s.drop t.stop = (s.drop t.start).dropWhile isNameChar := by
    rw [Token.stop, ← List.drop_drop, ← String.length_toList, h.toList, Text.drop_length_takeWhile]
  refine ⟨h.isName, ?_, ?_⟩
  · rw [hdrop, h.toList, List.takeWhile_append_dropWhile]
  · have hnot := List.head?_dropWhile_not isNameChar (s.drop t.start)
    rw [hdrop]
    cases hs : ((s.drop t.start).dropWhile isNameChar).head? with
    | none => rfl
    | some c =>
      rw [hs] at hnot
      exact hnot

/-- The tokens are those of the text from a place on. -/
def From (s : List Char) (place : Nat) (ts : List Token) : Prop :=
  ∃ fuel, tokensFrom fuel place (s.drop place) = ts

theorem from_tokens (s : List Char) : From s 0 (tokens s) := ⟨s.length + 1, rfl⟩

section From

variable {s : List Char} {place : Nat} {t : Token} {ts : List Token}

/-- A token other than the last one is lexed behind the separators, and the next ones behind it. -/
theorem From.cons (h : From s place (t :: ts)) (hkind : t.kind ≠ .ending) :
    ∃ length, t.start = place + separators false (s.drop place) ∧
      piece t.start (s.drop t.start) = .ok (t.kind, t.value, length) ∧
      From s (t.start + length) ts := by
  obtain ⟨fuel, h⟩ := h
  cases fuel with
  | zero =>
    cases h
    exact absurd rfl hkind
  | succ fuel =>
    rw [tokensFrom] at h
    split at h
    · cases h
      exact absurd rfl hkind
    · cases h
      exact absurd rfl hkind
    · rename_i kind value length _ hpiece
      obtain ⟨rfl, htail⟩ := List.cons.inj h
      rw [List.drop_drop] at hpiece
      rw [List.drop_drop, List.drop_drop, ← Nat.add_assoc] at htail
      exact ⟨length, rfl, hpiece, fuel, htail⟩

/-- The tokens behind one are those from a later place on. -/
theorem From.tail {t' : Token} (h : From s place (t :: t' :: ts)) :
    ∃ later, place ≤ t.start ∧ t.start ≤ later ∧ From s later (t' :: ts) := by
  have hkind : t.kind ≠ .ending := by
    obtain ⟨fuel, h⟩ := h
    cases fuel with
    | zero => cases h
    | succ fuel =>
      rw [tokensFrom] at h
      split at h
      · cases h
      · cases h
      · rename_i hkind _
        obtain ⟨rfl, -⟩ := List.cons.inj h
        exact hkind
  obtain ⟨length, hstart, -, hrest⟩ := h.cons hkind
  exact ⟨t.start + length, by omega, by omega, hrest⟩

/-- The tokens at the end of those from a place on are those from a later place on. -/
theorem From.suffix {l : List Token} (h : From s place ts) (hl : l <:+ ts) (hne : l ≠ []) :
    ∃ later, place ≤ later ∧ From s later l := by
  induction ts generalizing place with
  | nil => exact absurd (List.suffix_nil.mp hl) hne
  | cons t ts ih =>
    rcases List.suffix_cons_iff.mp hl with rfl | hl
    · exact ⟨place, Nat.le_refl place, h⟩
    · cases ts with
      | nil => exact absurd (List.suffix_nil.mp hl) hne
      | cons t' ts =>
        obtain ⟨middle, hle, hle', hmiddle⟩ := h.tail
        obtain ⟨later, hlater, hfrom⟩ := ih hmiddle hl
        exact ⟨later, by omega, hfrom⟩

/-- A name stands in the text where its token says. -/
theorem From.name (h : From s place (t :: ts)) (hkind : t.kind = .name) :
    t.start = place + separators false (s.drop place) ∧
      t.Stands s ∧ From s t.stop ts := by
  obtain ⟨length, hstart, hpiece, hrest⟩ := h.cons (hkind ▸ by decide)
  have hleads := proper_piece _ _ _ _ _ hpiece hkind
  rw [hleads.width] at hrest
  exact ⟨hstart, hleads.stands, hrest⟩

/-- Behind a name that does not end the tokens stands no word character. -/
theorem From.head?_drop (h : From s place (t :: ts)) (hkind : t.kind ≠ .ending)
    (hname : (s.drop place).head?.any isNameChar = false) :
    (s.drop place).head?.any Text.isWord = false := by
  obtain ⟨length, hstart, hpiece, -⟩ := h.cons hkind
  cases hs : s.drop place with
  | nil => rfl
  | cons c rest =>
    rw [hs] at hstart hname
    rcases Nat.eq_zero_or_pos (separators false (c :: rest)) with hzero | hpos
    · rw [hzero, Nat.add_zero] at hstart
      rw [hstart, hs] at hpiece
      exact isWord_of_piece hpiece hname
    · exact isWord_of_separators hpos

end From

end Lexer

end Ripple.Graphql
