import Mathlib.Data.List.Basic
import Ripple.Proofs.Text
import Ripple.Report.Markdown

/-! # Texts that are written line by line

Lines without line feeds can be told apart in the text of a report. Blocks of lines in a row can be
told apart if each of them shows where it ends and nothing behind them starts as a block does. Lines
start with marks, and of two marks that are not the beginning of each other a line starts with at
most one.
-/
namespace Ripple

namespace Text

def OneLine (s : String) : Prop := '\n' ∉ s.toList

instance (s : String) : Decidable (OneLine s) := inferInstanceAs (Decidable ('\n' ∉ s.toList))

@[simp] theorem oneLine_append {s t : String} : OneLine (s ++ t) ↔ OneLine s ∧ OneLine t := by
  rw [OneLine, String.toList_append, List.mem_append, not_or]
  rfl

theorem oneLine_join {separator : String} (h : OneLine separator) {parts : List String}
    (hparts : ∀ s ∈ parts, OneLine s) : OneLine (join separator parts) := by
  intro hmem
  rcases mem_join hmem with hmem | ⟨s, hs, hmem⟩
  · exact h hmem
  · exact hparts s hs hmem

/-- The lines of a block are found again between its line feeds. -/
theorem splitBy_lineBlock {lines : List String} (h : ∀ line ∈ lines, OneLine line) :
    splitBy (· == '\n') (lineBlock lines).toList = lines.map String.toList ++ [[]] := by
  induction lines with
  | nil => rfl
  | cons line rest ih =>
    obtain ⟨hline, hrest⟩ := List.forall_mem_cons.mp h
    have hblock : (lineBlock (line :: rest)).toList =
        line.toList ++ '\n' :: (lineBlock rest).toList := by
      change (line ++ "\n" ++ lineBlock rest).toList = _
      simp
    have hfree : ∀ c ∈ line.toList, (c == '\n') = false :=
      fun c hc => beq_false_of_ne fun he => hline (he ▸ hc)
    rw [hblock, splitBy_append_cons hfree rfl, ih hrest]
    rfl

theorem lineBlock_inj {lines lines' : List String} (h : ∀ line ∈ lines, OneLine line)
    (h' : ∀ line ∈ lines', OneLine line) (heq : lineBlock lines = lineBlock lines') :
    lines = lines' := by
  have hsplit := congrArg (fun s : String => splitBy (· == '\n') s.toList) heq
  rw [splitBy_lineBlock h, splitBy_lineBlock h'] at hsplit
  exact List.map_injective_iff.mpr (fun _ _ he => String.toList_injective he)
    (List.append_cancel_right hsplit)

/-- Texts without the separator behind them end at the first one. -/
theorem append_separator_inj {c : Char} {s s' t t' : List Char} (h : c ∉ s) (h' : c ∉ s')
    (heq : s ++ c :: t = s' ++ c :: t') : s = s' ∧ t = t' := by
  have hfree : ∀ {s : List Char}, c ∉ s → ∀ d ∈ s, (d == c) = false :=
    fun h d hd => beq_false_of_ne fun he => h (he ▸ hd)
  have hsplit := congrArg (fun l => (splitBy (· == c) l).head?) heq
  simp only [splitBy_append_cons (hfree h) (beq_self_eq_true c),
    splitBy_append_cons (hfree h') (beq_self_eq_true c), List.head?_cons,
    Option.some.injEq] at hsplit
  subst hsplit
  exact ⟨rfl, (List.cons.inj (List.append_cancel_left heq)).2⟩

theorem startsWith_append (mark s : String) : startsWith (mark ++ s) mark = true := by
  rw [startsWith, String.toList_append, List.isPrefixOf_iff_prefix]
  exact List.prefix_append _ _

theorem startsWith_self (s : String) : startsWith s s = true :=
  List.isPrefixOf_iff_prefix.mpr List.prefix_rfl

/-- A line does not start with a second mark if neither mark is the beginning of the other. -/
theorem startsWith_append_eq_false {mark other : String} (h : startsWith mark other = false)
    (h' : startsWith other mark = false) (s : String) : startsWith (mark ++ s) other = false := by
  rw [Bool.eq_false_iff, Ne, startsWith, List.isPrefixOf_iff_prefix] at h h' ⊢
  intro hother
  rw [String.toList_append] at hother
  exact (List.prefix_or_prefix_of_prefix hother (List.prefix_append _ _)).elim h h'

end Text

namespace Report

open Text

theorem textOf_eq_lineBlock {lines : List String} (h : lines ≠ []) :
    textOf lines = lineBlock lines := by
  induction lines with
  | nil => exact absurd rfl h
  | cons line rest ih =>
    cases rest with
    | nil => exact (String.append_empty (s := line ++ "\n")).symm
    | cons next rest =>
      have hrest : Text.join "\n" (next :: rest) ++ "\n" = lineBlock (next :: rest) := ih (by simp)
      change line ++ "\n" ++ Text.join "\n" (next :: rest) ++ "\n" = line ++ "\n" ++ _
      rw [String.append_assoc, hrest]
      rfl

/-- The lines of a report can be told apart. -/
theorem textOf_inj {lines lines' : List String} (hne : lines ≠ []) (hne' : lines' ≠ [])
    (h : ∀ line ∈ lines, OneLine line) (h' : ∀ line ∈ lines', OneLine line)
    (heq : textOf lines = textOf lines') : lines = lines' := by
  rw [textOf_eq_lineBlock hne, textOf_eq_lineBlock hne'] at heq
  exact lineBlock_inj h h' heq

/-- No line with the mark comes first. -/
def Avoids (mark : String) (lines : List String) : Prop :=
  ∀ line ∈ lines.head?, startsWith line mark = false

theorem avoids_nil (mark : String) : Avoids mark [] := by
  rintro line ⟨⟩

theorem avoids_cons {mark line : String} (h : startsWith line mark = false) (rest : List String) :
    Avoids mark (line :: rest) := by
  rintro _ ⟨⟩
  exact h

variable {α γ : Type} {mark : String} {rest rest' : List String}

/-- Blocks in a row show what each of them shows, and where they end. -/
theorem flatMap_append_inj {write : α → List String} {shows : α → γ} {as bs : List α}
    (hblock : ∀ a ∈ as, ∀ b ∈ bs, ∀ rest rest', write a ++ rest = write b ++ rest' →
      shows a = shows b ∧ rest = rest')
    (hstart : ∀ a, ∃ line ∈ (write a).head?, startsWith line mark = true)
    (hrest : Avoids mark rest) (hrest' : Avoids mark rest')
    (h : as.flatMap write ++ rest = bs.flatMap write ++ rest') :
    as.map shows = bs.map shows ∧ rest = rest' := by
  have hclash : ∀ {rest : List String}, Avoids mark rest → ∀ a others,
      rest ≠ write a ++ others := by
    rintro _ havoids a others rfl
    obtain ⟨line, hline, hmark⟩ := hstart a
    have hhead : line ∈ (write a ++ others).head? := by
      rw [List.head?_append, Option.mem_def.mp hline]
      rfl
    exact Bool.false_ne_true ((havoids line hhead).symm.trans hmark)
  induction as generalizing bs with
  | nil =>
    cases bs with
    | nil => exact ⟨rfl, h⟩
    | cons b bs =>
      rw [List.flatMap_cons, List.append_assoc] at h
      exact absurd h (hclash hrest b _)
  | cons a as ih =>
    cases bs with
    | nil =>
      rw [List.flatMap_cons, List.append_assoc] at h
      exact absurd h.symm (hclash hrest' a _)
    | cons b bs =>
      rw [List.flatMap_cons, List.flatMap_cons, List.append_assoc, List.append_assoc] at h
      obtain ⟨hshows, hothers⟩ := hblock a List.mem_cons_self b List.mem_cons_self _ _ h
      obtain ⟨hall, htail⟩ := ih (fun c hc d hd => hblock c (List.mem_cons_of_mem a hc) d
        (List.mem_cons_of_mem b hd)) hothers
      exact ⟨by rw [List.map_cons, List.map_cons, hshows, hall], htail⟩

/-- Marked lines in a row can be told apart from what follows. -/
theorem map_append_inj (hrest : Avoids mark rest) (hrest' : Avoids mark rest')
    {as bs : List String} (h : as.map (mark ++ ·) ++ rest = bs.map (mark ++ ·) ++ rest') :
    as = bs ∧ rest = rest' := by
  rw [List.map_eq_flatMap, List.map_eq_flatMap] at h
  have hblock : ∀ a ∈ as, ∀ b ∈ bs, ∀ rest rest', [mark ++ a] ++ rest = [mark ++ b] ++ rest' →
      id a = id b ∧ rest = rest' := by
    intro a _ b _ rest rest' h
    obtain ⟨hline, hothers⟩ := List.cons.inj h
    exact ⟨(String.append_right_inj mark).mp hline, hothers⟩
  obtain ⟨hitems, htail⟩ := flatMap_append_inj hblock
    (fun a => ⟨_, rfl, startsWith_append mark a⟩) hrest hrest' h
  rw [List.map_id, List.map_id] at hitems
  exact ⟨hitems, htail⟩

end Report

end Ripple
