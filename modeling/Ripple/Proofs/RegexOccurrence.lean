import Ripple.Proofs.RegexLanguage
import Ripple.Proofs.RegexSearch

/-! # Words that occur in a text

An expression that is searched for from any place on is found if and only if a word of its language
occurs in the text. For characters, texts, choices and parts that may be left out the language is
the expected one.
-/
namespace Ripple.Regex

open Computability

variable {r r' : Regex} {l l' : Language Char}

theorem Denotes.congr (h : Denotes r l) (hl : ∀ w, w ∈ l' ↔ w ∈ l) : Denotes r l' := by
  have heq : l' = l := Set.ext hl
  rwa [heq]

theorem denotes_literal (w : List Char) : Denotes (literal w) {w} := by
  intro k s
  rw [run_literal, Cursor.skip?_eq]
  constructor
  · intro h
    split_ifs at h with hprefix
    · obtain ⟨rest, hrest⟩ := hprefix
      rw [← hrest, List.drop_left, Option.bind_some] at h
      exact ⟨w, rfl, ⟨w.reverse ++ s.behind, rest, s.groups⟩, ⟨hrest.symm, rfl, rfl⟩, h⟩
    · cases h
  · rintro ⟨_, rfl, t, hpasses, hk⟩
    obtain ⟨behind, ahead, groups⟩ := t
    obtain ⟨hahead, hbehind, hgroups⟩ := hpasses
    dsimp only at hahead hbehind hgroups
    rw [hahead, if_pos (List.prefix_append _ _), List.drop_left, ← hbehind, ← hgroups]
    exact hk

theorem denotes_char (c : Char) : Denotes (char c) {[c]} := denotes_literal [c]

theorem Denotes.alt (h : Denotes r l) (h' : Denotes r' l') : Denotes (.alt r r') (l + l') := by
  intro k s
  rw [run, Option.orElse_eq_or, Option.isSome_or, Bool.or_eq_true, h, h']
  simp only [Language.mem_add, or_and_right, exists_or]

/-- A part that may be left out. -/
theorem Denotes.optional (h : Denotes r l) : Denotes (.loop 0 (some 1) false r) (l + 1) := by
  intro k s
  have hround : ∀ t, more r.run k (s.ahead.length + 1) (some 0) (some s.ahead.length) t = k t :=
    fun t => by simp [more]
  have hrun : (loop 0 (some 1) false r).run k s = (r.run k s).orElse fun _ => k s := by
    rw [run, if_neg Bool.false_ne_true, rounds, times]
    change more r.run k (s.ahead.length + 1 + 1) (some 1) none s = _
    rw [more, if_neg (by simp)]
    congr 2
  rw [hrun, Option.orElse_eq_or, Option.isSome_or, Bool.or_eq_true, h]
  simp only [Language.mem_add, Language.mem_one, or_and_right, exists_or, exists_eq_left,
    Cursor.passes_nil]

/-- A part that stands at least once. -/
theorem Denotes.plus (h : Denotes r l) : Denotes (.loop 1 none false r) (l * l∗) := by
  intro k s
  have hrun : (loop 1 none false r).run k s = (Regex.seq r (loop 0 none false r)).run k s := rfl
  rw [hrun]
  exact h.seq h.star k s

theorem run_concat_cons (r : Regex) (rest : List Regex) (k : Continuation) :
    (concat (r :: rest)).run k = r.run ((concat rest).run k) := by
  cases rest with
  | nil => rfl
  | cons next rest => rfl

theorem run_concat_append (parts others : List Regex) (k : Continuation) :
    (concat (parts ++ others)).run k = (concat parts).run ((concat others).run k) := by
  induction parts with
  | nil => rfl
  | cons r rest ih => rw [List.cons_append, run_concat_cons, run_concat_cons, ih]

theorem Denotes.concat_cons (h : Denotes r l) {rest : List Regex}
    (hrest : Denotes (concat rest) l') : Denotes (concat (r :: rest)) (l * l') := by
  intro k s
  rw [run_concat_cons]
  exact h.seq hrest k s

/-- A last part may look at what follows. Then a text starts with a match if and only if it begins
with a word of the language and goes on as the last part asks. -/
theorem Denotes.matchesStart_concat_iff {parts : List Regex} (h : Denotes (concat parts) l)
    {last : Regex} {P : List Char → Prop}
    (hlast : ∀ t : Cursor, (last.run some t).isSome = true ↔ P t.ahead) (s : List Char) :
    (concat (parts ++ [last])).matchesStart s = true ↔
      ∃ w ∈ l, ∃ rest, s = w ++ rest ∧ P rest := by
  rw [matchesStart, match?, run_concat_append, h]
  refine exists_congr fun w => and_congr_right fun _ => ?_
  constructor
  · rintro ⟨t, hpasses, ht⟩
    exact ⟨t.ahead, hpasses.ahead, (hlast t).mp ht⟩
  · rintro ⟨rest, rfl, hrest⟩
    exact ⟨⟨w.reverse, rest, []⟩, ⟨rfl, by simp [Cursor.start], rfl⟩, (hlast _).mpr hrest⟩

theorem denotes_star_of_forall (items : List ClassItem) :
    Denotes (.loop 0 none false (.oneOf false items))
      {w | ∀ c ∈ w, items.any (·.holds c) = true} := by
  have hlanguage : (oneChar fun c => (items.any (·.holds c) != false) = true)∗ =
      ({w | ∀ c ∈ w, items.any (·.holds c) = true} : Language Char) := by
    ext w
    rw [mem_kstar_oneChar]
    simp only [Bool.bne_false]
    rfl
  rw [← hlanguage]
  exact (denotes_oneOf false items).star

theorem isSome_searchFrom_iff (h : Denotes r l) (behind s : List Char) :
    (r.searchFrom behind s).isSome = true ↔ ∃ w ∈ l, w <:+: s := by
  have hhere : ∀ behind s, (r.run some ⟨behind, s, []⟩).isSome = true ↔ ∃ w ∈ l, w <+: s := by
    intro behind s
    rw [h]
    refine exists_congr fun w => and_congr_right fun _ => ?_
    constructor
    · rintro ⟨t, hpasses, -⟩
      exact ⟨t.ahead, hpasses.ahead.symm⟩
    · rintro ⟨rest, rfl⟩
      exact ⟨⟨w.reverse ++ behind, rest, []⟩, ⟨rfl, rfl, rfl⟩, rfl⟩
  induction s generalizing behind with
  | nil =>
    rw [searchFrom, hhere]
    simp
  | cons c rest ih =>
    simp only [List.infix_cons_iff, and_or_left, exists_or]
    apply Iff.trans ?_ (or_congr (hhere behind (c :: rest)) (ih (c :: behind)))
    rw [searchFrom]
    cases r.run some ⟨behind, c :: rest, []⟩ <;> simp

/-- An expression is found if and only if a word of its language occurs in the text. -/
theorem Denotes.occursIn_iff (h : Denotes r l) (s : List Char) :
    r.occursIn s = true ↔ ∃ w ∈ l, w <:+: s :=
  isSome_searchFrom_iff h [] s

section Neighbours

variable {P : List Char → Prop} {name content : List Char}

/-- The text is found where something of a sort stands in front of it. -/
theorem Denotes.occursIn_behind_iff (h : Denotes r {w | ∃ lead, P lead ∧ w = lead ++ name}) :
    r.occursIn content = true ↔
      ∃ before after, content = before ++ (name ++ after) ∧ ∃ lead, P lead ∧ lead <:+ before := by
  rw [h.occursIn_iff]
  constructor
  · rintro ⟨_, ⟨lead, hlead, rfl⟩, front, after, rfl⟩
    exact ⟨front ++ lead, after, by simp, lead, hlead, List.suffix_append front lead⟩
  · rintro ⟨_, after, rfl, lead, hlead, front, rfl⟩
    exact ⟨_, ⟨lead, hlead, rfl⟩, front, after, by simp⟩

/-- The text is found where something of a sort stands behind it. -/
theorem Denotes.occursIn_before_iff (h : Denotes r {w | ∃ follow, P follow ∧ w = name ++ follow}) :
    r.occursIn content = true ↔
      ∃ before after, content = before ++ (name ++ after) ∧
        ∃ follow, P follow ∧ follow <+: after := by
  rw [h.occursIn_iff]
  constructor
  · rintro ⟨_, ⟨follow, hfollow, rfl⟩, before, back, rfl⟩
    exact ⟨before, follow ++ back, by simp, follow, hfollow, List.prefix_append follow back⟩
  · rintro ⟨before, _, rfl, follow, hfollow, back, rfl⟩
    exact ⟨_, ⟨follow, hfollow, rfl⟩, before, back, by simp⟩

end Neighbours

end Ripple.Regex
