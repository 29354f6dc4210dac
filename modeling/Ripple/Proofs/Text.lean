import Ripple.Text.Basic

/-! # Where texts occur

A text contains another one if and only if its characters stand there in a row. A text that starts
with a character of no use to the other one is searched from behind it.
-/
namespace Ripple.Text

theorem occursIn_iff (p s : List Char) : occursIn p s = true ↔ p <:+: s := by
  induction s with
  | nil => simp [occursIn]
  | cons c rest ih => simp [occursIn, ih, List.infix_cons_iff]

theorem has_iff (s part : String) : has s part = true ↔ part.toList <:+: s.toList :=
  occursIn_iff _ _

theorem has_append_of_has {s part : String} (h : has s part = true) (t : String) :
    has (s ++ t) part = true := by
  rw [has_iff] at h ⊢
  rw [String.toList_append]
  exact List.infix_append_of_infix_left h

theorem occursIn_append_of_notMem {c : Char} {p l : List Char} (h : c ∉ l) (m : List Char) :
    occursIn (c :: p) (l ++ m) = occursIn (c :: p) m := by
  induction l with
  | nil => rfl
  | cons d rest ih =>
    rw [List.mem_cons, not_or] at h
    rw [List.cons_append, occursIn, ih h.2]
    simp [h.1]

/-- A text without the first character of another one does not add to where that one occurs. -/
theorem has_append_of_notMem {s part : String} {c : Char} {rest : List Char}
    (hpart : part.toList = c :: rest) (h : c ∉ s.toList) (t : String) :
    has (s ++ t) part = has t part := by
  rw [has, has, hpart, String.toList_append, occursIn_append_of_notMem h]

theorem has_eq_false_of_notMem {s part : String} {c : Char} (hc : c ∈ part.toList)
    (h : c ∉ s.toList) : has s part = false := by
  rw [Bool.eq_false_iff, Ne, has_iff]
  exact fun hpart => h (hpart.subset hc)

theorem startsWith_eq_false_of_notMem {s head : String} {c : Char} (hc : c ∈ head.toList)
    (h : c ∉ s.toList) : startsWith s head = false := by
  rw [Bool.eq_false_iff, Ne, startsWith, List.isPrefixOf_iff_prefix]
  exact fun hhead => h (hhead.subset hc)

theorem startsWith_append_append (a s head : String) :
    startsWith (a ++ s) (a ++ head) = startsWith s head := by
  rw [Bool.eq_iff_iff, startsWith, startsWith, List.isPrefixOf_iff_prefix,
    List.isPrefixOf_iff_prefix, String.toList_append, String.toList_append,
    List.prefix_append_right_inj]

theorem endsWith_append_of_notMem {separator : Char} {tail : String}
    (h : separator ∉ tail.toList) (s t : String) :
    endsWith (s ++ String.singleton separator ++ t) tail = endsWith t tail := by
  have hcons : ∀ l : List Char, tail.toList <:+ l ++ separator :: t.toList ↔
      tail.toList <:+ t.toList := by
    intro l
    have hne : ∀ m : List Char, separator ∈ m → tail.toList ≠ m := fun m hm he => h (he ▸ hm)
    induction l with
    | nil => simp [List.suffix_cons_iff, hne]
    | cons c rest ih => simp [List.suffix_cons_iff, hne, ih]
  rw [Bool.eq_iff_iff, endsWith, endsWith, List.isSuffixOf_iff_suffix, List.isSuffixOf_iff_suffix]
  simpa using hcons s.toList

theorem splitBy_eq_singleton {α : Type} {p : α → Bool} {s : List α} (h : ∀ a ∈ s, p a = false) :
    splitBy p s = [s] := by
  induction s with
  | nil => rfl
  | cons a rest ih =>
    obtain ⟨ha, hrest⟩ := List.forall_mem_cons.mp h
    rw [splitBy, ha, ih hrest]
    rfl

theorem split_of_notMem {s : String} {separator : Char} (h : separator ∉ s.toList) :
    split separator s = [s] := by
  rw [split, splitBy_eq_singleton, List.map_singleton, String.ofList_toList]
  exact fun c hc => beq_false_of_ne fun heq => h (heq ▸ hc)

theorem splitBy_ne_nil {α : Type} (p : α → Bool) (s : List α) : splitBy p s ≠ [] := by
  cases s with
  | nil => simp [splitBy]
  | cons a rest =>
    rw [splitBy]
    split
    · simp
    · split <;> simp

theorem splitBy_append_separator {α : Type} {p : α → Bool} {a : α} (ha : p a = true)
    (s t : List α) : splitBy p (s ++ a :: t) = splitBy p s ++ splitBy p t := by
  induction s with
  | nil =>
    rw [List.nil_append, splitBy.eq_2, if_pos ha]
    rfl
  | cons b s ih =>
    obtain ⟨piece, pieces, hs⟩ := List.exists_cons_of_ne_nil (splitBy_ne_nil p s)
    rw [List.cons_append, splitBy, splitBy, ih, hs]
    split <;> rfl

theorem splitBy_append_cons {α : Type} {p : α → Bool} {s : List α} (h : ∀ a ∈ s, p a = false)
    {a : α} (ha : p a = true) (rest : List α) :
    splitBy p (s ++ a :: rest) = s :: splitBy p rest := by
  rw [splitBy_append_separator ha, splitBy_eq_singleton h]
  rfl

theorem eq_false_of_mem_splitBy {α : Type} {p : α → Bool} {s piece : List α}
    (h : piece ∈ splitBy p s) : ∀ a ∈ piece, p a = false := by
  induction s generalizing piece with
  | nil =>
    rw [splitBy, List.mem_singleton] at h
    simp [h]
  | cons b rest ih =>
    rw [splitBy] at h
    split at h
    · rcases List.mem_cons.mp h with rfl | h
      · simp
      · exact ih h
    · rename_i hb
      split at h
      · simp_all
      · rename_i first others hrest
        rcases List.mem_cons.mp h with rfl | h
        · refine List.forall_mem_cons.mpr ⟨by simpa using hb, ih ?_⟩
          rw [hrest]
          exact List.mem_cons_self
        · refine ih ?_
          rw [hrest]
          exact List.mem_cons_of_mem _ h

/-- What stands in a joined text stands in the separator or in one of the parts. -/
theorem mem_join {c : Char} {separator : String} {parts : List String}
    (h : c ∈ (join separator parts).toList) :
    c ∈ separator.toList ∨ ∃ s ∈ parts, c ∈ s.toList := by
  induction parts with
  | nil => exact absurd h List.not_mem_nil
  | cons s rest ih =>
    cases rest with
    | nil => exact .inr ⟨s, List.mem_cons_self, h⟩
    | cons t rest =>
      rw [join.eq_3 _ _ _ (by simp), String.toList_append, String.toList_append] at h
      rcases List.mem_append.mp h with h | h
      · rcases List.mem_append.mp h with h | h
        · exact .inr ⟨s, List.mem_cons_self, h⟩
        · exact .inl h
      · exact (ih h).imp_right fun ⟨u, hu, hc⟩ => ⟨u, List.mem_cons_of_mem s hu, hc⟩

/-- Joined names begin with the first of them. -/
theorem prefix_join (n : String) (rest : List String) :
    n.toList <+: (join "/" (n :: rest)).toList := by
  cases rest with
  | nil => exact List.prefix_rfl
  | cons m rest =>
    rw [join.eq_3 _ _ _ (List.cons_ne_nil m rest), String.append_assoc, String.toList_append]
    exact List.prefix_append _ _

/-- Names without the separator can be told apart again once they are joined. -/
theorem split_join {names : List String} (hne : names ≠ [])
    (h : ∀ n ∈ names, '/' ∉ n.toList) : split '/' (join "/" names) = names := by
  induction names with
  | nil => exact absurd rfl hne
  | cons n rest ih =>
    obtain ⟨hn, hrest⟩ := List.forall_mem_cons.mp h
    cases rest with
    | nil => exact split_of_notMem hn
    | cons m rest =>
      have hjoin : (join "/" (n :: m :: rest)).toList =
          n.toList ++ '/' :: (join "/" (m :: rest)).toList := by
        change (n ++ "/" ++ join "/" (m :: rest)).toList = _
        simp
      have hfree : ∀ c ∈ n.toList, (c == '/') = false :=
        fun c hc => beq_false_of_ne fun he => hn (he ▸ hc)
      rw [split, hjoin, splitBy_append_cons hfree rfl, List.map_cons, String.ofList_toList]
      exact congrArg (n :: ·) (ih (by simp) hrest)

/-- The pieces of a text between its slashes, joined again. -/
theorem join_split (s : String) : join "/" (split '/' s) = s := by
  have hlist : ∀ s : List Char,
      (join "/" ((splitBy (· == '/') s).map String.ofList)).toList = s := by
    intro s
    induction s with
    | nil => rfl
    | cons c rest ih =>
      obtain ⟨piece, pieces, hrest⟩ := List.exists_cons_of_ne_nil (splitBy_ne_nil (· == '/') rest)
      rw [hrest] at ih
      rw [splitBy, hrest]
      by_cases hc : c = '/'
      · subst hc
        rw [if_pos (beq_self_eq_true _), List.map_cons, List.map_cons, join.eq_3 _ _ _ (by simp)]
        rw [List.map_cons] at ih
        simp [ih]
      · rw [if_neg (by simpa using hc)]
        cases pieces with
        | nil => simpa [join] using ih
        | cons next pieces =>
          simp only [List.map_cons, join.eq_3 _ _ _ (List.cons_ne_nil _ _)] at ih ⊢
          simpa using ih
  exact String.toList_injective (hlist s.toList)

theorem toList_join_append {names others : List String} (h : names ≠ []) (h' : others ≠ []) :
    (join "/" (names ++ others)).toList =
      (join "/" names).toList ++ '/' :: (join "/" others).toList := by
  induction names with
  | nil => exact absurd rfl h
  | cons n rest ih =>
    cases rest with
    | nil =>
      rw [List.singleton_append, join.eq_3 _ _ _ h']
      simp [join]
    | cons m rest =>
      rw [List.cons_append, join.eq_3 _ _ _ (by simp), join.eq_3 _ _ (m :: rest) (by simp),
        String.toList_append, ih (by simp)]
      simp

theorem splitBy_join {names : List String} (hne : names ≠ [])
    (h : ∀ n ∈ names, '/' ∉ n.toList) :
    splitBy (· == '/') (join "/" names).toList = names.map String.toList := by
  have hsplit := congrArg (List.map String.toList) (split_join hne h)
  rw [split, List.map_map] at hsplit
  rw [← hsplit]
  exact (List.map_id'' (fun _ => String.toList_ofList) _).symm

/-- Names that are joined to the same text are the same. -/
theorem join_inj {names others : List String} (hnames : names ≠ []) (hothers : others ≠ [])
    (h : ∀ n ∈ names, '/' ∉ n.toList) (h' : ∀ n ∈ others, '/' ∉ n.toList)
    (heq : join "/" names = join "/" others) : names = others := by
  rw [← split_join hnames h, heq, split_join hothers h']

/-- Where the text of joined names is cut at a slash, it is cut between two names. -/
theorem exists_of_join_eq {names : List String} (hne : names ≠ [])
    (h : ∀ n ∈ names, '/' ∉ n.toList) {s t : List Char}
    (heq : (join "/" names).toList = s ++ '/' :: t) :
    ∃ first rest, first ≠ [] ∧ rest ≠ [] ∧ names = first ++ rest ∧
      (join "/" first).toList = s ∧ (join "/" rest).toList = t := by
  have hjoin : ∀ s : List Char, (join "/" (split '/' (String.ofList s))).toList = s := by
    intro s
    rw [join_split, String.toList_ofList]
  have hpieces : ∀ s : String, split '/' s ≠ [] := fun s hnil =>
    splitBy_ne_nil _ _ (List.map_eq_nil_iff.mp hnil)
  refine ⟨_, _, hpieces _, hpieces _, ?_, hjoin s, hjoin t⟩
  rw [← split_join hne h, split, heq, splitBy_append_separator (p := (· == '/')) rfl,
    List.map_append, split, split, String.toList_ofList, String.toList_ofList]

theorem lower_append (s t : String) : lower (s ++ t) = lower s ++ lower t := by
  rw [lower, lower, lower, String.toList_append, List.flatMap_append, String.ofList_append]

end Ripple.Text
