import Ripple.Proofs.Entries
import Ripple.Proofs.JsonScalars
import Ripple.Proofs.Outcome

/-! # Reading documents that were written

Documents of nothing, truth values, integers, texts, lists and mappings with distinct texts as keys
read back as they were written, one item to a line, unless an integer has more digits than the
reader converts.
-/
namespace Ripple.Json

open Outcome

theorem skipSpace_cons {c : Char} (h : isSpace c = false) (s : List Char) :
    skipSpace (c :: s) = c :: s := by
  rw [skipSpace, List.dropWhile_cons, h, if_neg Bool.false_ne_true]

theorem skipSpace_newLine (spelling : Spelling) (level : Nat) (s : List Char) :
    skipSpace (newLine spelling level ++ s) = skipSpace s := by
  have hspace : ∀ c ∈ newLine spelling level, isSpace c = true := by
    intro c hc
    rw [newLine] at hc
    split_ifs at hc
    · rcases List.mem_cons.mp hc with rfl | hc
      · rfl
      · rw [List.eq_of_mem_replicate hc]
        rfl
    · cases hc
  exact List.dropWhile_append_of_pos hspace

mutual

/-- The value is made of forms that a document shows: nothing, truth values, integers, texts, lists
and mappings with distinct texts as keys. -/
def Plain : Value → Prop
  | .null | .bool _ | .int _ | .text _ => True
  | .list items => PlainItems items
  | .map entries => (entries.map (·.1)).Nodup ∧ PlainMembers entries
  | _ => False

def PlainItems : List Value → Prop
  | [] => True
  | v :: rest => Plain v ∧ PlainItems rest

def PlainMembers : List (Value × Value) → Prop
  | [] => True
  | (k, v) :: rest => (∃ s, k = .text s) ∧ Plain v ∧ PlainMembers rest

end

mutual

def Legible : Value → Prop
  | .int i => Convertible i
  | .list items => LegibleItems items
  | .map entries => LegibleMembers entries
  | _ => True

def LegibleItems : List Value → Prop
  | [] => True
  | v :: rest => Legible v ∧ LegibleItems rest

def LegibleMembers : List (Value × Value) → Prop
  | [] => True
  | (_, v) :: rest => Legible v ∧ LegibleMembers rest

end

/-- The text starts with a character that is no space, no closing bracket and no byte order mark. -/
def Starts (s : List Char) : Prop :=
  ∃ c rest, s = c :: rest ∧ isSpace c = false ∧ c ∉ [']', '\x7d', '\ufeff']

theorem Starts.skipSpace {s : List Char} (h : Starts s) (rest : List Char) :
    skipSpace (s ++ rest) = s ++ rest := by
  obtain ⟨c, cs, rfl, hc, -⟩ := h
  exact skipSpace_cons hc _

theorem ne_of_isDigit {c d : Char} (h : c.isDigit = true) (hd : d.isDigit = false) : c ≠ d := by
  rintro rfl
  rw [h] at hd
  cases hd

theorem starts_digit {c : Char} (h : c.isDigit = true) (rest : List Char) : Starts (c :: rest) := by
  refine ⟨c, rest, rfl, ?_, ?_⟩
  · simp [isSpace, ne_of_isDigit h]
  · simp [ne_of_isDigit h]

theorem starts_bracketed (spelling : Spelling) (level : Nat) {opening : Char} (closing : Char)
    (h : isSpace opening = false ∧ opening ∉ [']', '\x7d', '\ufeff']) (items : List (List Char)) :
    Starts (bracketed spelling level opening closing items) := by
  cases items with
  | nil => exact ⟨opening, _, rfl, h⟩
  | cons first rest => exact ⟨opening, _, rfl, h⟩

theorem starts_valueText (level : Nat) {v : Value} (h : Plain v) :
    Starts (valueText pretty level v) := by
  cases v with
  | null => exact ⟨_, _, rfl, rfl, by decide⟩
  | bool b => cases b <;> exact ⟨_, _, rfl, rfl, by decide⟩
  | int i =>
    rw [valueText, toList_toString_int]
    split_ifs
    · exact ⟨_, _, rfl, rfl, by decide⟩
    · obtain ⟨d, ds, hd⟩ :=
        List.exists_cons_of_ne_nil (Nat.toDigits_ne_nil (n := i.natAbs) (b := 10))
      rw [List.nil_append, hd]
      exact starts_digit (isDigit_of_mem_toDigits (hd ▸ List.mem_cons_self)) ds
  | text s => exact ⟨_, _, rfl, rfl, by decide⟩
  | list items => exact starts_bracketed _ _ _ (by decide) _
  | map entries => exact starts_bracketed _ _ _ (by decide) _
  | _ => cases h

/-- The text of the value is read back, whatever follows, if and only if its integers are
convertible. -/
structure ReadsBack (v : Value) : Prop where
  starts : ∀ level, Starts (valueText pretty level v)
  reads : ∀ {level fuel : Nat} {rest : List Char}, EndsNumber rest →
    (valueText pretty level v).length < fuel → ∀ p,
      readValue fuel (valueText pretty level v ++ rest) = .ok p ↔ Legible v ∧ p = (v, rest)

theorem find?_words_digit {c : Char} (h : c.isDigit = true) (s : List Char) :
    words.find? (fun w => w.1.isPrefixOf (c :: s)) = none := by
  have hne : ∀ d : Char, d.isDigit = false → d ≠ c := fun d hd => (ne_of_isDigit h hd).symm
  simp [words, hne]

theorem find?_words_minus {c : Char} (h : c.isDigit = true) (s : List Char) :
    words.find? (fun w => w.1.isPrefixOf ('-' :: c :: s)) = none := by
  have hne : ∀ d : Char, d.isDigit = false → d ≠ c := fun d hd => (ne_of_isDigit h hd).symm
  simp [words, hne]

/-- What starts with a digit, or with a minus and a digit, is read as a number. -/
theorem readValue_number {s : List Char} (fuel : Nat)
    (h : ∃ c cs, c.isDigit = true ∧ (s = c :: cs ∨ s = '-' :: c :: cs)) :
    readValue (fuel + 1) s = readNumber s := by
  obtain ⟨c, cs, hc, rfl | rfl⟩ := h
  · rw [readValue.eq_def]
    dsimp only
    split
    case h_4 => rw [find?_words_digit hc]
    all_goals simp_all
  · rw [readValue.eq_def]
    dsimp only
    rw [find?_words_minus hc]
    rfl

theorem readValue_int (i : Int) {fuel : Nat} {rest : List Char} (h : EndsNumber rest)
    (p : Value × List Char) :
    readValue (fuel + 1) ((toString i).toList ++ rest) = .ok p ↔
      Convertible i ∧ p = (.int i, rest) := by
  obtain ⟨d, ds, hd⟩ :=
    List.exists_cons_of_ne_nil (Nat.toDigits_ne_nil (n := i.natAbs) (b := 10))
  rw [readValue_number, eq_ok_iff_toOption, readNumber_toString i h]
  · split_ifs with hi <;> simp [hi, eq_comm]
  · refine ⟨d, ds ++ rest, isDigit_of_mem_toDigits (hd ▸ List.mem_cons_self), ?_⟩
    rw [toList_toString_int, hd]
    split_ifs <;> simp

theorem readValue_text (s : String) (fuel : Nat) (rest : List Char) :
    readValue (fuel + 1) (stringText false s ++ rest) = .ok (.text s, rest) := by
  rw [stringText, List.cons_append, List.append_assoc, List.singleton_append, readValue]
  exact readString_text _ s rest

/-- The items behind the first one of a list, each on its line. -/
def moreItems (level : Nat) (texts : List (List Char)) : List Char :=
  texts.flatMap fun item => ',' :: (newLine pretty level ++ item)

theorem endsNumber_comma (s : List Char) : EndsNumber (',' :: s) := by
  rintro c ⟨⟩
  decide

theorem endsNumber_newLine (level : Nat) (s : List Char) :
    EndsNumber (newLine pretty level ++ s) := by
  rintro c ⟨⟩
  decide

/-- Reading on behind a value that is read back. -/
theorem ReadsBack.bind_iff {v : Value} (h : ReadsBack v) {level fuel : Nat} {rest : List Char}
    (hends : EndsNumber rest) (hfuel : (valueText pretty level v).length < fuel) {α : Type}
    (next : Value × List Char → Except Fault α) (a : α) :
    readValue fuel (valueText pretty level v ++ rest) >>= next = .ok a ↔
      Legible v ∧ next (v, rest) = .ok a := by
  simp only [bind_eq_ok_iff, h.reads hends hfuel]
  constructor
  · rintro ⟨_, ⟨hlegible, rfl⟩, hnext⟩
    exact ⟨hlegible, hnext⟩
  · rintro ⟨hlegible, hnext⟩
    exact ⟨_, ⟨hlegible, rfl⟩, hnext⟩

theorem readItems_last {v : Value} (h : ReadsBack v) {level fuel : Nat} {done : List Value}
    {after rest : List Char} (hends : EndsNumber after) (hafter : skipSpace after = ']' :: rest)
    (hfuel : (valueText pretty level v).length < fuel) (p : Value × List Char) :
    readItems (fuel + 1) done (valueText pretty level v ++ after) = .ok p ↔
      Legible v ∧ p = (.list (done.reverse ++ [v]), rest) := by
  rw [readItems, h.bind_iff hends hfuel]
  simp [hafter, pure, Except.pure, eq_comm]

theorem readItems_next {v : Value} (h : ReadsBack v) {level fuel : Nat} {done : List Value}
    {after rest : List Char} (hends : EndsNumber after) (hafter : skipSpace after = ',' :: rest)
    (hfuel : (valueText pretty level v).length < fuel) (p : Value × List Char) :
    readItems (fuel + 1) done (valueText pretty level v ++ after) = .ok p ↔
      Legible v ∧ readItems fuel (v :: done) (skipSpace rest) = .ok p := by
  rw [readItems, h.bind_iff hends hfuel]
  simp only [hafter]

/-- The items of a list read back, each after those in front of it. -/
theorem readItems_iff {level : Nat} {v : Value} {items : List Value}
    (h : ∀ w ∈ v :: items, ReadsBack w) (outer : Nat) {done : List Value} {fuel : Nat}
    {rest : List Char} (p : Value × List Char)
    (hfuel : (valueText pretty level v).length +
      (moreItems level (itemTexts pretty level items)).length + 1 < fuel) :
    readItems fuel done (valueText pretty level v ++ (moreItems level
        (itemTexts pretty level items) ++ (newLine pretty outer ++ ']' :: rest))) = .ok p ↔
      LegibleItems (v :: items) ∧ p = (.list (done.reverse ++ v :: items), rest) := by
  induction items generalizing v done fuel with
  | nil =>
    obtain _ | fuel := fuel
    · cases hfuel
    have hv := h v List.mem_cons_self
    have hclose : skipSpace (newLine pretty outer ++ ']' :: rest) = ']' :: rest := by
      rw [skipSpace_newLine, skipSpace_cons rfl]
    rw [itemTexts, moreItems, List.flatMap_nil, List.nil_append,
      readItems_last hv (endsNumber_newLine outer _) hclose (by omega)]
    simp [LegibleItems]
  | cons w items ih =>
    obtain _ | fuel := fuel
    · cases hfuel
    obtain ⟨hv, hrest⟩ := List.forall_mem_cons.mp h
    have hmore : moreItems level (itemTexts pretty level (w :: items)) =
        ',' :: (newLine pretty level ++ (valueText pretty level w ++
          moreItems level (itemTexts pretty level items))) := by
      simp [moreItems, itemTexts]
    simp only [hmore, List.length_cons, List.length_append] at hfuel
    simp only [hmore, List.cons_append, List.append_assoc]
    rw [readItems_next hv (endsNumber_comma _) (skipSpace_cons rfl _) (by omega),
      skipSpace_newLine, ((hrest w List.mem_cons_self).starts level).skipSpace,
      ih hrest (by omega)]
    simp [LegibleItems, and_assoc]

/-- A member: name, colon, blank, value. -/
def memberText (level : Nat) (s : String) (v : Value) : List Char :=
  stringText false s ++ ':' :: ' ' :: valueText pretty level v

theorem memberTexts_cons (level : Nat) (s : String) (v : Value) (entries : List (Value × Value)) :
    memberTexts pretty level ((.text s, v) :: entries) =
      memberText level s v :: memberTexts pretty level entries := rfl

/-- What follows the value of a member: the end of the mapping or the next member. -/
def behindMember (fuel : Nat) (s : String) (done : List (Value × Value))
    (p : Value × List Char) : Except Fault (Value × List Char) :=
  match skipSpace p.2 with
  | '\x7d' :: rest => return (.map (Value.put (.text s) p.1 done), rest)
  | ',' :: rest => readMembers fuel (Value.put (.text s) p.1 done) (skipSpace rest)
  | rest => throw ⟨.expectedComma, rest⟩

/-- After its name and the colon, a member goes on like a value. -/
theorem readMembers_memberText (s : String) {v : Value} (h : ReadsBack v) (level fuel : Nat)
    (done : List (Value × Value)) (after : List Char) :
    readMembers (fuel + 1) done (memberText level s v ++ after) =
      readValue fuel (valueText pretty level v ++ after) >>= behindMember fuel s done := by
  have hspace : skipSpace (' ' :: (valueText pretty level v ++ after)) =
      valueText pretty level v ++ after := (h.starts level).skipSpace after
  have hcolon := skipSpace_cons (c := ':') rfl (' ' :: (valueText pretty level v ++ after))
  simp only [memberText, stringText, List.cons_append, List.append_assoc, List.nil_append,
    readMembers, readString_text]
  simp only [bind, Except.bind, hcolon, hspace]
  rfl

theorem readMembers_last (s : String) {v : Value} (h : ReadsBack v) {level fuel : Nat}
    {done : List (Value × Value)} {after rest : List Char} (hends : EndsNumber after)
    (hafter : skipSpace after = '\x7d' :: rest)
    (hfuel : (valueText pretty level v).length < fuel) (p : Value × List Char) :
    readMembers (fuel + 1) done (memberText level s v ++ after) = .ok p ↔
      Legible v ∧ p = (.map (Value.put (.text s) v done), rest) := by
  rw [readMembers_memberText s h, h.bind_iff hends hfuel, behindMember]
  simp [hafter, pure, Except.pure, eq_comm]

theorem readMembers_next (s : String) {v : Value} (h : ReadsBack v) {level fuel : Nat}
    {done : List (Value × Value)} {after rest : List Char} (hends : EndsNumber after)
    (hafter : skipSpace after = ',' :: rest)
    (hfuel : (valueText pretty level v).length < fuel) (p : Value × List Char) :
    readMembers (fuel + 1) done (memberText level s v ++ after) = .ok p ↔
      Legible v ∧ readMembers fuel (Value.put (.text s) v done) (skipSpace rest) = .ok p := by
  rw [readMembers_memberText s h, h.bind_iff hends hfuel]
  simp only [behindMember, hafter]

theorem length_valueText_lt_memberText (level : Nat) (s : String) (v : Value) :
    (valueText pretty level v).length < (memberText level s v).length := by
  simp only [memberText, List.length_append, List.length_cons]
  omega

theorem starts_memberText (level : Nat) (s : String) (v : Value) :
    Starts (memberText level s v) :=
  ⟨_, _, rfl, rfl, by decide⟩

theorem notMem_keys_of_nodup {done entries : List (Value × Value)} {e : Value × Value}
    (h : ((done ++ e :: entries).map (·.1)).Nodup) : e.1 ∉ done.map (·.1) := by
  rw [List.map_append, List.map_cons, List.nodup_middle, List.nodup_cons] at h
  exact fun hmem => h.1 (List.mem_append_left _ hmem)

/-- The members of a mapping read back, each after those in front of it. -/
theorem readMembers_iff {level : Nat} {s : String} {v : Value} {entries : List (Value × Value)}
    (htexts : ∀ e ∈ entries, ∃ s, e.1 = .text s) (h : ∀ e ∈ (.text s, v) :: entries, ReadsBack e.2)
    (outer : Nat) {done : List (Value × Value)}
    (hkeys : ((done ++ (.text s, v) :: entries).map (·.1)).Nodup) {fuel : Nat}
    {rest : List Char} (p : Value × List Char)
    (hfuel : (memberText level s v).length +
      (moreItems level (memberTexts pretty level entries)).length < fuel) :
    readMembers fuel done (memberText level s v ++ (moreItems level
        (memberTexts pretty level entries) ++ (newLine pretty outer ++ '\x7d' :: rest))) = .ok p ↔
      LegibleMembers ((.text s, v) :: entries) ∧
        p = (.map (done ++ (.text s, v) :: entries), rest) := by
  induction entries generalizing s v done fuel with
  | nil =>
    obtain _ | fuel := fuel
    · cases hfuel
    have hv : ReadsBack v := h _ List.mem_cons_self
    have hlength := length_valueText_lt_memberText level s v
    have hclose : skipSpace (newLine pretty outer ++ '\x7d' :: rest) = '\x7d' :: rest := by
      rw [skipSpace_newLine, skipSpace_cons rfl]
    rw [memberTexts, moreItems, List.flatMap_nil, List.nil_append,
      readMembers_last s hv (endsNumber_newLine outer _) hclose (by omega),
      Value.put_eq_append (notMem_keys_of_nodup hkeys)]
    simp [LegibleMembers]
  | cons e entries ih =>
    obtain _ | fuel := fuel
    · cases hfuel
    obtain ⟨key, w⟩ := e
    obtain ⟨⟨t, rfl⟩, hothers⟩ := List.forall_mem_cons.mp htexts
    have hv : ReadsBack v := h _ List.mem_cons_self
    have hrest : ∀ e ∈ (.text t, w) :: entries, ReadsBack e.2 :=
      fun e he => h e (List.mem_cons_of_mem _ he)
    have hlength := length_valueText_lt_memberText level s v
    have hmore : moreItems level (memberTexts pretty level ((.text t, w) :: entries)) =
        ',' :: (newLine pretty level ++ (memberText level t w ++
          moreItems level (memberTexts pretty level entries))) := by
      simp [moreItems, memberTexts_cons]
    simp only [hmore, List.length_cons, List.length_append] at hfuel
    simp only [hmore, List.cons_append, List.append_assoc]
    rw [readMembers_next s hv (endsNumber_comma _) (skipSpace_cons rfl _) (by omega),
      skipSpace_newLine, (starts_memberText level t w).skipSpace,
      Value.put_eq_append (notMem_keys_of_nodup hkeys),
      ih hothers hrest (by simpa using hkeys) (by omega)]
    simp [LegibleMembers, and_assoc]

theorem Starts.append {s : List Char} (h : Starts s) (rest : List Char) : Starts (s ++ rest) := by
  obtain ⟨c, cs, rfl, hc⟩ := h
  exact ⟨c, cs ++ rest, rfl, hc⟩

theorem readValue_items {s : List Char} (h : Starts (skipSpace s)) (fuel : Nat) :
    readValue (fuel + 1) ('[' :: s) = readItems fuel [] (skipSpace s) := by
  obtain ⟨c, cs, hs, -, hc⟩ := h
  rw [readValue]
  split
  · rename_i heq
    rw [hs] at heq
    exact absurd (by simp [(List.cons.inj heq).1]) hc
  · rfl

theorem readValue_members {s : List Char} (h : Starts (skipSpace s)) (fuel : Nat) :
    readValue (fuel + 1) ('\x7b' :: s) = readMembers fuel [] (skipSpace s) := by
  obtain ⟨c, cs, hs, -, hc⟩ := h
  rw [readValue]
  split
  · rename_i heq
    rw [hs] at heq
    exact absurd (by simp [(List.cons.inj heq).1]) hc
  · rfl

theorem valueText_list_cons (level : Nat) (v : Value) (items : List Value) (rest : List Char) :
    valueText pretty level (.list (v :: items)) ++ rest =
      '[' :: (newLine pretty (level + 1) ++ (valueText pretty (level + 1) v ++
        (moreItems (level + 1) (itemTexts pretty (level + 1) items) ++
          (newLine pretty level ++ ']' :: rest)))) := by
  simp [valueText, itemTexts, bracketed, moreItems]

theorem valueText_map_cons (level : Nat) (s : String) (v : Value) (entries : List (Value × Value))
    (rest : List Char) :
    valueText pretty level (.map ((.text s, v) :: entries)) ++ rest =
      '\x7b' :: (newLine pretty (level + 1) ++ (memberText (level + 1) s v ++
        (moreItems (level + 1) (memberTexts pretty (level + 1) entries) ++
          (newLine pretty level ++ '\x7d' :: rest)))) := by
  simp [valueText, memberTexts_cons, bracketed, moreItems]

theorem readsBack_list {items : List Value} (h : ∀ v ∈ items, ReadsBack v) :
    ReadsBack (.list items) := by
  refine ⟨fun level => starts_bracketed _ _ _ (by decide) _, ?_⟩
  intro level fuel rest hends hfuel p
  obtain _ | fuel := fuel
  · cases hfuel
  cases items with
  | nil =>
    simp [valueText, itemTexts, bracketed, readValue, skipSpace_cons (c := ']') rfl, Legible,
      LegibleItems, eq_comm]
  | cons v items =>
    have hstarts := (h v List.mem_cons_self).starts (level + 1)
    have hlength := congrArg List.length (valueText_list_cons level v items [])
    simp only [List.append_nil, List.length_cons, List.length_append] at hlength
    rw [valueText_list_cons, readValue_items, skipSpace_newLine, hstarts.skipSpace,
      readItems_iff h level p (by omega)]
    · rfl
    · rw [skipSpace_newLine, hstarts.skipSpace]
      exact hstarts.append _

theorem readsBack_map {entries : List (Value × Value)} (hkeys : (entries.map (·.1)).Nodup)
    (h : ∀ e ∈ entries, (∃ s, e.1 = .text s) ∧ ReadsBack e.2) : ReadsBack (.map entries) := by
  refine ⟨fun level => starts_bracketed _ _ _ (by decide) _, ?_⟩
  intro level fuel rest hends hfuel p
  obtain _ | fuel := fuel
  · cases hfuel
  cases entries with
  | nil =>
    simp [valueText, memberTexts, bracketed, readValue, skipSpace_cons (c := '\x7d') rfl, Legible,
      LegibleMembers, eq_comm]
  | cons e entries =>
    obtain ⟨key, v⟩ := e
    obtain ⟨⟨⟨s, rfl⟩, -⟩, hothers⟩ := List.forall_mem_cons.mp h
    have hstarts := starts_memberText (level + 1) s v
    have hlength := congrArg List.length (valueText_map_cons level s v entries [])
    simp only [List.append_nil, List.length_cons, List.length_append] at hlength
    rw [valueText_map_cons, readValue_members, skipSpace_newLine, hstarts.skipSpace,
      readMembers_iff (fun e he => (hothers e he).1) (fun e he => (h e he).2) level hkeys p
        (by omega)]
    · rfl
    · rw [skipSpace_newLine, hstarts.skipSpace]
      exact hstarts.append _

/-- What is read back whatever its integers are. -/
theorem readsBack_of_eq_ok {v : Value} (hplain : Plain v) (hlegible : Legible v)
    (h : ∀ level fuel rest,
      readValue (fuel + 1) (valueText pretty level v ++ rest) = .ok (v, rest)) : ReadsBack v := by
  refine ⟨fun level => starts_valueText level hplain, ?_⟩
  intro level fuel rest _ hfuel p
  obtain _ | fuel := fuel
  · cases hfuel
  · rw [h]
    simp [hlegible, eq_comm]

theorem readsBack_int (i : Int) : ReadsBack (.int i) := by
  refine ⟨fun level => starts_valueText level trivial, ?_⟩
  intro level fuel rest hends hfuel p
  obtain _ | fuel := fuel
  · cases hfuel
  · exact readValue_int i hends p

mutual

/-- Every document of plain values reads back. -/
theorem readsBack : ∀ v : Value, Plain v → ReadsBack v
  | .null, h => readsBack_of_eq_ok h trivial fun _ _ _ => rfl
  | .bool true, h => readsBack_of_eq_ok h trivial fun _ _ _ => rfl
  | .bool false, h => readsBack_of_eq_ok h trivial fun _ _ _ => rfl
  | .int i, _ => readsBack_int i
  | .text s, h => readsBack_of_eq_ok h trivial fun _ => readValue_text s
  | .list items, h => readsBack_list (readsBack_items items h)
  | .map entries, h => readsBack_map h.1 (readsBack_members entries h.2)

theorem readsBack_items : ∀ items : List Value, PlainItems items → ∀ v ∈ items, ReadsBack v
  | [], _ => by simp
  | v :: rest, h => List.forall_mem_cons.mpr ⟨readsBack v h.1, readsBack_items rest h.2⟩

theorem readsBack_members : ∀ entries : List (Value × Value), PlainMembers entries →
    ∀ e ∈ entries, (∃ s, e.1 = .text s) ∧ ReadsBack e.2
  | [], _ => by simp
  | (_, v) :: rest, h =>
    List.forall_mem_cons.mpr ⟨⟨h.1, readsBack v h.2.1⟩, readsBack_members rest h.2.2⟩

end

/-- What is written one item to a line is read as it was if and only if its integers are
convertible. -/
theorem parse_render_pretty_iff {v : Value} (h : Plain v) (w : Value) :
    parse (render pretty v).toList = .ok w ↔ Legible v ∧ w = v := by
  have hback := readsBack v h
  have hends : EndsNumber [] := by simp [EndsNumber]
  have hspace := (hback.starts 0).skipSpace []
  obtain ⟨c, cs, hc, -, hmark⟩ := hback.starts 0
  rw [render, String.toList_ofList, parse]
  · rw [← List.append_nil (valueText pretty 0 v), hspace, hback.bind_iff hends (by simp)]
    simp [skipSpace, pure, Except.pure, eq_comm]
  · intro rest heq
    rw [hc] at heq
    exact hmark (by simp [(List.cons.inj heq).1])

end Ripple.Json
