import Mathlib.Algebra.Group.Nat.Defs
import Mathlib.Data.List.Infix
import Ripple.Proofs.Outcome
import Ripple.Regex.Reader

/-! # Why written expressions are refused

A text is refused because it is no expression or because of a repetition count. Counts are read
behind an opening brace and nowhere else, and one of fewer than ten digits is in range. So a text
without a long bound, which is a brace with ten digits in a row among the digits and commas behind
it, is read or is not well formed.
-/
namespace Ripple.Regex

open Outcome

/-- An opening brace, digits and commas, and ten digits in a row. -/
def IsLongBound (w : List Char) : Prop :=
  ∃ between digits, w = '\x7b' :: (between ++ digits) ∧
    (∀ c ∈ between, c = ',' ∨ c.isDigit = true) ∧ (∀ c ∈ digits, c.isDigit = true) ∧
    digits.length = 10

def HasLongBound (s : List Char) : Prop := ∃ w, IsLongBound w ∧ w <:+: s

def LongBoundIn (ts : List Token) : Prop := ∃ w, IsLongBound w ∧ w.map .plain <:+: ts

variable {α β : Type} {ts ts' : List Token} {rest : α → List Token} {x : Except Fault α}

theorem LongBoundIn.mono (h : LongBoundIn ts') (hs : ts' <:+ ts) : LongBoundIn ts :=
  h.imp fun _ hw => ⟨hw.1, hw.2.trans hs.isInfix⟩

/-- Of the tokens an end is left, and a fault other than that they are not well formed comes from a
long bound in them. -/
structure Reads (ts : List Token) (rest : α → List Token) (x : Except Fault α) : Prop where
  leaves : ∀ a, x = .ok a → rest a <:+ ts
  fault : ∀ f, x = .error f → f = .malformed ∨ LongBoundIn ts

theorem reads_ok {a : α} (h : rest a <:+ ts) : Reads ts rest (.ok a) where
  leaves := by
    rintro _ ⟨⟩
    exact h
  fault := nofun

theorem reads_malformed : Reads ts rest (.error .malformed) where
  leaves := nofun
  fault := by
    rintro _ ⟨⟩
    exact .inl rfl

theorem Reads.mono (h : Reads ts' rest x) (hs : ts' <:+ ts) : Reads ts rest x where
  leaves a ha := (h.leaves a ha).trans hs
  fault f hf := (h.fault f hf).imp_right fun hbound => hbound.mono hs

theorem Reads.bind {rest' : β → List Token} {f : α → Except Fault β} (h : Reads ts rest x)
    (hf : ∀ a, Reads (rest a) rest' (f a)) : Reads ts rest' (x >>= f) := by
  cases x with
  | error fault =>
    refine ⟨nofun, ?_⟩
    rintro _ ⟨⟩
    exact h.fault fault rfl
  | ok a => exact (hf a).mono (h.leaves a rfl)

theorem Reads.map {rest' : β → List Token} (h : Reads ts rest x) {g : α → β}
    (hg : ∀ a, rest' (g a) = rest a) : Reads ts rest' (x.map g) := by
  cases x with
  | error fault =>
    refine ⟨nofun, ?_⟩
    rintro _ ⟨⟩
    exact h.fault fault rfl
  | ok a => exact reads_ok ((hg a).symm ▸ h.leaves a rfl)

/-- The digits that are taken stand in front of the rest. -/
theorem exists_of_takeDigits (digit? : Char → Option Nat) (limit : Nat) (ts : List Token) :
    ∃ cs : List Char, ts = cs.map .plain ++ (takeDigits digit? limit ts).2 ∧
      cs.map digit? = (takeDigits digit? limit ts).1.map some := by
  induction limit generalizing ts with
  | zero => exact ⟨[], by simp [takeDigits]⟩
  | succ limit ih =>
    rw [takeDigits.eq_def]
    split
    · rename_i c rest' heq
      cases heq
      split
      · rename_i d hd
        obtain ⟨cs, hts, hcs⟩ := ih rest'
        exact ⟨c :: cs, by simpa using hts, by simpa [hd] using hcs⟩
      · exact ⟨[], rfl, rfl⟩
    · exact ⟨[], rfl, rfl⟩

theorem takeDigits_suffix (digit? : Char → Option Nat) (limit : Nat) (ts : List Token) :
    (takeDigits digit? limit ts).2 <:+ ts := by
  obtain ⟨cs, hts, -⟩ := exists_of_takeDigits digit? limit ts
  exact ⟨cs.map .plain, hts.symm⟩

theorem reads_hex (count : Nat) (ts : List Token) : Reads ts Prod.snd (readHex count ts) := by
  rw [readHex]
  dsimp only
  split_ifs
  · exact reads_ok (takeDigits_suffix ..)
  · exact reads_malformed

theorem takeName_suffix {name : List Char} {left : List Token}
    (h : takeName ts = some (name, left)) : left <:+ ts := by
  induction ts generalizing name left with
  | nil => cases h
  | cons t rest ih =>
    cases t with
    | plain c =>
      rw [takeName] at h
      split_ifs at h
      · cases h
        exact List.suffix_cons ..
      · obtain ⟨p, hp, h⟩ := Option.map_eq_some_iff.mp h
        cases h
        exact (ih hp).trans (List.suffix_cons ..)
    | escaped c =>
      obtain ⟨p, hp, h⟩ := Option.map_eq_some_iff.mp h
      cases h
      exact (ih hp).trans (List.suffix_cons ..)
    | dangling => cases h

section Escapes

variable [Names]

theorem reads_named (ts : List Token) : Reads ts Prod.snd (readNamed ts) := by
  rw [readNamed.eq_def]
  split
  · split
    · rename_i hname
      split
      · exact reads_ok ((takeName_suffix hname).trans (List.suffix_cons ..))
      · exact reads_malformed
    · exact reads_malformed
  · exact reads_malformed

theorem reads_charEscape (c : Char) (ts : List Token) :
    Reads ts Prod.snd (readCharEscape c ts) := by
  rw [readCharEscape.eq_def]
  split
  · exact reads_hex 2 ts
  · exact reads_hex 4 ts
  · exact reads_hex 8 ts
  · exact reads_named ts
  · split_ifs
    · exact reads_malformed
    · exact reads_ok List.suffix_rfl

theorem reads_escape (groups : Groups) (c : Char) (ts : List Token) :
    Reads ts Prod.snd (readEscape groups c ts) := by
  rw [readEscape.eq_def]
  split
  · exact reads_ok List.suffix_rfl
  · exact reads_ok List.suffix_rfl
  · exact reads_ok List.suffix_rfl
  · exact reads_ok List.suffix_rfl
  · exact reads_ok (takeDigits_suffix ..)
  · split
    · exact reads_ok List.suffix_rfl
    · split
      · exact reads_ok List.suffix_rfl
      · split
        · exact (reads_charEscape c ts).map fun _ => rfl
        · dsimp only
          split_ifs
          · exact reads_malformed
          · exact reads_ok (takeDigits_suffix ..)
          · exact reads_ok (takeDigits_suffix ..)
          · exact reads_malformed

theorem reads_classEscape (c : Char) (ts : List Token) :
    Reads ts Prod.snd (readClassEscape c ts) := by
  rw [readClassEscape]
  split
  · exact reads_ok List.suffix_rfl
  · split
    · exact reads_ok List.suffix_rfl
    · split
      · dsimp only
        split_ifs
        · exact reads_malformed
        · exact reads_ok (takeDigits_suffix ..)
      · exact (reads_charEscape c ts).map fun _ => rfl

theorem reads_classAtom (ts : List Token) : Reads ts Prod.snd (readClassAtom ts) := by
  rw [readClassAtom.eq_def]
  split
  · exact reads_ok (List.suffix_cons ..)
  · exact (reads_classEscape _ _).mono (List.suffix_cons ..)
  · exact reads_malformed

theorem reads_class (fuel : Nat) (members : List ClassItem) (ts : List Token) :
    Reads ts Prod.snd (readClass fuel members ts) := by
  induction fuel generalizing members ts with
  | zero => exact reads_malformed
  | succ fuel ih =>
    rw [readClass.eq_def]
    dsimp only
    split
    · exact reads_ok (List.suffix_cons ..)
    · refine (reads_classAtom ts).bind fun ⟨item, rest⟩ => ?_
      dsimp only
      split
      · exact reads_ok ((List.suffix_cons ..).trans (List.suffix_cons ..))
      · refine Reads.mono ?_ (List.suffix_cons ..)
        refine (reads_classAtom _).bind fun ⟨upper, rest⟩ => ?_
        dsimp only
        split
        · split_ifs
          · exact reads_malformed
          · exact ih _ _
        · exact reads_malformed
      · exact ih _ _

end Escapes

theorem reads_repeatLast (items : List Regex) (bounds : Nat × Option Nat) (ts : List Token) :
    Reads ts Prod.snd (repeatLast items bounds ts) := by
  rw [repeatLast.eq_def]
  split
  · exact reads_malformed
  · split_ifs
    · split
      · exact reads_ok (List.suffix_cons ..)
      · exact reads_ok List.suffix_rfl
    · exact reads_malformed

theorem isDigit_of_decimalValue? {c : Char} {d : Nat} (h : decimalValue? c = some d) :
    c.isDigit = true ∧ d < 10 := by
  rw [decimalValue?] at h
  split_ifs at h with hc
  cases h
  obtain ⟨hlow, hhigh⟩ := hc
  have hhigh' : c.toNat ≤ '9'.toNat := hhigh
  refine ⟨by simpa [Char.isDigit] using ⟨hlow, hhigh⟩, ?_⟩
  simp at hhigh'
  omega

theorem ofDigits_lt {base : Nat} {ds : List Nat} (h : ∀ d ∈ ds, d < base) :
    ofDigits base ds < base ^ ds.length := by
  induction ds using List.reverseRecOn with
  | nil => simp [ofDigits]
  | append_singleton ds d ih =>
    have hd : d < base := h d (by simp)
    have hds := ih fun e he => h e (List.mem_append_left _ he)
    have hlast : ofDigits base (ds ++ [d]) = ofDigits base ds * base + d := by
      simp [ofDigits]
    rw [hlast, List.length_append, List.length_singleton, Nat.pow_succ]
    calc
      ofDigits base ds * base + d < ofDigits base ds * base + base := by omega
      _ = (ofDigits base ds + 1) * base := (Nat.succ_mul ..).symm
      _ ≤ base ^ ds.length * base := Nat.mul_le_mul_right base hds

/-- The characters are decimal digits with these values. -/
structure Writes (cs : List Char) (ds : List Nat) : Prop where
  length : cs.length = ds.length
  digits : ∀ c ∈ cs, c.isDigit = true
  values : ∀ d ∈ ds, d < 10

/-- The digits of a count stand in front of the rest. -/
theorem exists_writes (limit : Nat) (ts : List Token) :
    ∃ cs, Writes cs (takeDigits decimalValue? limit ts).1 ∧
      ts = cs.map .plain ++ (takeDigits decimalValue? limit ts).2 := by
  obtain ⟨cs, hts, hcs⟩ := exists_of_takeDigits decimalValue? limit ts
  refine ⟨cs, ⟨by simpa using congrArg List.length hcs, fun c hc => ?_, fun d hd => ?_⟩, hts⟩
  · obtain ⟨d, -, hd⟩ := List.mem_map.mp (hcs ▸ List.mem_map_of_mem hc)
    exact (isDigit_of_decimalValue? hd.symm).1
  · obtain ⟨c, -, hc⟩ := List.mem_map.mp (hcs ▸ List.mem_map_of_mem hd)
    exact (isDigit_of_decimalValue? hc).2

/-- A count out of range has at least ten digits. -/
theorem le_length_of_readCount {ds : List Nat} {f : Fault} (hds : ∀ d ∈ ds, d < 10)
    (h : readCount ds = .error f) : 10 ≤ ds.length := by
  rw [readCount] at h
  split_ifs at h with hlong hlarge
  · exact le_trans (by decide) hlong.le
  · by_contra hshort
    have hlt := (ofDigits_lt hds).trans_le
      (Nat.pow_le_pow_right (by decide) (show ds.length ≤ 9 by omega))
    have hlimit : 10 ^ 9 ≤ countLimit := by decide
    omega

theorem Writes.longBoundIn {cs : List Char} {ds : List Nat} (h : Writes cs ds) {f : Fault}
    (hcount : readCount ds = .error f) {between : List Char}
    (hbetween : ∀ c ∈ between, c = ',' ∨ c.isDigit = true) (left : List Token) :
    LongBoundIn (.plain '\x7b' :: (between.map .plain ++ (cs.map .plain ++ left))) := by
  have hlength : 10 ≤ cs.length := h.length ▸ le_length_of_readCount h.values hcount
  have hsplit : cs.map Token.plain = (cs.take 10).map .plain ++ (cs.drop 10).map .plain := by
    rw [← List.map_append, List.take_append_drop]
  refine ⟨'\x7b' :: (between ++ cs.take 10), ⟨between, cs.take 10, rfl, hbetween, ?_, ?_⟩,
    [], (cs.drop 10).map .plain ++ left, ?_⟩
  · exact fun c hc => h.digits c (List.mem_of_mem_take hc)
  · rw [List.length_take, Nat.min_eq_left hlength]
  · rw [hsplit]
    simp only [List.map_cons, List.map_append, List.nil_append, List.cons_append,
      List.append_assoc]

theorem of_checkBounds {low : List Nat} {high : Option (List Nat)} {f : Fault}
    (h : checkBounds low high = .error f) :
    f = .malformed ∨ readCount low = .error f ∨ readCount (high.getD low) = .error f := by
  rw [checkBounds] at h
  rcases bind_eq_error_iff.mp h with hlow | ⟨least, -, h⟩
  · exact .inr (.inl hlow)
  · dsimp only at h
    split at h
    · cases h
    · rcases bind_eq_error_iff.mp h with hhigh | ⟨most, -, h⟩
      · exact .inr (.inr hhigh)
      · split at h
        · cases h
          exact .inl rfl
        · cases h

/-- The bounds of a repetition as they stand: one count, or two with a comma between them. -/
theorem exists_of_readBounds {low : List Nat} {high : Option (List Nat)} {left : List Token}
    (h : readBounds ts = some ((low, high), left)) :
    ∃ cs, Writes cs low ∧
      (high = none ∧ ts = cs.map .plain ++ .plain '\x7d' :: left ∨
        ∃ ds values, high = some values ∧ Writes ds values ∧
          ts = cs.map .plain ++ .plain ',' :: (ds.map .plain ++ .plain '\x7d' :: left)) := by
  obtain ⟨cs, hcs, hts⟩ := exists_writes ts.length ts
  rw [readBounds.eq_def] at h
  split at h
  · cases h
  · dsimp only at h
    split at h
    · rename_i behind hcomma
      obtain ⟨ds, hds, hbehind⟩ := exists_writes behind.length behind
      rw [hcomma, hbehind] at hts
      split at h
      · rename_i hbrace
        cases h
        rw [hbrace] at hts
        exact ⟨cs, hcs, .inr ⟨ds, _, rfl, hds, hts⟩⟩
      · cases h
    · rename_i hbrace
      cases h
      rw [hbrace] at hts
      exact ⟨cs, hcs, .inl ⟨rfl, hts⟩⟩
    · cases h

theorem reads_bounds {low : List Nat} {high : Option (List Nat)} {left : List Token}
    (h : readBounds ts = some ((low, high), left)) :
    Reads (.plain '\x7b' :: ts) (fun _ => left) (checkBounds low high) := by
  have hnone : ∀ c ∈ ([] : List Char), c = ',' ∨ c.isDigit = true := nofun
  obtain ⟨cs, hcs, ⟨rfl, rfl⟩ | ⟨ds, values, rfl, hds, rfl⟩⟩ := exists_of_readBounds h
  · refine ⟨fun _ _ => ?_, fun f hf => ?_⟩
    · exact (List.suffix_cons ..).trans ((List.suffix_append ..).trans (List.suffix_cons ..))
    · rcases of_checkBounds hf with hf | hf | hf
      · exact .inl hf
      · exact .inr (hcs.longBoundIn hf hnone _)
      · exact .inr (hcs.longBoundIn hf hnone _)
  · have hbetween : ∀ c ∈ cs ++ [','], c = ',' ∨ c.isDigit = true := by
      intro c hc
      rcases List.mem_append.mp hc with hc | hc
      · exact .inr (hcs.digits c hc)
      · exact .inl (List.mem_singleton.mp hc)
    refine ⟨fun _ _ => ?_, fun f hf => ?_⟩
    · exact ((List.suffix_cons ..).trans (List.suffix_append ..)).trans
        ((List.suffix_cons ..).trans ((List.suffix_append ..).trans (List.suffix_cons ..)))
    · rcases of_checkBounds hf with hf | hf | hf
      · exact .inl hf
      · exact .inr (hcs.longBoundIn hf hnone _)
      · have hbound := hds.longBoundIn hf hbetween (.plain '\x7d' :: left)
        simp only [List.map_append, List.map_singleton, List.append_assoc,
          List.singleton_append] at hbound
        exact .inr hbound

theorem reads_parts [Names] (fuel : Nat) :
    (∀ groups ts, Reads ts (·.2.2) (readBranches fuel groups ts)) ∧
      ∀ groups items ts, Reads ts (·.2.2) (readItems fuel groups items ts) := by
  induction fuel with
  | zero =>
    refine ⟨fun groups ts => ?_, fun groups items ts => ?_⟩
    · rw [readBranches]
      exact reads_malformed
    · rw [readItems]
      exact reads_malformed
  | succ fuel ih =>
    obtain ⟨hbranches, hitems⟩ := ih
    refine ⟨fun groups ts => ?_, fun groups items ts => ?_⟩
    · rw [readBranches]
      refine (hitems groups [] ts).bind fun ⟨first, groups, left⟩ => ?_
      dsimp only
      split
      · refine Reads.mono ?_ (List.suffix_cons ..)
        refine (hbranches groups _).bind fun ⟨second, groups, left⟩ => ?_
        exact reads_ok List.suffix_rfl
      · exact reads_ok List.suffix_rfl
    · have hnext : ∀ (c : Token) (ts : List Token) groups items,
          Reads (c :: ts) (·.2.2) (readItems fuel groups items ts) := fun c ts groups items =>
        (hitems groups items ts).mono (List.suffix_cons ..)
      rw [readItems.eq_def]
      dsimp only
      split
      · exact reads_ok List.suffix_rfl
      · exact reads_ok List.suffix_rfl
      · exact reads_ok List.suffix_rfl
      · exact reads_malformed
      · exact Reads.mono ((reads_escape ..).bind fun ⟨item, left⟩ => hitems ..)
          (List.suffix_cons ..)
      · exact Reads.mono ((reads_class ..).bind fun ⟨members, left⟩ => hitems ..)
          ((List.suffix_cons ..).trans (List.suffix_cons ..))
      · exact Reads.mono ((reads_class ..).bind fun ⟨members, left⟩ => hitems ..)
          (List.suffix_cons ..)
      · refine Reads.mono ?_ (List.suffix_cons ..)
        refine (hbranches ..).bind fun ⟨body, groups, left⟩ => ?_
        dsimp only
        split
        · exact hnext ..
        · exact reads_malformed
      · exact hnext ..
      · exact hnext ..
      · exact hnext ..
      · exact Reads.mono ((reads_repeatLast ..).bind fun ⟨items, left⟩ => hitems ..)
          (List.suffix_cons ..)
      · exact Reads.mono ((reads_repeatLast ..).bind fun ⟨items, left⟩ => hitems ..)
          (List.suffix_cons ..)
      · exact Reads.mono ((reads_repeatLast ..).bind fun ⟨items, left⟩ => hitems ..)
          (List.suffix_cons ..)
      · split
        · exact hnext ..
        · exact reads_malformed
        · rename_i hbounds
          refine (reads_bounds hbounds).bind fun bounds => ?_
          exact (reads_repeatLast ..).bind fun ⟨items, left⟩ => hitems ..
      · exact hnext ..

theorem tokens_plain {c : Char} {rest : List Char} (hdangling : c = '\\' → rest = [] → False)
    (hescaped : ∀ d l, c = '\\' → rest = d :: l → False) :
    tokens (c :: rest) = .plain c :: tokens rest := by
  rw [tokens]
  · exact hdangling
  · exact hescaped

theorem prefix_of_tokens {w s : List Char} (h : w.map .plain <+: tokens s) : w <+: s := by
  induction s using tokens.induct generalizing w with
  | case1 => simpa [tokens] using h
  | case2 => cases w <;> simp_all [tokens]
  | case3 c rest ih => cases w <;> simp_all [tokens]
  | case4 c rest hdangling hescaped ih =>
    rw [tokens_plain hdangling hescaped] at h
    cases w with
    | nil => exact List.nil_prefix
    | cons d w =>
      rw [List.map_cons, List.cons_prefix_cons] at h
      obtain ⟨hd, hw⟩ := h
      cases hd
      exact List.cons_prefix_cons.mpr ⟨rfl, ih hw⟩

/-- Characters that stand in a row among the tokens stand in a row in the text. -/
theorem infix_of_tokens {w s : List Char} (h : w.map .plain <:+: tokens s) : w <:+: s := by
  induction s using tokens.induct with
  | case1 => simpa [tokens] using h
  | case2 =>
    rcases List.infix_cons_iff.mp h with h | h
    · exact (prefix_of_tokens (s := ['\\']) h).isInfix
    · simp_all
  | case3 c rest ih =>
    rw [tokens] at h
    rcases List.infix_cons_iff.mp h with h | h
    · cases w <;> simp_all
    · exact (ih h).trans ⟨['\\', c], [], by simp⟩
  | case4 c rest hdangling hescaped ih =>
    have heq := tokens_plain hdangling hescaped
    rcases List.infix_cons_iff.mp (heq ▸ h) with h | h
    · exact (prefix_of_tokens (heq ▸ h)).isInfix
    · exact (ih h).trans (List.suffix_cons c rest).isInfix

/-- Unless it is not well formed, a text without a long bound is read. -/
theorem hasLongBound_of_parse [Names] {s : List Char} {f : Fault} (h : parse s = .error f)
    (hf : f ≠ .malformed) : HasLongBound s := by
  have hreads : Reads (tokens s) (fun _ => []) (parse s) := by
    refine ((reads_parts _).1 _ _).bind fun ⟨r, groups, left⟩ => ?_
    dsimp only
    split
    · exact reads_ok (List.nil_suffix ..)
    · exact reads_malformed
  obtain ⟨w, hw, hin⟩ := (hreads.fault f h).resolve_left hf
  exact ⟨w, hw, infix_of_tokens hin⟩

end Ripple.Regex
