import Ripple.Proofs.RegexLanguage

/-! # Preferred matches

The search prefers longer repetitions. A repetition of one character therefore takes all characters
that pass, provided that what remains succeeds there, or fails wherever one more character passes.
The matches in a text are those that the expression finds at the first place where it finds one,
then at the first such place behind it, and so on, provided that it matches no empty text.
-/
namespace Ripple.Regex

/-- The place behind all characters that pass a test. -/
def Cursor.skipWhile (test : Char → Bool) (s : Cursor) : Cursor :=
  ⟨(s.ahead.takeWhile test).reverse ++ s.behind, s.ahead.dropWhile test, s.groups⟩

section Cursor

variable {test : Char → Bool} {behind rest w : List Char} {c : Char}
  {groups : List (Nat × List Char)}

theorem Cursor.ahead_skipWhile (test : Char → Bool) (s : Cursor) :
    (s.skipWhile test).ahead = s.ahead.dropWhile test := rfl

theorem Cursor.skipWhile_cons_of_pos (hc : test c = true) :
    skipWhile test ⟨behind, c :: rest, groups⟩ = skipWhile test ⟨c :: behind, rest, groups⟩ := by
  simp [skipWhile, hc]

theorem Cursor.skipWhile_of_head {s : Cursor} (h : s.ahead.head?.any test = false) :
    s.skipWhile test = s := by
  obtain ⟨behind, ahead, groups⟩ := s
  cases ahead with
  | nil => rfl
  | cons c rest =>
    have hc : test c = false := h
    simp [skipWhile, hc]

theorem Cursor.capture_skipWhile (test : Char → Bool) (index : Nat) (s : Cursor) :
    (s.skipWhile test).capture index s =
      { s.skipWhile test with
        groups := (index, s.ahead.takeWhile test) ::
          s.groups.filter fun g => g.1 != index } := by
  simp [capture, skipWhile]

theorem Cursor.skip?_eq (w : List Char) (s : Cursor) :
    s.skip? w =
      if w <+: s.ahead then some ⟨w.reverse ++ s.behind, s.ahead.drop w.length, s.groups⟩
      else none := by
  induction w generalizing s with
  | nil => simp [skip?]
  | cons c w ih =>
    obtain ⟨behind, ahead, groups⟩ := s
    rw [skip?]
    cases ahead with
    | nil => simp [advance?]
    | cons d rest =>
      rw [advance?_cons]
      by_cases hd : d = c
      · simp [hd, ih]
      · simp [hd, Ne.symm hd]

end Cursor

theorem run_char (c : Char) (k : Continuation) (s : Cursor) :
    (char c).run k s = (s.advance? (· == c)).bind k := by
  have htest : (fun d => [ClassItem.range c.toNat c.toNat].any (·.holds d) != false) =
      (· == c) := by
    funext d
    simp only [List.any_cons, List.any_nil, Bool.or_false, Bool.bne_false, ClassItem.holds]
    rw [Bool.eq_iff_iff, Bool.and_eq_true, decide_eq_true_eq, decide_eq_true_eq, beq_iff_eq,
      ← Char.toNat_inj]
    omega
  rw [char, point, run, htest]

theorem run_literal (w : List Char) (k : Continuation) (s : Cursor) :
    (literal w).run k s = (s.skip? w).bind k := by
  induction w generalizing s with
  | nil => rfl
  | cons c w ih =>
    cases w with
    | nil =>
      change (char c).run k s = _
      rw [run_char, Cursor.skip?, show Cursor.skip? [] = some from rfl, Option.bind_fun_some]
    | cons d w =>
      change (char c).run ((literal (d :: w)).run k) s = _
      rw [run_char, Cursor.skip?, Option.bind_assoc]
      exact congrArg _ (funext ih)

section Repetition

variable (test : Char → Bool) (k : Continuation)

/-- A repetition takes all that passes if what remains succeeds there, or fails where something
passes. -/
theorem more_advance? {fuel : Nat} {last : Option Nat} {s : Cursor} (hfuel : s.ahead.length < fuel)
    (hlast : last ≠ some s.ahead.length)
    (hk : (k (s.skipWhile test)).isSome = true ∨
      ∀ t : Cursor, t.ahead.head?.any test = true → k t = none) :
    more (fun k s => (s.advance? test).bind k) k fuel none last s = k (s.skipWhile test) := by
  induction fuel generalizing last s with
  | zero => omega
  | succ fuel ih =>
    rw [more, if_neg (by simp [hlast]), Option.map_none]
    obtain ⟨behind, ahead, groups⟩ := s
    cases ahead with
    | nil => rfl
    | cons c rest =>
      rw [Cursor.advance?_cons]
      by_cases hc : test c = true
      · rw [Cursor.skipWhile_cons_of_pos hc] at hk ⊢
        have hroom : rest.length < fuel := Nat.lt_of_succ_lt_succ hfuel
        rw [if_pos hc, Option.bind_some, ih hroom (by simp) hk]
        -- Where the longest run fails, so does every shorter one, for another character passes.
        cases hend : k (Cursor.skipWhile test ⟨c :: behind, rest, groups⟩) with
        | some t => rfl
        | none =>
          rcases hk with hk | hk
          · rw [hend] at hk
            cases hk
          · exact hk _ (by simpa using hc)
      · rw [if_neg hc, Cursor.skipWhile_of_head (by simpa using hc)]
        rfl

/-- One character that passes and all that pass behind it. -/
theorem advance?_bind_skipWhile (s : Cursor) :
    ((s.advance? test).bind fun t => k (t.skipWhile test)) =
      if s.ahead.takeWhile test = [] then none else k (s.skipWhile test) := by
  obtain ⟨behind, ahead, groups⟩ := s
  cases ahead with
  | nil => rfl
  | cons c rest =>
    rw [Cursor.advance?_cons]
    by_cases hc : test c = true
    · rw [if_pos hc, Option.bind_some, Cursor.skipWhile_cons_of_pos hc, if_neg (by simp [hc])]
    · rw [if_neg hc, if_pos (by simp [hc])]
      rfl

variable {test k} {r : Regex} (hr : ∀ k s, r.run k s = (s.advance? test).bind k)

include hr

/-- As many characters as pass, perhaps none. -/
theorem run_star {s : Cursor} (hk : (k (s.skipWhile test)).isSome = true ∨
    ∀ t : Cursor, t.ahead.head?.any test = true → k t = none) :
    (loop 0 none false r).run k s = k (s.skipWhile test) := by
  have hround : r.run = fun k s => (s.advance? test).bind k := funext₂ hr
  rw [run, if_neg Bool.false_ne_true, rounds, times, hround]
  exact more_advance? test k (by omega) (by simp) hk

/-- As many characters as pass, at least one. -/
theorem run_plus {s : Cursor} (hk : ∀ t, (k t).isSome = true) :
    (loop 1 none false r).run k s =
      if s.ahead.takeWhile test = [] then none else k (s.skipWhile test) := by
  have hround : r.run = fun k s => (s.advance? test).bind k := funext₂ hr
  have hmore : ∀ t, more r.run k (t.ahead.length + 2) none none t = k (t.skipWhile test) := by
    intro t
    rw [hround]
    exact more_advance? test k (by omega) (by simp) (.inl (hk _))
  rw [run, if_neg Bool.false_ne_true, rounds, times, times, hr]
  dsimp only [Option.map_none]
  simp only [hmore]
  exact advance?_bind_skipWhile test k s

end Repetition

section Search

/-- A match, at whatever place, is not empty. -/
def Consumes (r : Regex) : Prop :=
  ∀ behind ahead t, r.run some ⟨behind, ahead, []⟩ = some t → t.ahead.length < ahead.length

variable {r : Regex} {behind : List Char}

/-- A match that the expression finds from a place on ends behind it. -/
theorem searchFrom_length_lt {ahead : List Char} {t : Cursor}
    (hr : r.Consumes)
    (h : r.searchFrom behind ahead = some t) : t.ahead.length < ahead.length := by
  induction ahead generalizing behind with
  | nil => exact hr _ _ _ h
  | cons c rest ih =>
    rw [searchFrom] at h
    split at h
    · rename_i t' hrun
      cases h
      exact hr _ _ _ hrun
    · exact (ih h).trans (Nat.lt_succ_self _)

/-- Where the expression finds nothing, the matches are those from the next place on. -/
theorem findAllFrom_cons_of_none {c : Char} {rest : List Char}
    (hr : r.Consumes)
    (hnone : r.run some ⟨behind, c :: rest, []⟩ = none) (fuel : Nat) :
    r.findAllFrom fuel behind (c :: rest) = r.findAllFrom fuel (c :: behind) rest := by
  cases fuel with
  | zero => rfl
  | succ fuel =>
    rw [findAllFrom, findAllFrom, searchFrom, hnone]
    dsimp only
    split
    · rfl
    · rename_i t hsearch
      have hlt := searchFrom_length_lt hr hsearch
      rw [if_pos hlt, if_pos (hlt.trans (Nat.lt_succ_self _) : _ < (c :: rest).length)]

theorem findAllFrom_of_run {s : List Char} {t : Cursor}
    (hr : r.Consumes)
    (hrun : r.run some ⟨behind, s, []⟩ = some t) (fuel : Nat) :
    r.findAllFrom (fuel + 1) behind s = t :: r.findAllFrom fuel t.behind t.ahead := by
  have hsearch : r.searchFrom behind s = some t := by
    cases s with
    | nil => exact hrun
    | cons c rest => rw [searchFrom, hrun]
  rw [findAllFrom, hsearch]
  dsimp only
  rw [if_pos (hr _ _ _ hrun)]

end Search

end Ripple.Regex
