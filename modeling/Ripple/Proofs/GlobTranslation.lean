import Ripple.Proofs.Glob

/-! # The translation of globs by replacements

The expression of a pattern can also be made by four replacements in all of the text: a mark for
each pair of stars, then the expressions for the stars that are left and for the question marks, and
at last the expression for the mark. Although the expressions have stars and dots in them, each
replacement finds nothing but characters of the pattern, and the last one nothing but marks, so the
result is that of one scan. Where no pair of stars arises at the joint, the translation of two
patterns in a row is the row of their translations.
-/
namespace Ripple

namespace Text

section Replace

variable {α : Type} (read : α → Char) (old : List Char) (new : List α)

/-- A text behind an occurrence of `old` of which some elements are still to be left out. -/
def replaceFrom : Nat → List α → List α
  | _, [] => []
  | 0, a :: rest =>
    if old.isPrefixOf ((a :: rest).map read) then new ++ replaceFrom (old.length - 1) rest
    else a :: replaceFrom 0 rest
  | left + 1, _ :: rest => replaceFrom left rest

/-- A text with `new` for each occurrence of `old`, which is not empty. Occurrences are found from
the left and do not overlap. The elements of the text are read as characters. -/
def replaceAll (s : List α) : List α := replaceFrom read old new 0 s

theorem replaceFrom_eq_drop (left : Nat) (s : List α) :
    replaceFrom read old new left s = replaceAll read old new (s.drop left) := by
  induction s generalizing left with
  | nil => cases left <;> rfl
  | cons a rest ih =>
    cases left with
    | zero => rfl
    | succ left => rw [replaceFrom, ih, List.drop_succ_cons]

variable {read old new}

theorem replaceAll_append_of_map_eq {s : List α} (hs : s.map read = old) (hold : old ≠ [])
    (rest : List α) :
    replaceAll read old new (s ++ rest) = new ++ replaceAll read old new rest := by
  subst hs
  obtain ⟨a, s, rfl⟩ := List.exists_cons_of_ne_nil (mt List.map_eq_nil_iff.mpr hold)
  have hprefix : ((a :: s).map read).isPrefixOf ((a :: (s ++ rest)).map read) = true := by
    simp [List.isPrefixOf_iff_prefix]
  rw [List.cons_append, replaceAll, replaceFrom, if_pos hprefix, replaceFrom_eq_drop]
  simp

theorem replaceAll_cons_of_not_prefix {a : α} {rest : List α}
    (h : ¬old <+: (a :: rest).map read) :
    replaceAll read old new (a :: rest) = a :: replaceAll read old new rest := by
  rw [← List.isPrefixOf_iff_prefix] at h
  rw [replaceAll, replaceFrom, if_neg h]
  rfl

/-- A single character is replaced wherever it stands. -/
theorem replaceAll_singleton (c : Char) (s : List α) :
    replaceAll read [c] new s = s.flatMap fun a => if read a = c then new else [a] := by
  induction s with
  | nil => rfl
  | cons a rest ih =>
    rw [List.flatMap_cons, ← ih]
    by_cases ha : read a = c
    · rw [if_pos ha]
      exact replaceAll_append_of_map_eq (s := [a]) (by simp [ha]) (by simp) rest
    · rw [if_neg ha]
      exact replaceAll_cons_of_not_prefix (by simpa using Ne.symm ha)

/-- What stands in a text after a replacement stood there before or has been put in. -/
theorem mem_replaceFrom {left : Nat} {s : List α} {a : α}
    (h : a ∈ replaceFrom read old new left s) : a ∈ s ∨ a ∈ new := by
  induction s generalizing left with
  | nil => cases left <;> exact .inl h
  | cons b rest ih =>
    cases left with
    | succ left => exact (ih h).imp_left (List.mem_cons_of_mem b)
    | zero =>
      rw [replaceFrom] at h
      split at h
      · rcases List.mem_append.mp h with h | h
        · exact .inr h
        · exact (ih h).imp_left (List.mem_cons_of_mem b)
      · rcases List.mem_cons.mp h with rfl | h
        · exact .inl List.mem_cons_self
        · exact (ih h).imp_left (List.mem_cons_of_mem b)

/-- A replacement depends only on how the elements read. -/
theorem map_read_replaceFrom (left : Nat) (s : List α) :
    (replaceFrom read old new left s).map read =
      replaceFrom id old (new.map read) left (s.map read) := by
  induction s generalizing left with
  | nil => cases left <;> rfl
  | cons a rest ih =>
    cases left with
    | succ left => exact ih left
    | zero =>
      rw [List.map_cons, replaceFrom, replaceFrom, List.map_id, ← List.map_cons]
      split
      · rw [List.map_append, ih]
      · rw [List.map_cons, ih]

end Replace

end Text

namespace Glob

/-- What is replaced, and by what, in this order. The mark for a pair of stars is a null character.
-/
def replacements : List (String × String) :=
  [("**", "\x00"), ("*", "[^/]*"), ("?", "."), ("\x00", ".*")]

/-- The pattern after all replacements. -/
def substituted (pattern : List Char) : List Char :=
  replacements.foldl (fun s (old, new) => Text.replaceAll id old.toList new.toList s) pattern

/-- What the replacements behind the first one make of a character. -/
def expand (c : Char) : List Char :=
  if c = '*' then ['[', '^', '/', ']', '*']
  else if c = '?' then ['.']
  else if c = '\x00' then ['.', '*']
  else [c]

theorem substituted_eq_flatMap (pattern : List Char) :
    substituted pattern = (Text.replaceAll id ['*', '*'] ['\x00'] pattern).flatMap expand := by
  change Text.replaceAll id ['\x00'] ['.', '*'] (Text.replaceAll id ['?'] ['.']
    (Text.replaceAll id ['*'] ['[', '^', '/', ']', '*'] _)) = _
  rw [Text.replaceAll_singleton, Text.replaceAll_singleton, Text.replaceAll_singleton,
    List.flatMap_assoc, List.flatMap_assoc]
  congr 1
  funext c
  by_cases hstar : c = '*'
  · simp [expand, hstar]
  · by_cases hmark : c = '?'
    · simp [expand, hmark]
    · simp [expand, hstar, hmark]

theorem substituted_pair (rest : List Char) :
    substituted ('*' :: '*' :: rest) = '.' :: '*' :: substituted rest := by
  have hpair : Text.replaceAll id ['*', '*'] ['\x00'] ('*' :: '*' :: rest) =
      '\x00' :: Text.replaceAll id ['*', '*'] ['\x00'] rest :=
    Text.replaceAll_append_of_map_eq (s := ['*', '*']) rfl (by simp) rest
  rw [substituted_eq_flatMap, substituted_eq_flatMap, hpair]
  rfl

theorem substituted_cons {c : Char} {rest : List Char}
    (h : c = '*' → ∀ r, rest = '*' :: r → False) :
    substituted (c :: rest) = expand c ++ substituted rest := by
  have hprefix : ¬['*', '*'] <+: (c :: rest).map id := by
    rintro ⟨tail, htail⟩
    simp only [List.map_id, List.cons_append, List.nil_append, List.cons.injEq] at htail
    exact h htail.1.symm tail htail.2.symm
  rw [substituted_eq_flatMap, substituted_eq_flatMap, Text.replaceAll_cons_of_not_prefix hprefix,
    List.flatMap_cons]

theorem substituted_eq_expression (pattern : List Char) :
    substituted pattern = expression pattern := by
  induction pattern using expression.induct with
  | case1 => rfl
  | case2 rest ih => rw [substituted_pair, ih, expression]
  | case3 rest hrest ih =>
    rw [substituted_cons fun _ => hrest, ih, expression_star hrest]
    rfl
  | case4 rest ih =>
    rw [substituted_cons (by simp), ih, expression]
    rfl
  | case5 rest ih =>
    rw [substituted_cons (by simp), ih, expression]
    rfl
  | case6 c rest _ hstar hmark hnul ih =>
    rw [substituted_cons fun h => absurd h hstar, ih, expression_self hstar hmark hnul]
    rw [expand, if_neg hstar, if_neg hmark, if_neg hnul]
    rfl

/-- No pair of stars has one star in each of two patterns. -/
def Apart (pattern other : List Char) : Prop :=
  pattern.getLast? ≠ some '*' ∨ other.head? ≠ some '*'

theorem Apart.of_cons {c : Char} {rest other : List Char} (h : Apart (c :: rest) other) :
    Apart rest other := by
  refine h.imp_left fun hlast hrest => hlast ?_
  rw [List.getLast?_cons, hrest]
  rfl

theorem expression_append {pattern other : List Char} (h : Apart pattern other) :
    expression (pattern ++ other) = expression pattern ++ expression other := by
  induction pattern using expression.induct with
  | case1 => rfl
  | case2 rest ih => simp only [List.cons_append, expression, ih h.of_cons.of_cons]
  | case3 rest hrest ih =>
    have hjoint : ∀ r, rest ++ other = '*' :: r → False := by
      intro r hr
      cases rest with
      | nil =>
        rcases h with h | h
        · exact h rfl
        · exact h (by rw [List.nil_append] at hr; rw [hr]; rfl)
      | cons d rest => exact hrest rest (by simp_all)
    rw [List.cons_append, expression_star hjoint, expression_star hrest, ih h.of_cons]
    rfl
  | case4 rest ih | case5 rest ih => simp only [List.cons_append, expression, ih h.of_cons]
  | case6 c rest _ hstar hmark hnul ih =>
    rw [List.cons_append, expression_self hstar hmark hnul, expression_self hstar hmark hnul,
      ih h.of_cons, List.cons_append]

/-- A character of a text under replacement. It stands in the pattern, or the replacement of some
number has put it in. -/
structure Traced where
  char : Char
  source : Option Nat
  deriving DecidableEq, Repr

/-- The pattern after the first replacements, with the sources of the characters. -/
def traced (pattern : List Char) : Nat → List Traced
  | 0 => pattern.map (⟨·, none⟩)
  | n + 1 =>
    match replacements[n]? with
    | some (old, new) =>
      Text.replaceAll (·.char) old.toList (new.toList.map (⟨·, some n⟩)) (traced pattern n)
    | none => traced pattern n

/-- Without the sources it is the text that the replacements make. -/
theorem map_char_traced (pattern : List Char) (n : Nat) :
    (traced pattern n).map (·.char) =
      (replacements.take n).foldl (fun s (old, new) => Text.replaceAll id old.toList new.toList s)
        pattern := by
  induction n with
  | zero => simp [traced, Function.comp_def]
  | succ n ih =>
    rw [List.take_add_one, List.foldl_append, ← ih, traced]
    cases replacements[n]? with
    | none => rfl
    | some replacement =>
      have hnew : (replacement.2.toList.map fun c => (⟨c, some n⟩ : Traced)).map (·.char) =
          replacement.2.toList := by
        simp [Function.comp_def]
      simp only [Option.toList_some, List.foldl_cons, List.foldl_nil]
      rw [Text.replaceAll, Text.map_read_replaceFrom, hnew]
      rfl

/-- One of the first replacements has put the character in. -/
def Traced.PutIn (a : Traced) (n : Nat) : Prop :=
  ∃ i < n, ∃ replacement, replacements[i]? = some replacement ∧ a.source = some i ∧
    a.char ∈ replacement.2.toList

theorem Traced.PutIn.mono {a : Traced} {n m : Nat} (hnm : n ≤ m) (h : a.PutIn n) : a.PutIn m := by
  obtain ⟨i, hi, hput⟩ := h
  exact ⟨i, hi.trans_le hnm, hput⟩

/-- A character stands in the pattern unless a replacement has put it in. -/
theorem source_of_mem_traced {pattern : List Char} {n : Nat} {a : Traced}
    (h : a ∈ traced pattern n) : a.source = none ∧ a.char ∈ pattern ∨ a.PutIn n := by
  induction n with
  | zero =>
    obtain ⟨c, hc, rfl⟩ := List.mem_map.mp h
    exact .inl ⟨rfl, hc⟩
  | succ n ih =>
    rw [traced] at h
    split at h
    · rename_i old new hn
      rcases Text.mem_replaceFrom h with hearlier | hput
      · exact (ih hearlier).imp_right (.mono n.le_succ)
      · obtain ⟨c, hc, rfl⟩ := List.mem_map.mp hput
        exact .inr ⟨n, n.lt_succ_self, (old, new), hn, rfl, hc⟩
    · exact (ih h).imp_right (.mono n.le_succ)

/-- Of what the replacements put in, no later one finds anything but the mark. -/
theorem eq_of_mem_inserted {i n : Nat} (hi : i < n) {first second : String × String}
    (hfirst : replacements[i]? = some first) (hsecond : replacements[n]? = some second) {c : Char}
    (hc : c ∈ first.2.toList) (hfound : c ∈ second.1.toList) : i = 0 ∧ second.1 = "\x00" := by
  have hall : ∀ i n : Fin replacements.length, i < n →
      (replacements.get i).2.toList.any (replacements.get n).1.toList.contains = true →
      i.val = 0 ∧ (replacements.get n).1 = "\x00" := by
    decide +kernel
  obtain ⟨hin, rfl⟩ := List.getElem?_eq_some_iff.mp hfirst
  obtain ⟨hnn, rfl⟩ := List.getElem?_eq_some_iff.mp hsecond
  exact hall ⟨i, hin⟩ ⟨n, hnn⟩ hi (List.any_eq_true.mpr ⟨c, hc, List.contains_iff_mem.mpr hfound⟩)

/-- The four replacements in a row make of every pattern what one scan makes of it. In a pattern
without marks the first three find only characters of the pattern and the last one only the marks
that the first has put in for pairs of stars, so that none touches the expression which another has
put in. What the replacements make of two patterns in a row is what they make of the one and of the
other, unless the first pattern ends with a star and the second begins with one. -/
theorem substituted_eq_scan (pattern : List Char) :
    substituted pattern = expression pattern ∧
      (traced pattern replacements.length).map (·.char) = substituted pattern ∧
      ('\x00' ∉ pattern → ∀ n old new, replacements[n]? = some (old, new) →
        ∀ a ∈ traced pattern n, a.char ∈ old.toList →
          a.source = if old = "\x00" then some 0 else none) ∧
      ∀ other, pattern.getLast? ≠ some '*' ∨ other.head? ≠ some '*' →
        substituted (pattern ++ other) = substituted pattern ++ substituted other := by
  refine ⟨substituted_eq_expression pattern, ?_, ?_, ?_⟩
  · rw [map_char_traced, List.take_length, substituted]
  · intro hfree n old new hn a ha hfound
    rcases source_of_mem_traced ha with ⟨hnone, hown⟩ | ⟨i, hi, first, hfirst, hsource, hput⟩
    · have hold : old ≠ "\x00" := by
        rintro rfl
        have hchar : a.char = '\x00' := by simpa using hfound
        exact hfree (hchar ▸ hown)
      rw [hnone, if_neg hold]
    · obtain ⟨rfl, hold⟩ := eq_of_mem_inserted hi hfirst hn hput hfound
      rw [hsource, if_pos hold]
  · intro other hapart
    rw [substituted_eq_expression, substituted_eq_expression, substituted_eq_expression]
    exact expression_append hapart

/-- In a run of three stars the first two are the pair. The expressions that are put in have stars
and a dot in them, and stay; a pair of stars must not be cut in two. -/
theorem substituted_eq_scan_stars :
    '\x00' ∉ ['a', '*', '*', '*', '?'] ∧ ['a', '*', '*', '*', '?'].getLast? ≠ some '*' ∧
      substituted ['a', '*', '*', '*', '?'] = "a.*[^/]*.".toList ∧
      (⟨'\x00', some 0⟩ ∈ traced ['a', '*', '*', '*', '?'] 3 ∧
        ∀ a ∈ traced ['a', '*', '*', '*', '?'] 3, a.char ∈ "\x00".toList → a.source = some 0) ∧
      (⟨'*', some 1⟩ ∈ traced ['a', '*', '*', '*', '?'] 2 ∧
        ∀ a ∈ traced ['a', '*', '*', '*', '?'] 2, a.char ∈ "?".toList → a.source = none) ∧
      substituted (['a', '*', '*', '*', '?'] ++ ['*']) = "a.*[^/]*.[^/]*".toList ∧
      substituted (['*'] ++ ['*']) ≠ substituted ['*'] ++ substituted ['*'] := by
  have hfree : '\x00' ∉ ['a', '*', '*', '*', '?'] := by decide
  have hlast : ['a', '*', '*', '*', '?'].getLast? ≠ some '*' := by decide
  obtain ⟨hscan, -, hsource, happend⟩ := substituted_eq_scan ['a', '*', '*', '*', '?']
  refine ⟨hfree, hlast, hscan.trans (by decide +kernel), ⟨by decide +kernel, ?_⟩,
    ⟨by decide +kernel, ?_⟩, ?_, by decide +kernel⟩
  · exact hsource hfree 3 "\x00" ".*" rfl
  · exact hsource hfree 2 "?" "." rfl
  · rw [happend ['*'] (.inl hlast)]
    decide +kernel

end Glob

end Ripple
