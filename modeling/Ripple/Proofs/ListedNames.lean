import Ripple.Proofs.FileDifferences
import Ripple.Proofs.Text
import Ripple.Proofs.Utf8

/-! # Names that stay as they are listed

Names are listed one on a line, and are read as what stands between the ends of lines, without the
blanks around it. There are more ends of lines than the line feed, and blanks of every script. So a
name comes back as it is if and only if it has no end of a line in it and no blank at its ends.
Of every other name the list shows what is left between its ends of lines.
-/
namespace Ripple

namespace Text

section stripBy

variable {α : Type} {p : α → Bool} {s : List α}

theorem eq_false_of_head?_dropWhile {a : α} (h : a ∈ (s.dropWhile p).head?) : p a = false := by
  have hnot := List.head?_dropWhile_not p s
  rw [Option.mem_def.mp h] at hnot
  exact hnot

theorem stripBy_prefix_dropWhile (p : α → Bool) (s : List α) : stripBy p s <+: s.dropWhile p := by
  rw [stripBy, ← List.reverse_suffix, List.reverse_reverse]
  exact List.dropWhile_suffix p

theorem mem_of_mem_stripBy {a : α} (h : a ∈ stripBy p s) : a ∈ s :=
  (List.dropWhile_suffix p).subset ((stripBy_prefix_dropWhile p s).subset h)

theorem eq_false_of_head?_stripBy {a : α} (h : a ∈ (stripBy p s).head?) : p a = false := by
  obtain ⟨t, ht⟩ := stripBy_prefix_dropWhile p s
  refine eq_false_of_head?_dropWhile (s := s) ?_
  rw [← ht, List.head?_append, Option.mem_def.mp h]
  rfl

theorem eq_false_of_getLast?_stripBy {a : α} (h : a ∈ (stripBy p s).getLast?) : p a = false := by
  rw [stripBy, List.getLast?_reverse] at h
  exact eq_false_of_head?_dropWhile h

theorem dropWhile_of_head? (h : ∀ a ∈ s.head?, p a = false) : s.dropWhile p = s := by
  cases s with
  | nil => rfl
  | cons a rest => rw [List.dropWhile_cons, h a rfl, if_neg Bool.false_ne_true]

theorem stripBy_of_ends (hstart : ∀ a ∈ s.head?, p a = false)
    (hstop : ∀ a ∈ s.getLast?, p a = false) : stripBy p s = s := by
  rw [stripBy, dropWhile_of_head? hstart, dropWhile_of_head?, List.reverse_reverse]
  rwa [List.head?_reverse]

end stripBy

/-- A line feed behind a carriage return does not end a line of its own, but that line would be
empty. -/
theorem filterMap_linesFrom {β : Type} {f : List Char → Option β} (hempty : f [] = none)
    {line : List Char} (hline : ∀ c ∈ line, isLineEnd c = false) (s : List Char) :
    (linesFrom line s).filterMap f = (splitBy isLineEnd (line.reverse ++ s)).filterMap f := by
  have hfree : ∀ {line : List Char}, (∀ c ∈ line, isLineEnd c = false) →
      ∀ c ∈ line.reverse, isLineEnd c = false :=
    fun h c hc => h c (List.mem_reverse.mp hc)
  have hsplit : ∀ rest, splitBy isLineEnd ('\n' :: rest) = [] :: splitBy isLineEnd rest :=
    fun rest => splitBy_append_cons (List.forall_mem_nil _) rfl rest
  fun_induction linesFrom line s with
  | case1 line hnil =>
    rw [List.isEmpty_iff.mp hnil]
    simp [splitBy, hempty]
  | case2 line hnil => rw [List.append_nil, splitBy_eq_singleton (hfree hline)]
  | case3 line rest ih =>
    rw [splitBy_append_cons (hfree hline) rfl, hsplit, List.filterMap_cons, List.filterMap_cons,
      List.filterMap_cons, hempty, ih (List.forall_mem_nil _)]
    rfl
  | case4 line c rest _ hend ih =>
    rw [splitBy_append_cons (hfree hline) hend, List.filterMap_cons, List.filterMap_cons,
      ih (List.forall_mem_nil _)]
    rfl
  | case5 line c rest _ hend ih =>
    rw [ih (List.forall_mem_cons.mpr ⟨Bool.eq_false_iff.mpr hend, hline⟩), List.reverse_cons,
      List.append_assoc, List.singleton_append]

end Text

namespace Git

/-- The name on a line, unless the line is blank. -/
def nameOn? (line : List Char) : Option String :=
  let name := Text.strip (String.ofList line)
  if name.isEmpty then none else some name

def shownOf (name : String) : List String :=
  (Text.splitBy Text.isLineEnd name.toList).filterMap nameOn?

theorem namesIn_eq (output : String) : namesIn output = shownOf output := by
  have hname : ∀ lines : List (List Char), ((lines.map String.ofList).map Text.strip).filter
      (fun name => !name.isEmpty) = lines.filterMap nameOn? := by
    intro lines
    induction lines with
    | nil => rfl
    | cons line rest ih =>
      rw [List.map_cons, List.map_cons, List.filter_cons, ih, List.filterMap_cons, nameOn?]
      cases (Text.strip (String.ofList line)).isEmpty <;> rfl
  rw [namesIn, Text.lines, hname, Text.filterMap_linesFrom rfl (List.forall_mem_nil _)]
  rfl

/-- The names of a list are shown one after the other. -/
theorem namesIn_lineBlock (names : List String) :
    namesIn (Text.lineBlock names) = names.flatMap shownOf := by
  induction names with
  | nil => rfl
  | cons name rest ih =>
    have hblock : (Text.lineBlock (name :: rest)).toList =
        name.toList ++ '\n' :: (Text.lineBlock rest).toList := by
      change (name ++ "\n" ++ Text.lineBlock rest).toList = _
      simp
    rw [List.flatMap_cons, ← ih, namesIn_eq, namesIn_eq, shownOf, hblock,
      Text.splitBy_append_separator rfl, List.filterMap_append]
    rfl

/-- A name without an end of a line in it and without a blank at its ends. -/
structure Plain (name : String) : Prop where
  ne_empty : name ≠ ""
  unbroken : ∀ c ∈ name.toList, Text.isLineEnd c = false
  start : ∀ c ∈ name.toList.head?, Text.isBlank c = false
  stop : ∀ c ∈ name.toList.getLast?, Text.isBlank c = false

theorem plain_of_mem_shownOf {name shown : String} (h : shown ∈ shownOf name) : Plain shown := by
  obtain ⟨line, hline, hshown⟩ := List.mem_filterMap.mp h
  rw [nameOn?] at hshown
  split at hshown
  · cases hshown
  · rename_i hne
    cases hshown
    have hchars : (Text.strip (String.ofList line)).toList = Text.stripBy Text.isBlank line := by
      rw [Text.strip, String.toList_ofList, String.toList_ofList]
    refine ⟨fun he => hne (by rw [he]; rfl), fun c hc => ?_, fun c hc => ?_, fun c hc => ?_⟩
    · rw [hchars] at hc
      exact Text.eq_false_of_mem_splitBy hline c (Text.mem_of_mem_stripBy hc)
    · rw [hchars] at hc
      exact Text.eq_false_of_head?_stripBy hc
    · rw [hchars] at hc
      exact Text.eq_false_of_getLast?_stripBy hc

theorem shownOf_of_plain {name : String} (h : Plain name) : shownOf name = [name] := by
  have hstrip : Text.strip name = name := by
    rw [Text.strip, Text.stripBy_of_ends h.start h.stop, String.ofList_toList]
  have hname : nameOn? name.toList = some name := by
    rw [nameOn?, String.ofList_toList, hstrip]
    exact if_neg fun he => h.ne_empty (String.isEmpty_iff.mp he)
  rw [shownOf, Text.splitBy_eq_singleton h.unbroken, List.filterMap_cons, hname, List.filterMap_nil]

/-- A list of names comes back as it is if and only if all of them are plain. -/
theorem flatMap_shownOf_eq_self_iff {names : List String} :
    names.flatMap shownOf = names ↔ ∀ name ∈ names, Plain name := by
  constructor
  · intro h name hname
    rw [← h] at hname
    obtain ⟨other, -, hshown⟩ := List.mem_flatMap.mp hname
    exact plain_of_mem_shownOf hshown
  · intro h
    rw [List.flatMap_congr fun name hname => shownOf_of_plain (h name hname)]
    simp

namespace Session

/-- The command that succeeds in listing the changed files prints these names, each on a line. -/
inductive PrintsNames (script : List Outcome) (names : List String) : Comparison → Prop
  | parting {errors : List UInt8}
      (first : outcomeAt script 0 = .ended (Text.Utf8.encode (Text.lineBlock names)) errors 0) :
      PrintsNames script names .parting
  | direct {errors : List UInt8} (first : (outcomeAt script 0).text? = none)
      (second : outcomeAt script 1 = .ended (Text.Utf8.encode (Text.lineBlock names)) errors 0) :
      PrintsNames script names .direct

variable {script : List Outcome} {names : List String} {k : Comparison}

theorem lists_of_printsNames (h : PrintsNames script names k) :
    Lists script k (Text.lineBlock names) := by
  have htext : ∀ errors, (Outcome.ended (Text.Utf8.encode (Text.lineBlock names)) errors 0).text? =
      some (Text.lineBlock names) := fun errors => by
    rw [Outcome.text?, if_pos rfl, decoded, Text.Utf8.decodeLossy_encode, String.ofList_toList]
  cases h with
  | parting first => exact .parting (by rw [first, htext])
  | direct first second => exact .direct first (by rw [second, htext])

/-- The answer is what the list shows of each name. It is the list of the names that were printed if
and only if all of them are plain: no other end of a line stands in a name, and no blank at its
ends. -/
theorem changedFiles_names (directory : Path) (timeout base head : String)
    (h : PrintsNames script names k) :
    (client directory timeout).changedFiles base head (start script) =
        (.ok (names.flatMap shownOf), after script (k.attempts.map (·.listing base head))) ∧
      (names.flatMap shownOf = names ↔ ∀ name ∈ names, Plain name) := by
  refine ⟨?_, flatMap_shownOf_eq_self_iff⟩
  rw [changedFiles_of_lists directory timeout script base head (lists_of_printsNames h),
    namesIn_lineBlock]

/-- Two changed files, one with a blank in front of its name. -/
def blankScript : List Outcome :=
  [.ended (Text.Utf8.encode (Text.lineBlock [" a.go", "b.go"])) [] 0]

theorem changedFiles_names_blank : PrintsNames blankScript [" a.go", "b.go"] .parting ∧
    (client ⟨"/", ["api"]⟩ defaultTimeout).changedFiles "main" "HEAD" (start blankScript) =
      (.ok ["a.go", "b.go"],
        after blankScript [["git", "diff", "--name-only", "main...HEAD"]]) ∧
    ¬ ∀ name ∈ [" a.go", "b.go"], Plain name := by
  have hprints : PrintsNames blankScript [" a.go", "b.go"] .parting := .parting rfl
  obtain ⟨hanswer, hself⟩ :=
    changedFiles_names ⟨"/", ["api"]⟩ defaultTimeout "main" "HEAD" hprints
  have hshown : [" a.go", "b.go"].flatMap shownOf = ["a.go", "b.go"] := by decide +kernel
  rw [hshown] at hanswer hself
  exact ⟨hprints, hanswer, fun h => absurd (hself.mpr h) (by decide)⟩

end Session

end Git

end Ripple
