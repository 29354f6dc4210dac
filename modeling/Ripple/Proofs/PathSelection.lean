import Mathlib.Data.List.Induction
import Ripple.Proofs.Setup

/-! # What a path filter lets pass

Of the lines of a list that apply to a path the last one decides about it. A further line at the end
that is not negated takes in every path that it applies to, and of the other paths the list says
what it said before. A missing list of include lines takes in everything, and an empty one counts as
missing, so the laws for further include lines start from a list with a line in it.
-/
namespace Ripple

namespace Ignore

/-- The line starts with the mark that turns its meaning round. -/
def IsNegated (line : String) : Prop := line.toList.head? = some '!'

instance (line : String) : Decidable (IsNegated line) :=
  inferInstanceAs (Decidable (line.toList.head? = some '!'))

/-- Whether a line applies to a path, be it to take it in or to leave it out. Blank lines and
comments apply to none. -/
def applies (line path : String) : Bool :=
  match Pattern.parse line with
  | .ok (some p) => p.matches (relative path.toList)
  | _ => false

/-- Whether the last line of a list that applies to a path takes it in. -/
def lastTakesIn (lines : List String) (path : String) : Bool :=
  (lines.reverse.find? (applies · path)).any fun line => !decide (IsNegated line)

theorem not_refused_iff (line : String) : ¬Refused line ↔ (Pattern.parse line).isOk = true := by
  rw [Refused]
  cases Pattern.parse line <;> simp [Except.isOk, Except.toBool]

theorem trim_prefix (line : List Char) : trim line <+: line := by
  rw [trim]
  split
  · exact List.prefix_rfl
  · rw [← List.reverse_suffix, List.reverse_reverse]
    exact List.dropWhile_suffix _

theorem head?_of_trim {line : String} {c : Char} {rest : List Char}
    (h : trim line.toList = c :: rest) : line.toList.head? = some c := by
  obtain ⟨blanks, hline⟩ := trim_prefix line.toList
  rw [← hline, h]
  rfl

/-- A pattern takes in the paths that it applies to unless its line is negated. -/
theorem takesIn_of_parse {line : String} {p : Pattern} (h : Pattern.parse line = .ok (some p)) :
    p.takesIn = !decide (IsNegated line) := by
  rw [Pattern.parse] at h
  split at h
  · cases h
  · cases h
  · cases h
  · rename_i hmark
    obtain ⟨regex, -, h⟩ := Outcome.bind_eq_ok_iff.mp h
    cases h
    simp [IsNegated, head?_of_trim hmark]
  · rename_i hempty _ _ hmark
    obtain ⟨regex, -, h⟩ := Outcome.bind_eq_ok_iff.mp h
    cases h
    obtain ⟨c, rest, hbody⟩ := List.exists_cons_of_ne_nil hempty
    have hc : c ≠ '!' := fun he => hmark rest (he ▸ hbody)
    simp [IsNegated, head?_of_trim hbody, hc]

theorem applies_of_parse {line : String} {p : Pattern} (h : Pattern.parse line = .ok (some p))
    (path : String) : applies line path = p.matches (relative path.toList) := by
  rw [applies, h]

theorem applies_of_parse_none {line : String} (h : Pattern.parse line = .ok none) (path : String) :
    applies line path = false := by
  rw [applies, h]

/-- The last pattern that matches a path comes from the last line that applies to it. -/
theorem map_takesIn_find? {lines : List String} {ps : List (Option Pattern)}
    (h : List.Forall₂ (fun line p => Pattern.parse line = .ok p) lines ps) (path : String) :
    ((ps.filterMap id).reverse.find? (·.matches (relative path.toList))).map (·.takesIn) =
      (lines.reverse.find? (applies · path)).map fun line => !decide (IsNegated line) := by
  induction h with
  | nil => rfl
  | @cons line p lines ps hline _ ih =>
    rw [List.reverse_cons, List.find?_append, Option.map_or, ← ih]
    cases p with
    | none => simp [applies_of_parse_none hline]
    | some p =>
      have hcons : (some p :: ps).filterMap id = p :: ps.filterMap id := rfl
      rw [hcons, List.reverse_cons, List.find?_append, Option.map_or]
      by_cases hp : p.matches (relative path.toList) = true <;>
        simp [applies_of_parse hline, takesIn_of_parse hline, hp]

theorem takesIn_eq_lastTakesIn {lines : List String} {ps : List Pattern}
    (h : parseAll lines = .ok ps) (path : String) : takesIn ps path = lastTakesIn lines path := by
  obtain ⟨found, hfound, rfl⟩ := Outcome.map_eq_ok_iff.mp h
  have hlast := map_takesIn_find? (Outcome.forall₂_of_mapM hfound) path
  have htakes : ∀ ps : List Pattern, takesIn ps path =
      ((ps.reverse.find? (·.matches (relative path.toList))).map (·.takesIn)).getD false := by
    intro ps
    rw [takesIn]
    cases ps.reverse.find? (·.matches (relative path.toList)) <;> rfl
  rw [htakes, hlast, lastTakesIn]
  cases lines.reverse.find? (applies · path) <;> rfl

/-- A line at the end that is not negated adds the paths that it applies to. -/
theorem lastTakesIn_concat {line : String} (h : ¬IsNegated line) (lines : List String)
    (path : String) :
    lastTakesIn (lines ++ [line]) path = (lastTakesIn lines path || applies line path) := by
  rw [lastTakesIn, List.reverse_concat, List.find?_cons]
  by_cases hline : applies line path = true
  · simp [hline, h]
  · simp [hline, lastTakesIn]

/-- Where no line is negated, the path is taken in if some line applies to it. -/
theorem lastTakesIn_eq_any {lines : List String} (h : ∀ line ∈ lines, ¬IsNegated line)
    (path : String) : lastTakesIn lines path = lines.any (applies · path) := by
  induction lines using List.reverseRecOn with
  | nil => rfl
  | append_singleton lines line ih =>
    rw [List.forall_mem_append] at h
    rw [lastTakesIn_concat (h.2 line (List.mem_singleton_self line)), ih h.1, List.any_append]
    simp

end Ignore

namespace PathFilter

open Ignore

variable {includes excludes : Option (List String)}

theorem exists_of_make (h : ∀ line ∈ includes.getD [] ++ excludes.getD [], ¬Refused line) :
    ∃ f, make includes excludes = .ok f := by
  cases hmake : make includes excludes with
  | ok f => exact ⟨f, rfl⟩
  | error fault =>
    obtain ⟨line, hline, hrefused⟩ := (make_fails_iff includes excludes).mp ⟨fault, hmake⟩
    exact absurd hrefused (h line hline)

theorem patterns?_eq_ok {lines : Option (List String)} {ps : Option (List Pattern)}
    (h : patterns? lines = .ok ps) :
    lines.getD [] = [] ∧ ps = none ∨
      lines.getD [] ≠ [] ∧ ∃ found, ps = some found ∧ parseAll (lines.getD []) = .ok found := by
  rcases lines with _ | _ | ⟨line, rest⟩
  · exact .inl ⟨rfl, (Except.ok.inj h).symm⟩
  · exact .inl ⟨rfl, (Except.ok.inj h).symm⟩
  · obtain ⟨found, hfound, rfl⟩ := Outcome.map_eq_ok_iff.mp h
    exact .inr ⟨List.cons_ne_nil line rest, found, rfl, hfound⟩

/-- A path passes if the include lines take it in, or there are none, and the exclude lines do not.
-/
theorem passes_of_make {f : PathFilter} (h : make includes excludes = .ok f) (path : String) :
    f.passes path =
      (((includes.getD []).isEmpty || lastTakesIn (includes.getD []) path) &&
        !lastTakesIn (excludes.getD []) path) := by
  obtain ⟨ins, hins, h⟩ := Outcome.bind_eq_ok_iff.mp h
  obtain ⟨outs, houts, h⟩ := Outcome.bind_eq_ok_iff.mp h
  cases h
  rw [passes]
  apply congrArg₂ and
  · rcases patterns?_eq_ok hins with ⟨hempty, rfl⟩ | ⟨hnonempty, found, rfl, hfound⟩
    · rw [hempty]
      rfl
    · simp [takesIn_eq_lastTakesIn hfound, hnonempty]
  · apply congrArg not
    rcases patterns?_eq_ok houts with ⟨hempty, rfl⟩ | ⟨-, found, rfl, hfound⟩
    · rw [hempty]
      rfl
    · exact takesIn_eq_lastTakesIn hfound path

section OneMore

variable {f : PathFilter} {line : String}

/-- One more exclude line takes away the paths that it applies to. -/
theorem exists_make_exclude (h : ∀ line ∈ includes.getD [] ++ excludes.getD [], ¬Refused line)
    (hf : make includes excludes = .ok f) (hline : ¬Refused line) (hpositive : ¬IsNegated line) :
    ∃ g, make includes (some (excludes.getD [] ++ [line])) = .ok g ∧
      ∀ path, g.passes path = (f.passes path && !applies line path) := by
  rw [List.forall_mem_append] at h
  have hlines : ∀ l ∈ includes.getD [] ++ (excludes.getD [] ++ [line]), ¬Refused l :=
    List.forall_mem_append.mpr
      ⟨h.1, List.forall_mem_append.mpr ⟨h.2, List.forall_mem_singleton.mpr hline⟩⟩
  obtain ⟨g, hg⟩ := @exists_of_make includes (some _) hlines
  refine ⟨g, hg, fun path => ?_⟩
  rw [passes_of_make hg, passes_of_make hf, Option.getD_some, lastTakesIn_concat hpositive,
    Bool.not_or, Bool.and_assoc]

/-- One more include line adds the paths that it applies to and no exclude line keeps out. -/
theorem exists_make_include (h : ∀ line ∈ includes.getD [] ++ excludes.getD [], ¬Refused line)
    (hf : make includes excludes = .ok f) (hnonempty : includes.getD [] ≠ [])
    (hline : ¬Refused line) (hpositive : ¬IsNegated line) :
    ∃ g, make (some (includes.getD [] ++ [line])) excludes = .ok g ∧
      ∀ path, g.passes path =
        (f.passes path || !lastTakesIn (excludes.getD []) path && applies line path) := by
  rw [List.forall_mem_append] at h
  have hlines : ∀ l ∈ (includes.getD [] ++ [line]) ++ excludes.getD [], ¬Refused l :=
    List.forall_mem_append.mpr
      ⟨List.forall_mem_append.mpr ⟨h.1, List.forall_mem_singleton.mpr hline⟩, h.2⟩
  obtain ⟨g, hg⟩ := @exists_of_make (some _) excludes hlines
  refine ⟨g, hg, fun path => ?_⟩
  have hsome : (includes.getD [] ++ [line]).isEmpty = false := by simp
  have hsome' : (includes.getD []).isEmpty = false := by simpa using hnonempty
  rw [passes_of_make hg, passes_of_make hf, Option.getD_some, lastTakesIn_concat hpositive, hsome,
    hsome', Bool.false_or, Bool.false_or, Bool.and_or_distrib_right,
    Bool.and_comm (applies line path)]

end OneMore

/-- Where no line is refused there is a filter, for which of the lines that apply to a path the last
one counts. What it selects is a part of the paths in their order, it does not change when the
filter is asked again, and it is selected from each portion of the paths apart. Without lines all is
selected. One more exclude line that is not negated takes away just what it applies to, and one more
include line, where there is one already, adds just what it applies to and is not excluded. -/
theorem select_of_lines (h : ∀ line ∈ includes.getD [] ++ excludes.getD [], ¬Refused line) :
    ∃ f, make includes excludes = .ok f ∧
      (∀ path, f.passes path =
        (((includes.getD []).isEmpty || lastTakesIn (includes.getD []) path) &&
          !lastTakesIn (excludes.getD []) path)) ∧
      (∀ paths, (f.select paths).Sublist paths ∧ f.select (f.select paths) = f.select paths ∧
        ∀ others, f.select (paths ++ others) = f.select paths ++ f.select others) ∧
      (includes.getD [] = [] → excludes.getD [] = [] → ∀ paths, f.select paths = paths) ∧
      ∀ line, ¬Refused line → ¬IsNegated line →
        (∃ g, make includes (some (excludes.getD [] ++ [line])) = .ok g ∧
          ∀ paths, g.select paths = (f.select paths).filter fun path => !applies line path) ∧
        (includes.getD [] ≠ [] →
          ∃ g, make (some (includes.getD [] ++ [line])) excludes = .ok g ∧
            ∀ paths, g.select paths = paths.filter fun path =>
              f.passes path || !lastTakesIn (excludes.getD []) path && applies line path) := by
  obtain ⟨f, hf⟩ := exists_of_make h
  refine ⟨f, hf, passes_of_make hf, fun paths => ⟨List.filter_sublist, ?_, ?_⟩, ?_, ?_⟩
  · rw [select, select, List.filter_filter]
    simp only [Bool.and_self]
  · exact fun others => List.filter_append _ _
  · intro hincludes hexcludes paths
    refine List.filter_eq_self.mpr fun path _ => ?_
    rw [passes_of_make hf, hincludes, hexcludes]
    rfl
  · intro line hline hpositive
    constructor
    · obtain ⟨g, hg, hpasses⟩ := exists_make_exclude h hf hline hpositive
      refine ⟨g, hg, fun paths => ?_⟩
      rw [select, select, List.filter_filter]
      exact List.filter_congr fun path _ => (hpasses path).trans (Bool.and_comm _ _)
    · intro hnonempty
      obtain ⟨g, hg, hpasses⟩ := exists_make_include h hf hnonempty hline hpositive
      exact ⟨g, hg, fun paths => List.filter_congr fun path _ => hpasses path⟩

/-- A negated line takes back a part of what the line before it takes in, and a further line adds
what is not excluded. -/
theorem select_of_lines_negated :
    (∀ line ∈ ["src/", "!src/gen/"] ++ ["*.md", "# notes"], ¬Refused line) ∧
      ¬Refused "docs" ∧ ¬IsNegated "docs" ∧
      ∃ f g, make (some ["src/", "!src/gen/"]) (some ["*.md", "# notes"]) = .ok f ∧
        make (some ["src/", "!src/gen/", "docs"]) (some ["*.md", "# notes"]) = .ok g ∧
        f.select ["src/a.ts", "src/gen/b.ts", "docs/c.txt", "docs/d.md"] = ["src/a.ts"] ∧
        g.select ["src/a.ts", "src/gen/b.ts", "docs/c.txt", "docs/d.md"] =
          ["src/a.ts", "docs/c.txt"] := by
  have hlines : ∀ line ∈ ["src/", "!src/gen/"] ++ ["*.md", "# notes"], ¬Refused line := by
    simp only [not_refused_iff]
    decide +kernel
  have hdocs : ¬Refused "docs" := by
    rw [not_refused_iff]
    decide +kernel
  have hpositive : ¬IsNegated "docs" := by decide
  obtain ⟨f, hf, hpasses, -, -, hmore⟩ :=
    @select_of_lines (some _) (some _) hlines
  obtain ⟨g, hg, hselect⟩ := (hmore "docs" hdocs hpositive).2 (by decide)
  refine ⟨hlines, hdocs, hpositive, f, g, hf, hg, ?_, ?_⟩
  · rw [select, funext hpasses]
    decide +kernel
  · rw [hselect]
    simp only [hpasses]
    decide +kernel

end PathFilter

end Ripple
