import Ripple.Proofs.PathSelection
import Ripple.Proofs.Paths
import Ripple.Proofs.RegexOccurrence

/-! # Lines that name a place

A line without wildcards names a place by its segments. Read as an ignore line it takes in what is
at the place and what lies below, the place being at the top if it has two segments or more, and at
any depth if it has one. With a slash behind it the line takes in only what lies below. A name that
merely begins like the last segment is another place.
-/
namespace Ripple

namespace Ignore

open Regex Computability

/-- The characters that mean more than themselves somewhere in a line. -/
def markChars : List Char := ['*', '?', '[', ']', '\\', '!', '#']

/-- A name that an ignore line can hold as it is. -/
structure IsLiteral (n : String) : Prop where
  ne_empty : n ≠ ""
  notMem : '/' ∉ n.toList
  char : ∀ c ∈ n.toList, c ∉ markChars ∧ Text.isBlank c = false

instance (n : String) : Decidable (IsLiteral n) :=
  decidable_of_iff
    (n ≠ "" ∧ '/' ∉ n.toList ∧
      n.toList.all (fun c => decide (c ∉ markChars ∧ Text.isBlank c = false)) = true)
    ⟨fun h => ⟨h.1, h.2.1, by simpa using h.2.2⟩,
      fun h => ⟨h.ne_empty, h.notMem, by simpa using h.char⟩⟩

/-- A line that names a place. -/
structure LiteralLine where
  names : List String
  /-- There is a slash behind the names. -/
  slashed : Bool
  nonempty : names ≠ []
  literal : ∀ n ∈ names, IsLiteral n

namespace LiteralLine

def text (l : LiteralLine) : String :=
  Text.join "/" l.names ++ if l.slashed then "/" else ""

/-- The path is one of those for which the line is written: it leads to the named place or below,
and only below if the line has a slash behind its names. -/
def Selects (l : LiteralLine) (path : List String) : Prop :=
  if l.names.length = 1 then ∃ n ∈ l.names, n ∈ if l.slashed then path.dropLast else path
  else l.names <+: path ∧ (l.slashed = true → path ≠ l.names)

instance (l : LiteralLine) (path : List String) : Decidable (l.Selects path) :=
  inferInstanceAs (Decidable (ite _ _ _))

end LiteralLine

def ending (slashed : Bool) : Regex := if slashed then slash else nameEnd

theorem IsLiteral.ne_twoStars {n : String} (h : IsLiteral n) : n.toList ≠ twoStars := by
  intro he
  exact (h.char '*' (by simp [he, twoStars])).1 (by decide)

theorem IsLiteral.ne_star {n : String} (h : IsLiteral n) : n.toList ≠ ['*'] := by
  intro he
  exact (h.char '*' (by simp [he])).1 (by decide)

theorem IsLiteral.ne_nil {n : String} (h : IsLiteral n) : n.toList ≠ [] :=
  String.toList_eq_nil_iff.not.mpr h.ne_empty

/-- A literal segment is written character by character. -/
theorem segmentParts_of_literal (line : String) {segment : List Char}
    (h : ∀ c ∈ segment, c ∉ markChars) (position : Nat) {fuel : Nat}
    (hfuel : segment.length ≤ fuel) :
    segmentParts line fuel position segment = .ok (segment.map literalPart) := by
  induction segment generalizing fuel position with
  | nil => rw [segmentParts]; rfl
  | cons c rest ih =>
    obtain ⟨hc, hrest⟩ := List.forall_mem_cons.mp h
    obtain ⟨fuel, rfl⟩ : ∃ n, fuel = n + 1 := ⟨fuel - 1, by simp at hfuel; omega⟩
    have hlength : rest.length ≤ fuel := by simpa using hfuel
    simp only [markChars, List.mem_cons, List.not_mem_nil, or_false, not_or] at hc
    have hstep : segmentParts line (fuel + 1) position (c :: rest) =
        (segmentParts line fuel (position + (literalPart c).width) rest).map
          (literalPart c :: ·) := by
      rw [segmentParts]
      · dsimp only
        cases segmentParts line fuel (position + (literalPart c).width) rest <;> rfl
      all_goals simp_all
    rw [hstep, ih hrest _ hlength]
    rfl

/-- A segment without stars is written behind the slash that parts it from the segment before. -/
theorem segmentsParts_own {line : String} {position index : Nat} {before : Bool}
    {segment : List Char} {rest : List (List Char)} {own : List Part} (hstars : segment ≠ twoStars)
    (hstar : segment ≠ ['*'])
    (hown : ∀ position, segmentParts line segment.length position segment = .ok own) :
    ∃ next, segmentsParts line position before index (segment :: rest) =
      (segmentsParts line next true (index + 1) rest).bind fun parts =>
        .ok ((if before then [⟨slash, 1⟩] else []) ++ own ++
          (if rest.isEmpty then [⟨nameEnd, 0⟩] else []) ++ parts) := by
  let place := position + (if before then [⟨slash, 1⟩] else [] : List Part).length
  have hcons : segmentsParts line position before index (segment :: rest) =
      (segmentParts line segment.length place segment).bind fun own =>
        (segmentsParts line (place + (own.map Part.width).sum) true (index + 1) rest).bind
          fun parts => .ok ((if before then [⟨slash, 1⟩] else []) ++ own ++
            (if rest.isEmpty then [⟨nameEnd, 0⟩] else []) ++ parts) :=
    (if_neg hstars).trans (if_neg hstar)
  rw [hcons, hown]
  exact ⟨_, rfl⟩

/-- A pair of stars at the start stands for any directory. -/
theorem segmentsParts_leading (line : String) (position : Nat) (before : Bool)
    (rest : List (List Char)) :
    segmentsParts line position before 0 (twoStars :: rest) =
      (segmentsParts line (position + 8) false 1 rest).bind fun parts =>
        .ok (⟨leading, 8⟩ :: parts) :=
  if_pos rfl

/-- Literal segments are written with slashes between them, and what follows depends on whether two
stars stand behind them. -/
theorem segmentsParts_of_literal (line : String) {names : List String} (hnonempty : names ≠ [])
    (h : ∀ n ∈ names, IsLiteral n) (slashed : Bool) (position index : Nat) (before : Bool) :
    ∃ parts, segmentsParts line position before index
        (names.map String.toList ++ if slashed then [twoStars] else []) = .ok parts ∧
      parts.map Part.regex = (if before then [slash] else []) ++
        ((Text.join "/" names).toList.map char ++ [ending slashed]) := by
  induction names generalizing position index before with
  | nil => exact absurd rfl hnonempty
  | cons n rest ih =>
    obtain ⟨hn, hrest⟩ := List.forall_mem_cons.mp h
    have hown : ∀ position, segmentParts line n.toList.length position n.toList =
        .ok (n.toList.map literalPart) := fun position =>
      segmentParts_of_literal line (fun c hc => (hn.char c hc).1) position le_rfl
    have hregex : (n.toList.map literalPart).map Part.regex = n.toList.map char := by
      rw [List.map_map]
      rfl
    have hbefore : (if before then [⟨slash, 1⟩] else [] : List Part).map Part.regex =
        if before then [slash] else [] := by
      cases before <;> rfl
    obtain ⟨next, hnext⟩ := @segmentsParts_own line position index before _
      (rest.map String.toList ++ if slashed then [twoStars] else []) _ hn.ne_twoStars hn.ne_star
      hown
    rw [List.map_cons, List.cons_append, hnext]
    cases rest with
    | nil => cases slashed <;> exact ⟨_, rfl, by simp [hbefore, hregex, Text.join, ending]⟩
    | cons m rest =>
      obtain ⟨parts, hparts, hexpression⟩ := ih (by simp) hrest next (index + 1) true
      have hjoin := Text.toList_join_append (List.cons_ne_nil n []) (List.cons_ne_nil m rest)
      rw [List.singleton_append] at hjoin
      rw [hparts]
      refine ⟨_, rfl, ?_⟩
      rw [List.map_append, List.map_append, List.map_append, hbefore, hregex, hexpression, hjoin]
      simp [Text.join, slash]

/-- Where at most the last segment is a pair of stars, no pair follows another. -/
theorem collapseStars_append {segments : List (List Char)} (h : ∀ s ∈ segments, s ≠ twoStars)
    (slashed : Bool) :
    collapseStars (segments ++ if slashed then [twoStars] else []) =
      segments ++ if slashed then [twoStars] else [] := by
  induction segments with
  | nil => cases slashed <;> rfl
  | cons a rest ih =>
    obtain ⟨ha, hrest⟩ := List.forall_mem_cons.mp h
    rw [List.cons_append]
    cases hnext : rest ++ if slashed then [twoStars] else [] with
    | nil => rfl
    | cons b others =>
      rw [collapseStars, if_neg fun he => ha he.1, ← hnext, ih hrest]

section Normalize

variable {segment : List Char} {segments : List (List Char)}

theorem normalize_of_one (hempty : segment ≠ []) (hstars : segment ≠ twoStars) (slashed : Bool) :
    normalize ([segment] ++ if slashed then [[]] else []) =
      [twoStars] ++ ([segment] ++ if slashed then [twoStars] else []) := by
  obtain ⟨c, rest, rfl⟩ := List.exists_cons_of_ne_nil hempty
  cases slashed <;> simp [normalize, collapseStars, hstars]

theorem normalize_of_two (htwo : 2 ≤ segments.length) (hempty : ∀ s ∈ segments, s ≠ [])
    (hstars : ∀ s ∈ segments, s ≠ twoStars) (slashed : Bool) :
    normalize (segments ++ if slashed then [[]] else []) =
      segments ++ if slashed then [twoStars] else [] := by
  obtain ⟨a, b, rest, rfl⟩ : ∃ a b rest, segments = a :: b :: rest := by
    match segments, htwo with
    | a :: b :: rest, _ => exact ⟨a, b, rest, rfl⟩
  obtain ⟨c, a, rfl⟩ := List.exists_cons_of_ne_nil (hempty a (by simp))
  obtain ⟨d, b, rfl⟩ := List.exists_cons_of_ne_nil (hempty b (by simp))
  have hself : ∀ tail, normalize ((c :: a) :: (d :: b) :: tail) = collapseStars
      (if ((c :: a) :: (d :: b) :: tail).getLast? = some [] then
        ((c :: a) :: (d :: b) :: tail).dropLast ++ [twoStars]
      else (c :: a) :: (d :: b) :: tail) := by
    intro tail
    rw [normalize]
    all_goals simp
  rw [← collapseStars_append hstars, List.cons_append, List.cons_append, hself]
  apply congrArg collapseStars
  cases slashed with
  | true =>
    rw [if_pos rfl, ← List.cons_append, ← List.cons_append, List.getLast?_concat, if_pos rfl,
      List.dropLast_concat]
    rfl
  | false =>
    have hlast : ((c :: a) :: (d :: b) :: rest).getLast? ≠ some [] := fun hlast =>
      hempty _ (List.mem_of_getLast? hlast) rfl
    rw [if_neg Bool.false_ne_true, if_neg Bool.false_ne_true, List.append_nil, if_neg hlast,
      List.append_nil]

end Normalize

theorem trim_of_forall {line : List Char} (h : ∀ c ∈ line, Text.isBlank c = false) :
    trim line = line := by
  rw [trim]
  split
  · rfl
  · cases hline : line.reverse with
    | nil => exact (List.reverse_eq_nil_iff.mp hline).symm
    | cons c rest =>
      have hc : Text.isBlank c = false :=
        h c (List.mem_reverse.mp (hline ▸ List.mem_cons_self))
      rw [List.dropWhile_cons_of_neg (by simp [hc]), ← hline, List.reverse_reverse]

namespace LiteralLine

variable (l : LiteralLine)

/-- The segments of the line, with an empty one behind the last slash. -/
def segments : List (List Char) := l.names.map String.toList ++ if l.slashed then [[]] else []

def lead : List Regex := if l.names.length = 1 then [leading] else []

def regex : Regex :=
  concat (l.lead ++ (Text.join "/" l.names).toList.map char ++ [ending l.slashed])

theorem splitBy_text : Text.splitBy (· == '/') l.text.toList = l.segments := by
  have hnames := Text.splitBy_join l.nonempty fun n hn => (l.literal n hn).notMem
  rw [text, segments, String.toList_append]
  cases l.slashed with
  | false => simpa using hnames
  | true =>
    have hslash := Text.splitBy_append_separator (p := (· == '/')) (a := '/') rfl
      (Text.join "/" l.names).toList []
    rw [hnames] at hslash
    exact hslash

theorem normalize_segments :
    normalize l.segments = (if l.names.length = 1 then [twoStars] else []) ++
      (l.names.map String.toList ++ if l.slashed then [twoStars] else []) := by
  have hempty : ∀ s ∈ l.names.map String.toList, s ≠ [] :=
    List.forall_mem_map.mpr fun n hn => (l.literal n hn).ne_nil
  have hstars : ∀ s ∈ l.names.map String.toList, s ≠ twoStars :=
    List.forall_mem_map.mpr fun n hn => (l.literal n hn).ne_twoStars
  rw [segments]
  by_cases hone : l.names.length = 1
  · obtain ⟨n, hn⟩ := List.length_eq_one_iff.mp hone
    rw [hn] at hempty hstars ⊢
    exact normalize_of_one (hempty _ List.mem_cons_self) (hstars _ List.mem_cons_self) l.slashed
  · have hpos := List.length_pos_iff.mpr l.nonempty
    rw [if_neg hone, List.nil_append]
    exact normalize_of_two (by rw [List.length_map]; omega) hempty hstars l.slashed

theorem segmentsParts_segments (line : String) :
    ∃ parts, segmentsParts line 1 false 0 (normalize l.segments) = .ok parts ∧
      concat (parts.map Part.regex) = l.regex := by
  have hnames := fun position index =>
    segmentsParts_of_literal line l.nonempty l.literal l.slashed position index false
  rw [l.normalize_segments, regex, lead]
  by_cases hone : l.names.length = 1
  · obtain ⟨parts, hparts, hexpression⟩ := hnames 9 1
    refine ⟨⟨leading, 8⟩ :: parts, ?_, ?_⟩
    · rw [if_pos hone, List.singleton_append, segmentsParts_leading, hparts]
      rfl
    · rw [if_pos hone, List.map_cons, hexpression]
      rfl
  · obtain ⟨parts, hparts, hexpression⟩ := hnames 1 0
    rw [if_neg hone, if_neg hone, List.nil_append, List.nil_append]
    exact ⟨parts, hparts, congrArg concat hexpression⟩

theorem expression_segments (line : String) : expression line l.segments = .ok l.regex := by
  obtain ⟨parts, hparts, hregex⟩ := l.segmentsParts_segments line
  obtain ⟨n, rest, hn⟩ := List.exists_cons_of_ne_nil l.nonempty
  have hliteral := l.literal n (by simp [hn])
  have hmem : n.toList ∈ normalize l.segments := by
    rw [l.normalize_segments, hn]
    simp
  have hne : ∀ s : List (List Char), n.toList ∉ s → normalize l.segments ≠ s :=
    fun s hs he => hs (he ▸ hmem)
  have hempty := hne [] (by simp)
  have hstars := hne [twoStars] (by simpa using hliteral.ne_twoStars)
  have hstar := hne [twoStars, ['*']] (by simp [hliteral.ne_twoStars, hliteral.ne_star])
  have hbelow := hne [twoStars, ['*'], twoStars] (by simp [hliteral.ne_twoStars, hliteral.ne_star])
  rw [expression]
  simp [hempty, hstars, hstar, hbelow, hparts, hregex]

theorem isBlank_eq_false_of_mem_text : ∀ c ∈ l.text.toList, Text.isBlank c = false := by
  intro c hc
  rw [text, String.toList_append, List.mem_append] at hc
  rcases hc with hc | hc
  · rcases Text.mem_join hc with hc | ⟨n, hn, hc⟩
    · rw [List.mem_singleton.mp hc]
      decide
    · exact ((l.literal n hn).char c hc).2
  · split at hc
    · rw [List.mem_singleton.mp hc]
      decide
    · simp at hc

/-- The line starts with the first character of a name. -/
theorem exists_text_eq_cons :
    ∃ c rest, l.text.toList = c :: rest ∧ c ∉ markChars ∧ c ≠ '/' := by
  obtain ⟨n, others, hnames⟩ := List.exists_cons_of_ne_nil l.nonempty
  have hn := l.literal n (by simp [hnames])
  obtain ⟨c, rest, hc⟩ := List.exists_cons_of_ne_nil hn.ne_nil
  have hmem : c ∈ n.toList := by simp [hc]
  obtain ⟨behind, hbehind⟩ := Text.prefix_join n others
  rw [text, hnames, String.toList_append, ← hbehind, hc]
  exact ⟨c, _, rfl, (hn.char c hmem).1, fun he => hn.notMem (he ▸ hmem)⟩

theorem not_isNegated_text : ¬IsNegated l.text := by
  obtain ⟨c, rest, htext, hmark, -⟩ := l.exists_text_eq_cons
  rw [IsNegated, htext, List.head?_cons, Option.some.injEq]
  rintro rfl
  exact hmark (by decide)

/-- The line is a pattern, which takes in what its expression matches. -/
theorem parse_text : Pattern.parse l.text = .ok (some ⟨true, l.regex⟩) := by
  obtain ⟨c, rest, htext, hmark, hslash⟩ := l.exists_text_eq_cons
  have htrim : trim l.text.toList = l.text.toList :=
    trim_of_forall l.isBlank_eq_false_of_mem_text
  have hhash : c ≠ '#' := fun he => hmark (by simp [he, markChars])
  have hnegation : c ≠ '!' := fun he => hmark (by simp [he, markChars])
  rw [Pattern.parse, htrim, htext]
  split
  · simp_all
  · simp_all
  · simp_all
  · simp_all
  · rw [← htext, l.splitBy_text, l.expression_segments]
    rfl

end LiteralLine

/-- What may stand in front of a name that applies at any depth. -/
def leadingLanguage : Language Char := {w | w = [] ∨ ∃ v, v ≠ [] ∧ '\n' ∉ v ∧ w = v ++ ['/']}

theorem denotes_leading : Denotes leading leadingLanguage := by
  have hanyText : Denotes (anyText 1) {w | w ≠ [] ∧ '\n' ∉ w} := by
    apply denotes_anyChar.plus.congr
    intro w
    simp only [Language.mem_mul]
    constructor
    · rintro ⟨hne, hmem⟩
      obtain ⟨c, rest, rfl⟩ := List.exists_cons_of_ne_nil hne
      rw [List.mem_cons, not_or] at hmem
      exact ⟨[c], ⟨c, Ne.symm hmem.1, rfl⟩, rest,
        mem_kstar_oneChar.mpr fun d hd he => hmem.2 (he ▸ hd), rfl⟩
    · rintro ⟨_, ⟨c, hc, rfl⟩, rest, hrest, rfl⟩
      rw [mem_kstar_oneChar] at hrest
      refine ⟨by simp, ?_⟩
      rw [List.singleton_append, List.mem_cons, not_or]
      exact ⟨Ne.symm hc, fun hmem => hrest _ hmem rfl⟩
  apply (hanyText.seq (denotes_char '/')).optional.congr
  intro w
  simp only [Language.mem_add, Language.mem_one]
  constructor
  · rintro (rfl | ⟨v, hne, hmem, rfl⟩)
    · exact .inr rfl
    · exact .inl ⟨v, ⟨hne, hmem⟩, ['/'], rfl, rfl⟩
  · rintro (⟨v, ⟨hne, hmem⟩, _, rfl, rfl⟩ | rfl)
    · exact .inr ⟨v, hne, hmem, rfl⟩
    · exact .inl rfl

def Ends (slashed : Bool) (rest : List Char) : Prop :=
  (∃ below, rest = '/' :: below) ∨ slashed = false ∧ (rest = [] ∨ rest = ['\n'])

theorem isSome_run_ending_iff (slashed : Bool) (t : Cursor) :
    ((ending slashed).run some t).isSome = true ↔ Ends slashed t.ahead := by
  have hslash : (slash.run some t).isSome = true ↔ ∃ below, t.ahead = '/' :: below := by
    obtain ⟨behind, ahead, groups⟩ := t
    rw [slash, run_char]
    cases ahead with
    | nil => simp [Cursor.advance?]
    | cons c rest => by_cases hc : c = '/' <;> simp [Cursor.advance?_cons, hc]
  cases slashed with
  | true => simp [ending, Ends, hslash]
  | false =>
    change ((slash.run some t).orElse fun _ => Regex.lineEnd.run some t).isSome = true ↔ _
    rw [Option.orElse_eq_or, Option.isSome_or, Bool.or_eq_true, hslash, Ends]
    apply or_congr_right
    by_cases hend : t.ahead = [] ∨ t.ahead = ['\n'] <;> simp [run, hend]

theorem LiteralLine.denotes_front (l : LiteralLine) :
    Denotes (concat (l.lead ++ (Text.join "/" l.names).toList.map char))
      ((if l.names.length = 1 then leadingLanguage else 1) *
        {(Text.join "/" l.names).toList}) := by
  have hnames := denotes_literal (Text.join "/" l.names).toList
  rw [LiteralLine.lead]
  split
  · exact denotes_leading.concat_cons hnames
  · rwa [one_mul]

section Places

variable {path names : List String} {slashed : Bool}

/-- Behind the names stands what leads further down. -/
theorem exists_ends_iff (hpath : path ≠ []) (hnames : names ≠ [])
    (hfree : ∀ n ∈ path, '/' ∉ n.toList) (hfree' : ∀ n ∈ names, '/' ∉ n.toList)
    (hline : '\n' ∉ (Text.join "/" path).toList) :
    (∃ rest, (Text.join "/" path).toList = (Text.join "/" names).toList ++ rest ∧
        Ends slashed rest) ↔
      ∃ below, path = names ++ below ∧ (slashed = true → below ≠ []) := by
  constructor
  · rintro ⟨rest, heq, ⟨below, rfl⟩ | ⟨rfl, rfl | rfl⟩⟩
    · obtain ⟨first, further, hfirst, hfurther, rfl, hsame, -⟩ :=
        Text.exists_of_join_eq hpath hfree heq
      have hfree'' := (List.forall_mem_append.mp hfree).1
      rw [Text.join_inj hfirst hnames hfree'' hfree' (String.toList_injective hsame)]
      exact ⟨further, rfl, fun _ => hfurther⟩
    · rw [List.append_nil] at heq
      rw [Text.join_inj hpath hnames hfree hfree' (String.toList_injective heq)]
      exact ⟨[], (List.append_nil names).symm, by simp⟩
    · exact absurd (by simp [heq]) hline
  · rintro ⟨below, rfl, hbelow⟩
    by_cases hnil : below = []
    · have hslashed : slashed = false := by
        rw [Bool.eq_false_iff]
        exact fun hslashed => hbelow hslashed hnil
      rw [hnil, List.append_nil]
      exact ⟨[], (List.append_nil _).symm, .inr ⟨hslashed, .inl rfl⟩⟩
    · exact ⟨_, Text.toList_join_append hnames hnil, .inl ⟨_, rfl⟩⟩

/-- In front of a name that applies at any depth stands what leads down to it. -/
theorem exists_leading_ends_iff (hpath : path ≠ []) (hnames : names ≠ [])
    (hproper : ∀ n ∈ path, Path.IsName n) (hfree' : ∀ n ∈ names, '/' ∉ n.toList)
    (hline : '\n' ∉ (Text.join "/" path).toList) :
    (∃ front ∈ leadingLanguage, ∃ rest, (Text.join "/" path).toList =
        front ++ ((Text.join "/" names).toList ++ rest) ∧ Ends slashed rest) ↔
      ∃ above below, path = above ++ (names ++ below) ∧ (slashed = true → below ≠ []) := by
  have hfree : ∀ n ∈ path, '/' ∉ n.toList := fun n hn => (hproper n hn).notMem
  constructor
  · rintro ⟨front, rfl | ⟨above, -, -, rfl⟩, rest, heq, hends⟩
    · obtain ⟨below, hbelow⟩ := (exists_ends_iff hpath hnames hfree hfree' hline).mp
        ⟨rest, heq, hends⟩
      exact ⟨[], below, hbelow⟩
    · rw [List.append_assoc, List.singleton_append] at heq
      obtain ⟨first, further, -, hfurther, rfl, -, hrest⟩ :=
        Text.exists_of_join_eq hpath hfree heq
      have hline' : '\n' ∉ (Text.join "/" further).toList := by
        rw [heq, ← hrest, List.mem_append, not_or] at hline
        exact fun hmem => hline.2 (List.mem_cons_of_mem _ hmem)
      obtain ⟨below, rfl, hbelow⟩ :=
        (exists_ends_iff hfurther hnames (List.forall_mem_append.mp hfree).2 hfree' hline').mp
          ⟨rest, hrest, hends⟩
      exact ⟨first, below, rfl, hbelow⟩
  · rintro ⟨above, below, rfl, hbelow⟩
    have hplace : names ++ below ≠ [] := List.append_ne_nil_of_left_ne_nil hnames below
    have hfree'' := (List.forall_mem_append.mp hfree).2
    by_cases habove : above = []
    · rw [habove, List.nil_append] at hline ⊢
      obtain ⟨rest, hrest⟩ := (exists_ends_iff hplace hnames hfree'' hfree' hline).mpr
        ⟨below, rfl, hbelow⟩
      exact ⟨[], .inl rfl, rest, hrest⟩
    · have hjoin := Text.toList_join_append habove hplace
      rw [hjoin, List.mem_append, List.mem_cons, not_or, not_or] at hline
      obtain ⟨rest, hrest, hends⟩ :=
        (exists_ends_iff hplace hnames hfree'' hfree' hline.2.2).mpr ⟨below, rfl, hbelow⟩
      have hsome := Path.join_ne_empty habove (List.forall_mem_append.mp hproper).1
      exact ⟨_, .inr ⟨_, String.toList_eq_nil_iff.not.mpr hsome, hline.1, rfl⟩, rest,
        by rw [hjoin, hrest]; simp, hends⟩

end Places

/-- A segment before the last one stands above something. -/
theorem mem_dropLast_iff {path : List String} {n : String} :
    n ∈ path.dropLast ↔ ∃ above below, path = above ++ ([n] ++ below) ∧ below ≠ [] := by
  constructor
  · intro h
    obtain ⟨above, below, hpath⟩ := List.append_of_mem h
    have hnil : path ≠ [] := by
      rintro rfl
      simp at h
    refine ⟨above, below ++ [path.getLast hnil], ?_, by simp⟩
    conv_lhs => rw [← List.dropLast_append_getLast hnil, hpath]
    simp
  · rintro ⟨above, below, rfl, hbelow⟩
    rw [List.dropLast_append_of_ne_nil (by simp), List.dropLast_append_of_ne_nil hbelow]
    simp

theorem LiteralLine.selects_iff (l : LiteralLine) (path : List String) :
    l.Selects path ↔ ∃ above below, (l.names.length ≠ 1 → above = []) ∧
      path = above ++ (l.names ++ below) ∧ (l.slashed = true → below ≠ []) := by
  rw [LiteralLine.Selects]
  by_cases hone : l.names.length = 1
  · obtain ⟨n, hn⟩ := List.length_eq_one_iff.mp hone
    rw [if_pos hone, hn]
    cases l.slashed with
    | true => simp [mem_dropLast_iff]
    | false => simp [List.mem_iff_append (l := path)]
  · rw [if_neg hone]
    constructor
    · rintro ⟨⟨below, rfl⟩, hbelow⟩
      exact ⟨[], below, fun _ => rfl, rfl, by simpa using hbelow⟩
    · rintro ⟨above, below, habove, hpath, hbelow⟩
      rw [habove hone, List.nil_append] at hpath
      rw [hpath]
      exact ⟨List.prefix_append _ _, by simpa using hbelow⟩

/-- The expression matches the paths for which the line is written. -/
theorem LiteralLine.matchesStart_iff (l : LiteralLine) {path : List String} (hpath : path ≠ [])
    (hproper : ∀ n ∈ path, Path.IsName n) (hline : '\n' ∉ (Text.join "/" path).toList) :
    l.regex.matchesStart (Text.join "/" path).toList = true ↔ l.Selects path := by
  have hfree : ∀ n ∈ path, '/' ∉ n.toList := fun n hn => (hproper n hn).notMem
  have hfree' : ∀ n ∈ l.names, '/' ∉ n.toList := fun n hn => (l.literal n hn).notMem
  have hsplit : ∀ F : Language Char,
      (∃ w ∈ F * {(Text.join "/" l.names).toList}, ∃ rest,
        (Text.join "/" path).toList = w ++ rest ∧ Ends l.slashed rest) ↔
      ∃ front ∈ F, ∃ rest, (Text.join "/" path).toList =
        front ++ ((Text.join "/" l.names).toList ++ rest) ∧ Ends l.slashed rest := by
    intro F
    simp only [Language.mem_mul]
    constructor
    · rintro ⟨_, ⟨front, hfront, _, rfl, rfl⟩, rest, heq, hends⟩
      exact ⟨front, hfront, rest, by rw [heq, List.append_assoc], hends⟩
    · rintro ⟨front, hfront, rest, heq, hends⟩
      exact ⟨_, ⟨front, hfront, _, rfl, rfl⟩, rest, by rw [heq, List.append_assoc], hends⟩
  rw [regex, l.denotes_front.matchesStart_concat_iff (isSome_run_ending_iff l.slashed), hsplit,
    l.selects_iff]
  by_cases hone : l.names.length = 1
  · rw [if_pos hone, exists_leading_ends_iff hpath l.nonempty hproper hfree' hline]
    simp [hone]
  · rw [if_neg hone]
    simp [hone, Language.mem_one, exists_ends_iff hpath l.nonempty hfree hfree' hline]

/-- A path of names is seen as it is. -/
theorem relative_join {path : List String} (hpath : path ≠ [])
    (hproper : ∀ n ∈ path, Path.IsName n) :
    relative (Text.join "/" path).toList = (Text.join "/" path).toList := by
  have hfree : ∀ n ∈ path, '/' ∉ n.toList := fun n hn => (hproper n hn).notMem
  rw [relative]
  · intro rest heq
    obtain ⟨first, below, hfirst, -, rfl, hempty, -⟩ :=
      Text.exists_of_join_eq hpath hfree (s := []) heq
    exact Path.join_ne_empty hfirst (List.forall_mem_append.mp hproper).1
      (String.toList_eq_nil_iff.mp hempty)
  · intro rest heq
    obtain ⟨first, below, hfirst, -, rfl, hdot, -⟩ :=
      Text.exists_of_join_eq hpath hfree (s := ['.']) heq
    have hnames : first = ["."] :=
      Text.join_inj hfirst (by simp) (List.forall_mem_append.mp hfree).1 (by decide)
        (String.toList_injective hdot)
    exact (hproper "." (by simp [hnames])).ne_dot rfl

/-- The line applies to the paths for which it is written. -/
theorem LiteralLine.applies_iff (l : LiteralLine) {path : List String} (hpath : path ≠ [])
    (hproper : ∀ n ∈ path, Path.IsName n) (hline : '\n' ∉ (Text.join "/" path).toList) :
    applies l.text (Text.join "/" path) = true ↔ l.Selects path := by
  rw [applies_of_parse l.parse_text, relative_join hpath hproper, Pattern.matches,
    l.matchesStart_iff hpath hproper hline]

end Ignore

namespace PathFilter

open Ignore

/-- Include lines that name places, where nothing is excluded, let pass what is at one of the places
or below. -/
theorem passes_of_literal {lines : List LiteralLine} (hlines : lines ≠ [])
    {excludes : Option (List String)} (hexcludes : excludes.getD [] = []) :
    ∃ f, make (some (lines.map LiteralLine.text)) excludes = .ok f ∧
      ∀ path : List String, path ≠ [] → (∀ n ∈ path, Path.IsName n ∧ '\n' ∉ n.toList) →
        (f.passes (Text.join "/" path) = true ↔ ∃ l ∈ lines, l.Selects path) := by
  have hvalid : ∀ line ∈ lines.map LiteralLine.text ++ excludes.getD [], ¬Refused line := by
    rw [hexcludes, List.append_nil, List.forall_mem_map]
    rintro l - ⟨fault, hfault⟩
    rw [l.parse_text] at hfault
    cases hfault
  have hpositive : ∀ line ∈ lines.map LiteralLine.text, ¬IsNegated line :=
    List.forall_mem_map.mpr fun l _ => l.not_isNegated_text
  obtain ⟨f, hf⟩ := @exists_of_make (some _) excludes hvalid
  refine ⟨f, hf, fun path hpath hnames => ?_⟩
  have hline : '\n' ∉ (Text.join "/" path).toList := by
    intro hmem
    rcases Text.mem_join hmem with hmem | ⟨n, hn, hmem⟩
    · exact absurd hmem (by decide)
    · exact (hnames n hn).2 hmem
  have hsome : (lines.map LiteralLine.text).isEmpty = false := by simpa using hlines
  have hnone : lastTakesIn [] (Text.join "/" path) = false := rfl
  rw [passes_of_make hf, hexcludes, hnone, Option.getD_some, hsome, lastTakesIn_eq_any hpositive,
    List.any_map]
  simp [LiteralLine.applies_iff _ hpath (fun n hn => (hnames n hn).1) hline]

def directoryLine : LiteralLine := ⟨["src", "app"], false, by simp, by decide +kernel⟩

def belowLine : LiteralLine := ⟨["docs"], true, by simp, by decide +kernel⟩

/-- A line that names a directory does not let pass a file whose name begins like the directory's,
and a slash behind a name asks for something below. -/
theorem passes_of_literal_sibling :
    [directoryLine, belowLine] ≠ [] ∧ (none : Option (List String)).getD [] = [] ∧
      (∀ path ∈ [["src", "application.ts"], ["docs"], ["src", "app", "docs"], ["lib", "docs", "a"]],
        path ≠ [] ∧ ∀ n ∈ path, Path.IsName n ∧ '\n' ∉ n.toList) ∧
      ∃ f, make (some ["src/app", "docs/"]) none = .ok f ∧
        f.passes "src/application.ts" = false ∧ f.passes "docs" = false ∧
        f.passes "src/app/docs" = true ∧ f.passes "lib/docs/a" = true := by
  have hnames : ∀ path ∈ [["src", "application.ts"], ["docs"], ["src", "app", "docs"],
      ["lib", "docs", "a"]], path ≠ [] ∧ ∀ n ∈ path, Path.IsName n ∧ '\n' ∉ n.toList := by
    decide +kernel
  obtain ⟨f, hf, hpasses⟩ := @passes_of_literal [directoryLine, belowLine] (by simp) none rfl
  have hpath := fun path hpath => hpasses path (hnames path hpath).1 (hnames path hpath).2
  refine ⟨by simp, rfl, hnames, f, hf, ?_, ?_, ?_, ?_⟩
  · rw [Bool.eq_false_iff]
    exact (hpath ["src", "application.ts"] (by simp)).not.mpr (by decide +kernel)
  · rw [Bool.eq_false_iff]
    exact (hpath ["docs"] (by simp)).not.mpr (by decide +kernel)
  · exact (hpath ["src", "app", "docs"] (by simp)).mpr (by decide +kernel)
  · exact (hpath ["lib", "docs", "a"] (by simp)).mpr (by decide +kernel)

end PathFilter

end Ripple
