import Ripple.Analysis.GoService
import Ripple.Proofs.RegexOccurrence
import Ripple.Proofs.TokenPlaces

/-! # Which names are taken for handlers

The search for the uses of a name does not look at what stands next to the name. Therefore a name is
taken for that of a handler not only where it is the identifier that is used, but also where it is a
part of that identifier: any part of the argument of a registration function, a beginning of what
stands behind a qualifier or is assigned, an end of what takes a context as its first parameter.
-/
namespace Ripple.Analysis

open Regex
open Computability

def AllBlank (w : List Char) : Prop := ∀ c ∈ w, Text.isBlank c = true

def AllWord (w : List Char) : Prop := ∀ c ∈ w, Text.isWord c = true

instance (w : List Char) : Decidable (AllBlank w) :=
  decidable_of_iff (w.all Text.isBlank = true) List.all_eq_true

instance (w : List Char) : Decidable (AllWord w) :=
  decidable_of_iff (w.all Text.isWord = true) List.all_eq_true

structure IsIdentifier (w : List Char) : Prop where
  ne_nil : w ≠ []
  word : AllWord w

/-- The functions that register their argument as the handler. -/
def registrationFunctions : List String := ["lambda.Start", "lambda.StartWithOptions"]

/-- The uses of an identifier that make it a handler. -/
inductive HandlerUse where
  /-- It is the first word of the argument of a registration function. -/
  | argument
  /-- It stands behind a qualifier in such an argument. -/
  | member
  | assigned
  | contextFirst
  deriving DecidableEq, Repr

namespace HandlerUse

def OpensCall (function : String) (w : List Char) : Prop :=
  ∃ gap gap', AllBlank gap ∧ AllBlank gap' ∧ w = function.toList ++ (gap ++ '(' :: gap')

def Lead : HandlerUse → List Char → Prop
  | argument, w => ∃ function ∈ registrationFunctions, OpensCall function w
  | member, w => ∃ function ∈ registrationFunctions, ∃ opening qualifier dot gap,
      OpensCall function opening ∧ AllWord qualifier ∧ (dot = ['.'] ∨ dot = []) ∧ AllBlank gap ∧
        dot ++ gap ≠ [] ∧ w = opening ++ (qualifier ++ (dot ++ gap))
  | assigned, w => ∃ gap mark gap', AllBlank gap ∧ (mark = ':' ∨ mark = '=') ∧ AllBlank gap' ∧
      w = "Handler".toList ++ (gap ++ mark :: gap')
  | contextFirst, w => w = []

def Follow : HandlerUse → List Char → Prop
  | contextFirst, w => ∃ gap gap' gap'', AllBlank gap ∧ AllBlank gap' ∧ AllBlank gap'' ∧
      gap'' ≠ [] ∧ w = gap ++ '(' :: (gap' ++ ("ctx".toList ++ (gap'' ++ "context.Context".toList)))
  | _, w => w = []

/-- The use is around a word that stands between two texts and does not go on in either. -/
structure Around (u : HandlerUse) (before after : List Char) : Prop where
  lead : ∃ w, u.Lead w ∧ w <:+ before
  follow : ∃ w, u.Follow w ∧ w <+: after
  edge_before : before.getLast?.any Text.isWord = false
  edge_after : after.head?.any Text.isWord = false

/-- A text has an identifier as a whole and uses it in this way. -/
def Stands (u : HandlerUse) (content identifier : List Char) : Prop :=
  IsIdentifier identifier ∧
    ∃ before after, content = before ++ (identifier ++ after) ∧ u.Around before after

/-- The parts of a used identifier that are found in this use. -/
def Finds : HandlerUse → List Char → List Char → Prop
  | argument, name, identifier => name <:+: identifier
  | member, name, identifier => name <+: identifier
  | assigned, name, identifier => name <+: identifier
  | contextFirst, name, identifier => name <:+ identifier

end HandlerUse

theorem denotes_blanks : Denotes blanks {w | AllBlank w} := by
  have h := denotes_star_of_forall [.blank false]
  simp only [List.any_cons, List.any_nil, Bool.or_false, ClassItem.holds, Bool.bne_false] at h
  exact h

theorem denotes_wordChars : Denotes (wordChars 0) {w | AllWord w} := by
  have h := denotes_star_of_forall [.word false]
  simp only [List.any_cons, List.any_nil, Bool.or_false, ClassItem.holds, Bool.bne_false] at h
  exact h

theorem denotes_blank :
    Denotes (.oneOf false [.blank false]) (oneChar fun c => Text.isBlank c = true) := by
  have h := denotes_oneOf false [.blank false]
  simp only [List.any_cons, List.any_nil, Bool.or_false, ClassItem.holds, Bool.bne_false] at h
  exact h

/-- A call of a function up to some place in its argument: a word of the argument, a dot and blanks
may have been left behind. -/
def HandlerUse.InArgument (function : String) (w : List Char) : Prop :=
  ∃ opening qualifier dot gap, OpensCall function opening ∧ AllWord qualifier ∧
    (dot = ['.'] ∨ dot = []) ∧ AllBlank gap ∧ w = opening ++ (qualifier ++ (dot ++ gap))

/-- Something of a use stands at the end of what is in front of a name, or at the beginning of what
is behind it. -/
def HandlerUse.Meets (before after : List Char) : Prop :=
  (∃ function ∈ registrationFunctions, ∃ w, InArgument function w ∧ w <:+ before) ∨
    (∃ w, assigned.Lead w ∧ w <:+ before) ∨
      ∃ w, HandlerUse.contextFirst.Follow w ∧ w <+: after

open HandlerUse

variable {name content before after : List Char}

theorem denotes_registration (function name : String) :
    Denotes (registration function name)
      {w | ∃ lead, InArgument function lead ∧ w = lead ++ name.toList} := by
  apply Denotes.congr <| (denotes_literal function.toList).seq <| denotes_blanks.seq <|
    (denotes_char '(').seq <| denotes_blanks.seq <| denotes_wordChars.seq <|
      (denotes_char '.').optional.seq <| denotes_blanks.seq <| denotes_literal name.toList
  intro w
  simp only [Language.mem_mul]
  constructor
  · rintro ⟨_, ⟨_, qualifier, dot, gap'', ⟨gap, gap', hgap, hgap', rfl⟩, hqualifier, hdot, hgap'',
      rfl⟩, rfl⟩
    exact ⟨_, rfl, _, ⟨gap, hgap, _, ⟨['('], rfl, _, ⟨gap', hgap', _, ⟨qualifier, hqualifier, _,
      ⟨dot, hdot, _, ⟨gap'', hgap'', _, rfl, rfl⟩, rfl⟩, rfl⟩, rfl⟩, rfl⟩, rfl⟩, by simp⟩
  · rintro ⟨_, rfl, _, ⟨gap, hgap, _, ⟨_, rfl, _, ⟨gap', hgap', _, ⟨qualifier, hqualifier, _,
      ⟨dot, hdot, _, ⟨gap'', hgap'', _, rfl, rfl⟩, rfl⟩, rfl⟩, rfl⟩, rfl⟩, rfl⟩, rfl⟩
    exact ⟨_, ⟨_, qualifier, dot, gap'', ⟨gap, gap', hgap, hgap', rfl⟩, hqualifier, hdot, hgap'',
      rfl⟩, by simp⟩

theorem denotes_handlerAssignment (name : String) :
    Denotes (handlerAssignment name)
      {w | ∃ lead, assigned.Lead lead ∧ w = lead ++ name.toList} := by
  apply Denotes.congr <| (denotes_literal "Handler".toList).seq <| denotes_blanks.seq <|
    ((denotes_char ':').alt (denotes_char '=')).seq <| denotes_blanks.seq <|
      denotes_literal name.toList
  intro w
  simp only [Language.mem_mul]
  constructor
  · rintro ⟨_, ⟨gap, mark, gap', hgap, hmark, hgap', rfl⟩, rfl⟩
    have hmark' : [mark] = [':'] ∨ [mark] = ['='] := hmark.imp (congrArg ([·])) (congrArg ([·]))
    exact ⟨_, rfl, _, ⟨gap, hgap, _, ⟨[mark], hmark', _, ⟨gap', hgap', _, rfl, rfl⟩, rfl⟩, rfl⟩,
      by simp⟩
  · rintro ⟨_, rfl, _, ⟨gap, hgap, _, ⟨mark, hmark, _, ⟨gap', hgap', _, rfl, rfl⟩, rfl⟩, rfl⟩, rfl⟩
    rcases hmark with rfl | rfl
    · exact ⟨_, ⟨gap, ':', gap', hgap, .inl rfl, hgap', rfl⟩, by simp⟩
    · exact ⟨_, ⟨gap, '=', gap', hgap, .inr rfl, hgap', rfl⟩, by simp⟩

theorem denotes_contextFirst (name : String) :
    Denotes (contextFirst name)
      {w | ∃ follow, HandlerUse.contextFirst.Follow follow ∧ w = name.toList ++ follow} := by
  apply Denotes.congr <| (denotes_literal name.toList).seq <| denotes_blanks.seq <|
    (denotes_char '(').seq <| denotes_blanks.seq <| (denotes_literal "ctx".toList).seq <|
      (denotes_blank.seq denotes_blanks).seq <| denotes_literal "context.Context".toList
  intro w
  simp only [Language.mem_mul]
  constructor
  · rintro ⟨_, ⟨gap, gap', gap'', hgap, hgap', hgap'', hne, rfl⟩, rfl⟩
    obtain ⟨c, rest, rfl⟩ := List.exists_cons_of_ne_nil hne
    obtain ⟨hc, hrest⟩ := List.forall_mem_cons.mp hgap''
    exact ⟨_, rfl, _, ⟨gap, hgap, _, ⟨['('], rfl, _, ⟨gap', hgap', _, ⟨_, rfl, _,
      ⟨_, ⟨[c], ⟨c, hc, rfl⟩, rest, hrest, rfl⟩, _, rfl, rfl⟩, rfl⟩, rfl⟩, rfl⟩, rfl⟩, by simp⟩
  · rintro ⟨_, rfl, _, ⟨gap, hgap, _, ⟨_, rfl, _, ⟨gap', hgap', _, ⟨_, rfl, _,
      ⟨_, ⟨_, ⟨c, hc, rfl⟩, rest, hrest, rfl⟩, _, rfl, rfl⟩, rfl⟩, rfl⟩, rfl⟩, rfl⟩, rfl⟩
    exact ⟨_, ⟨gap, gap', c :: rest, hgap, hgap', List.forall_mem_cons.mpr ⟨hc, hrest⟩,
      List.cons_ne_nil _ _, rfl⟩, by simp⟩

/-- A name passes for a used one where it stands next to what a use has around it. -/
theorem any_handlerUses_iff (content : List Char) (name : String) :
    (handlerUses name).any (·.occursIn content) = true ↔
      ∃ before after, content = before ++ (name.toList ++ after) ∧ Meets before after := by
  simp only [Meets, handlerUses, registrationFunctions, List.any_cons, List.any_nil, Bool.or_false,
    Bool.or_eq_true, (denotes_registration _ name).occursIn_behind_iff,
    (denotes_handlerAssignment name).occursIn_behind_iff,
    (denotes_contextFirst name).occursIn_before_iff, List.mem_cons, List.not_mem_nil, or_false,
    exists_eq_or_imp, exists_eq_left, or_assoc, and_or_left, exists_or]

theorem isWord_of_mem_blank {w : List Char} (h : AllBlank w) : ∀ c ∈ w, Text.isWord c = false :=
  fun c hc => Text.isWord_eq_false_of_isBlank (h c hc)

theorem getLast?_append_any {w : List Char} (hw : ∀ c ∈ w, Text.isWord c = false) (hne : w ≠ [])
    (before : List Char) : (before ++ w).getLast?.any Text.isWord = false := by
  rw [List.getLast?_append_of_ne_nil before hne, List.getLast?_eq_some_getLast hne, Option.any_some]
  exact hw _ (List.getLast_mem hne)

/-- Behind a word that is a lead no word goes on. -/
theorem HandlerUse.Lead.edge {u : HandlerUse} {w : List Char} (h : u.Lead w)
    (hu : u ≠ .contextFirst) (before : List Char) :
    (before ++ w).getLast?.any Text.isWord = false := by
  have hmark : ∀ (c : Char) (gap front : List Char), Text.isWord c = false → AllBlank gap →
      (front ++ c :: gap).getLast?.any Text.isWord = false := by
    intro c gap front hc hgap
    apply getLast?_append_any _ (List.cons_ne_nil c gap)
    exact List.forall_mem_cons.mpr ⟨hc, isWord_of_mem_blank hgap⟩
  cases u with
  | argument =>
    obtain ⟨function, -, gap, gap', -, hgap', rfl⟩ := h
    rw [← List.append_assoc, ← List.append_assoc]
    exact hmark '(' gap' _ (by decide) hgap'
  | member =>
    obtain ⟨function, -, opening, qualifier, dot, gap, -, -, hdot, hgap, hne, rfl⟩ := h
    rw [← List.append_assoc, ← List.append_assoc]
    apply getLast?_append_any _ hne
    rw [List.forall_mem_append]
    refine ⟨?_, isWord_of_mem_blank hgap⟩
    rcases hdot with rfl | rfl
    · exact List.forall_mem_singleton.mpr (by decide)
    · exact List.forall_mem_nil _
  | assigned =>
    obtain ⟨gap, mark, gap', -, hmark', hgap', rfl⟩ := h
    have hedge : Text.isWord mark = false := by
      rcases hmark' with rfl | rfl <;> decide
    rw [← List.append_assoc, ← List.append_assoc]
    exact hmark mark gap' _ hedge hgap'
  | contextFirst => exact absurd rfl hu

/-- In front of a parameter list no word goes on. -/
theorem HandlerUse.Follow.edge {w : List Char} (h : HandlerUse.contextFirst.Follow w)
    (after : List Char) : (w ++ after).head?.any Text.isWord = false := by
  obtain ⟨gap, gap', gap'', hgap, -, -, -, rfl⟩ := h
  cases gap with
  | nil => exact (by decide : Text.isWord '(' = false)
  | cons c gap =>
    have hc := isWord_of_mem_blank hgap c List.mem_cons_self
    simpa using hc

theorem exists_word_ahead (s : List Char) :
    ∃ word rest, s = word ++ rest ∧ AllWord word ∧ rest.head?.any Text.isWord = false := by
  refine ⟨s.takeWhile Text.isWord, s.dropWhile Text.isWord, List.takeWhile_append_dropWhile.symm,
    fun c hc => List.mem_takeWhile_imp hc, ?_⟩
  have hhead := List.head?_dropWhile_not Text.isWord s
  cases hrest : (s.dropWhile Text.isWord).head? with
  | none => rfl
  | some c =>
    rw [hrest] at hhead
    simpa using hhead

theorem exists_word_behind (s : List Char) :
    ∃ rest word, s = rest ++ word ∧ AllWord word ∧ rest.getLast?.any Text.isWord = false := by
  obtain ⟨word, rest, hs, hword, hedge⟩ := exists_word_ahead s.reverse
  refine ⟨rest.reverse, word.reverse, ?_, fun c hc => hword c (List.mem_reverse.mp hc), ?_⟩
  · rw [← List.reverse_append, ← hs, List.reverse_reverse]
  · rw [List.getLast?_reverse]
    exact hedge

theorem HandlerUse.Stands.of_lead {u : HandlerUse} (hu : u ≠ .contextFirst) {lead : List Char}
    (hlead : u.Lead lead) {identifier rest : List Char} (hidentifier : IsIdentifier identifier)
    (hrest : rest.head?.any Text.isWord = false) (front : List Char) :
    u.Stands (front ++ lead ++ (identifier ++ rest)) identifier := by
  refine ⟨hidentifier, front ++ lead, rest, rfl, ⟨lead, hlead, List.suffix_append front lead⟩, ?_,
    hlead.edge hu front, hrest⟩
  cases u with
  | contextFirst => exact absurd rfl hu
  | _ => exact ⟨[], rfl, List.nil_prefix⟩

/-- Where something of a use stands next to a name, the use is of an identifier in which the name is
found. -/
theorem exists_stands (hname : IsIdentifier name) (h : Meets before after) :
    ∃ (u : HandlerUse) (identifier : List Char),
      u.Stands (before ++ (name ++ after)) identifier ∧ u.Finds name identifier := by
  obtain ⟨behind, rest, hafter, hbehind, hrest⟩ := exists_word_ahead after
  have hword : IsIdentifier (name ++ behind) :=
    ⟨by simp [hname.ne_nil], List.forall_mem_append.mpr ⟨hname.word, hbehind⟩⟩
  have hlead : ∀ u : HandlerUse, u ≠ .contextFirst → ∀ lead, u.Lead lead → lead <:+ before →
      u.Stands (before ++ (name ++ after)) (name ++ behind) := by
    rintro u hu lead hlead ⟨front, rfl⟩
    have hstands := HandlerUse.Stands.of_lead hu hlead hword hrest front
    rwa [List.append_assoc name, ← hafter] at hstands
  have hprefix : name <+: name ++ behind := List.prefix_append name behind
  rcases h with ⟨function, hfunction, _, ⟨opening, qualifier, dot, gap, hopening, hqualifier, hdot,
    hgap, rfl⟩, hsuffix⟩ | ⟨lead, hassigned, hsuffix⟩ | ⟨follow, hfollow, back, hback⟩
  · by_cases hdirect : dot ++ gap = []
    · -- Only a word has been left behind: the name stands in the first word of the argument.
      obtain ⟨front, rfl⟩ := hsuffix
      have hfirst : IsIdentifier (qualifier ++ (name ++ behind)) :=
        ⟨by simp [hname.ne_nil], List.forall_mem_append.mpr ⟨hqualifier, hword.word⟩⟩
      have hstands := HandlerUse.Stands.of_lead (u := .argument) (by decide)
        ⟨function, hfunction, hopening⟩ hfirst hrest front
      refine ⟨.argument, qualifier ++ (name ++ behind), ?_, qualifier, behind, by simp⟩
      convert hstands using 1
      simp [hdirect, hafter]
    · exact ⟨.member, name ++ behind, hlead .member (by decide) _ ⟨function, hfunction, opening,
        qualifier, dot, gap, hopening, hqualifier, hdot, hgap, hdirect, rfl⟩ hsuffix, hprefix⟩
  · exact ⟨.assigned, name ++ behind, hlead .assigned (by decide) lead hassigned hsuffix, hprefix⟩
  · obtain ⟨front, ahead, hbefore, hahead, hfront⟩ := exists_word_behind before
    have hlast : IsIdentifier (ahead ++ name) :=
      ⟨by simp [hname.ne_nil], List.forall_mem_append.mpr ⟨hahead, hname.word⟩⟩
    refine ⟨.contextFirst, ahead ++ name, ⟨hlast, front, after, ?_, ?_⟩,
      List.suffix_append ahead name⟩
    · simp [hbefore]
    · exact ⟨⟨[], rfl, List.nil_suffix⟩, ⟨follow, hfollow, back, hback⟩, hfront,
        hback ▸ hfollow.edge back⟩

/-- A name that is found in a used identifier has something of the use next to it. -/
theorem exists_meets_of_stands {u : HandlerUse} {identifier : List Char}
    (hstands : u.Stands content identifier) (hfinds : u.Finds name identifier) :
    ∃ before after, content = before ++ (name ++ after) ∧ Meets before after := by
  obtain ⟨hidentifier, before, after, rfl, haround⟩ := hstands
  obtain ⟨lead, hlead, hbefore⟩ := haround.lead
  obtain ⟨follow, hfollow, hafter⟩ := haround.follow
  cases u with
  | argument =>
    obtain ⟨function, hfunction, hopening⟩ := hlead
    obtain ⟨ahead, behind, rfl⟩ := hfinds
    have hahead : AllWord ahead := fun c hc => hidentifier.word c (by simp [hc])
    obtain ⟨front, rfl⟩ := hbefore
    have hargument : InArgument function (lead ++ ahead) :=
      ⟨lead, ahead, [], [], hopening, hahead, .inr rfl, List.forall_mem_nil _, by simp⟩
    exact ⟨front ++ lead ++ ahead, behind ++ after, by simp,
      .inl ⟨function, hfunction, lead ++ ahead, hargument, front, by simp⟩⟩
  | member =>
    obtain ⟨function, hfunction, opening, qualifier, dot, gap, hopening, hqualifier, hdot, hgap, -,
      rfl⟩ := hlead
    obtain ⟨behind, rfl⟩ := hfinds
    exact ⟨before, behind ++ after, by simp, .inl ⟨function, hfunction, _, ⟨opening, qualifier, dot,
      gap, hopening, hqualifier, hdot, hgap, rfl⟩, hbefore⟩⟩
  | assigned =>
    obtain ⟨behind, rfl⟩ := hfinds
    exact ⟨before, behind ++ after, by simp, .inr (.inl ⟨lead, hlead, hbefore⟩)⟩
  | contextFirst =>
    obtain ⟨ahead, rfl⟩ := hfinds
    exact ⟨before ++ ahead, after, by simp, .inr (.inr ⟨follow, hfollow, hafter⟩)⟩

theorem any_handlerUses_iff_exists_stands {name : String} (hname : IsIdentifier name.toList)
    (content : List Char) :
    (handlerUses name).any (·.occursIn content) = true ↔
      ∃ (u : HandlerUse) (identifier : List Char),
        u.Stands content identifier ∧ u.Finds name.toList identifier := by
  rw [any_handlerUses_iff]
  constructor
  · rintro ⟨before, after, rfl, h⟩
    exact exists_stands hname h
  · rintro ⟨u, identifier, hstands, hfinds⟩
    exact exists_meets_of_stands hstands hfinds

/-- The name begins as those of handlers do by convention. -/
def ByConvention (name : String) : Prop :=
  ∃ beginning ∈ handlerBeginnings, Text.startsWith name beginning = true

instance (name : String) : Decidable (ByConvention name) :=
  inferInstanceAs <| Decidable <|
    ∃ beginning ∈ handlerBeginnings, Text.startsWith name beginning = true

theorem isHandler_iff (content : List Char) (name : String) :
    isHandler content name = true ↔
      ByConvention name ∨ (handlerUses name).any (·.occursIn content) = true := by
  rw [isHandler, Bool.or_eq_true, or_comm, ByConvention, List.any_eq_true]

namespace GoService

variable (s : Setting) (file content diff : String)

theorem ne_of_head {component : String} (h : component.toList.head? ≠ some 'L') (name : String) :
    component ≠ "Lambda: " ++ name := by
  rintro rfl
  simp at h

/-- Of the functions that a file declares, those are reported as handlers that pass for such. -/
theorem exists_handler_fileImpacts (name : String) :
    (∃ i ∈ fileImpacts s file content diff, i.component = "Lambda: " ++ name) ↔
      (∃ f ∈ (Outline.GoFile.read content).functions, f.name = name) ∧
        isHandler content.toList name = true := by
  simp only [fileImpacts, List.mem_append, List.mem_map, List.mem_filter, List.mem_ite_nil_right,
    List.mem_singleton]
  constructor
  · rintro ⟨i, ((((⟨f, ⟨hf, hhandler⟩, rfl⟩ | ⟨t, -, rfl⟩) | ⟨t, -, rfl⟩) | ⟨-, rfl⟩) | ⟨-, rfl⟩) |
      ⟨-, rfl⟩, hcomponent⟩
    · have heq : f.name = name := by
        change "Lambda: " ++ f.name = "Lambda: " ++ name at hcomponent
        simpa using hcomponent
      exact ⟨⟨f, hf, heq⟩, heq ▸ hhandler⟩
    all_goals exact absurd hcomponent (ne_of_head (by simp [Setting.impact, Setting.impactAt,
      Impact.single]) name)
  · rintro ⟨⟨f, hf, rfl⟩, hhandler⟩
    exact ⟨_, .inl (.inl (.inl (.inl (.inl ⟨f, ⟨hf, hhandler⟩, rfl⟩)))), rfl⟩

/-- A function that a changed file declares is reported as a handler if and only if its name begins
as those of handlers do, or is a part of an identifier that the file uses as a handler: any part of
the first word of what is registered, a beginning of what is registered behind a qualifier or
assigned, an end of what takes a context first. -/
theorem fileImpacts_handler_iff {name : String} (hname : IsIdentifier name.toList) :
    ((∃ i ∈ fileImpacts s file content diff, i.component = "Lambda: " ++ name) ↔
      (∃ f ∈ (Outline.GoFile.read content).functions, f.name = name) ∧
        isHandler content.toList name = true) ∧
    (isHandler content.toList name = true ↔
      ByConvention name ∨ ∃ (u : HandlerUse) (identifier : List Char),
        u.Stands content.toList identifier ∧ u.Finds name.toList identifier) := by
  constructor
  · exact exists_handler_fileImpacts s file content diff name
  · rw [isHandler_iff, any_handlerUses_iff_exists_stands hname]

/-- Where `processAll` is registered, `process` passes for a handler too. No use of the file has it
as a whole. -/
theorem fileImpacts_handler_iff_process :
    IsIdentifier "process".toList ∧ ¬ ByConvention "process" ∧
      isHandler "lambda.Start(processAll)".toList "process" = true ∧
      ∀ u : HandlerUse, ¬ u.Stands "lambda.Start(processAll)".toList "process".toList := by
  have hname : IsIdentifier "process".toList := ⟨by decide, by decide⟩
  have hall : IsIdentifier "processAll".toList := ⟨by decide, by decide⟩
  have hlead : HandlerUse.argument.Lead "lambda.Start(".toList :=
    ⟨"lambda.Start", by decide, [], [], by decide, by decide, rfl⟩
  have hstands : HandlerUse.argument.Stands "lambda.Start(processAll)".toList "processAll".toList :=
    .of_lead HandlerUse.noConfusion hlead hall
      (show [')'].head?.any Text.isWord = false by decide) []
  have hpart : HandlerUse.argument.Finds "process".toList "processAll".toList :=
    ⟨[], ['A', 'l', 'l'], rfl⟩
  refine ⟨hname, by decide, ?_, ?_⟩
  · let s : Setting := ⟨⟨"api", ⟨"/", []⟩, .go, [], none, none⟩, ⟨"", ""⟩, ⟨none, none⟩⟩
    have huses := (fileImpacts_handler_iff s "main.go" "lambda.Start(processAll)" "" hname).2
    exact huses.mpr (.inr ⟨.argument, _, hstands, hpart⟩)
  · rintro u ⟨-, before, after, hcontent, haround⟩
    have hplaces : ∀ n ≤ 24, "process".toList.isPrefixOf
        ("lambda.Start(processAll)".toList.drop n) = true →
          ("lambda.Start(processAll)".toList.drop (n + 7)).head?.any Text.isWord = true := by
      decide
    have hlength := congrArg List.length hcontent
    have hprefix : "process".toList.isPrefixOf
        ("lambda.Start(processAll)".toList.drop before.length) = true := by
      rw [hcontent, List.drop_left, List.isPrefixOf_iff_prefix]
      exact List.prefix_append _ after
    have hedge := hplaces before.length (by simp at hlength; omega) hprefix
    rw [hcontent, ← List.drop_drop, List.drop_left] at hedge
    have hafter := haround.edge_after
    simp_all

end GoService

end Ripple.Analysis
