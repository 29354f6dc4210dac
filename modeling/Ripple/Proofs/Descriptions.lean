import Mathlib.Data.List.TakeDrop
import Ripple.Graphql.Difference
import Ripple.Proofs.ReaderNames

/-! # What the description of a difference is about

A part of a schema is a type, a field that is read or written, or an enum value. Differences are
described in sentences, and the path of a change is found from the sentence alone. For every
difference of types this path is the path of the part that the sentence is about. That holds for all
names, those among them that are words of the sentences, and whatever the arguments, the types and
the default values say. Sentences about directives have no such part.
-/
namespace Ripple.Graphql

open Text (isWord)

structure IsWordText (w : List Char) : Prop where
  nonempty : w ≠ []
  all : ∀ c ∈ w, isWord c = true

instance (w : List Char) : Decidable (IsWordText w) :=
  decidable_of_iff (w ≠ [] ∧ w.all isWord = true)
    ⟨fun ⟨hne, hall⟩ => ⟨hne, List.all_eq_true.mp hall⟩,
      fun ⟨hne, hall⟩ => ⟨hne, List.all_eq_true.mpr hall⟩⟩

theorem IsName.isWordText {s : String} (h : IsName s) : IsWordText s.toList := by
  obtain ⟨c, rest, hs, hc, hrest⟩ := h
  rw [hs]
  exact ⟨List.cons_ne_nil _ _, List.forall_mem_cons.mpr
    ⟨Lexer.isWord_of_isNameChar (Lexer.isNameChar_of_isNameStart hc), fun d hd =>
      Lexer.isWord_of_isNameChar (hrest d hd)⟩⟩

/-- No name has a point in it. -/
theorem IsName.point_notMem {s : String} (h : IsName s) : '.' ∉ s.toList := by
  intro hmem
  have hword := h.isWordText.all '.' hmem
  revert hword
  decide

namespace ChangePath

variable {w v : List Char} {c d : Char}

theorem word?_append (hw : IsWordText w) (hd : isWord d = false) (rest : List Char) :
    word? (w ++ d :: rest) = some (w, d :: rest) := by
  have hspan : (w ++ d :: rest).span isWord = (w, d :: rest) := by
    rw [List.span_eq_takeWhile_dropWhile, List.takeWhile_append_of_pos hw.all,
      List.dropWhile_append_of_pos hw.all]
    simp [hd]
  obtain ⟨a, as, rfl⟩ := List.exists_cons_of_ne_nil hw.nonempty
  rw [word?, hspan]

/-- Of two words with something behind them, one text starts with the other if and only if the words
are the same and what is behind does. -/
theorem word_prefix_word (hw : ∀ a ∈ w, isWord a = true) (hv : ∀ a ∈ v, isWord a = true)
    (hc : isWord c = false) (hd : isWord d = false) (p s : List Char) :
    w ++ c :: p <+: v ++ d :: s ↔ w = v ∧ c = d ∧ p <+: s := by
  induction w generalizing v with
  | nil =>
    cases v with
    | nil => simp
    | cons b v =>
      have hb : c ≠ b := by
        rintro rfl
        rw [hv c List.mem_cons_self] at hc
        cases hc
      simp [hb]
  | cons a w ih =>
    obtain ⟨ha, hw⟩ := List.forall_mem_cons.mp hw
    cases v with
    | nil =>
      have had : a ≠ d := by
        rintro rfl
        rw [ha] at hd
        cases hd
      simp [had]
    | cons b v =>
      rw [List.cons_append, List.cons_append, List.cons_prefix_cons,
        ih hw fun e he => hv e (List.mem_cons_of_mem b he), List.cons.injEq, and_assoc]

theorem word?_eq_some {s rest : List Char} (h : word? s = some (w, rest)) :
    s = w ++ rest ∧ (∀ a ∈ w, isWord a = true) ∧ ∀ c ∈ rest.head?, isWord c = false := by
  rw [word?, List.span_eq_takeWhile_dropWhile] at h
  split at h
  · cases h
  · rename_i heq
    obtain ⟨rfl, rfl⟩ := Prod.mk.inj heq
    cases h
    refine ⟨List.takeWhile_append_dropWhile.symm, fun a ha => List.mem_takeWhile_imp ha, ?_⟩
    intro c hc
    have hnot := List.head?_dropWhile_not isWord s
    rw [Option.mem_def.mp hc] at hnot
    simpa using hnot

theorem behind?_eq_none {heads : List String} {s : List Char}
    (h : ∀ head ∈ heads, head.toList.isPrefixOf s = false) : behind? heads s = none := by
  rw [behind?, List.findSome?_eq_none_iff]
  intro head hhead
  rw [h head hhead, if_neg Bool.false_ne_true]

/-- Behind a word, the text goes on differently from each of several beginnings. -/
theorem behind?_word (hv : IsWordText v) (hd : isWord d = false) {heads : List String}
    {s : List Char} (h : (heads.all fun head => (word? head.toList).any fun x =>
      !x.2.isEmpty && !x.2.isPrefixOf (d :: s)) = true) : behind? heads (v ++ d :: s) = none := by
  refine behind?_eq_none fun head hhead => ?_
  obtain ⟨⟨w, rest⟩, hword, hrest⟩ := (Option.any_eq_true _ _).mp (List.all_eq_true.mp h head hhead)
  obtain ⟨htext, hw, hc⟩ := word?_eq_some hword
  rw [Bool.and_eq_true, Bool.not_eq_true', Bool.not_eq_true'] at hrest
  obtain ⟨c, p, rfl⟩ := List.exists_cons_of_ne_nil (List.isEmpty_eq_false_iff.mp hrest.1)
  rw [Bool.eq_false_iff, Ne, htext, List.isPrefixOf_iff_prefix,
    word_prefix_word hw hv.all (hc c rfl) hd]
  rintro ⟨-, rfl, hp⟩
  have hboth := hrest.2
  rw [Bool.eq_false_iff, Ne, List.isPrefixOf_iff_prefix, List.cons_prefix_cons] at hboth
  exact hboth ⟨rfl, hp⟩

theorem dotted?_inside (hw : ∀ a ∈ w, isWord a = true) (hd : isWord d = false) (rest : List Char) :
    dotted? true (w ++ d :: rest) = dotted? false rest := by
  induction w with
  | nil => simp [dotted?, hd]
  | cons a w ih =>
    obtain ⟨ha, hw⟩ := List.forall_mem_cons.mp hw
    rw [List.cons_append, dotted?, ha, ih hw]
    rfl

/-- A word without a point behind it is no first part. -/
theorem dotted?_append (hw : IsWordText w) (hd : isWord d = false) (hpoint : d ≠ '.')
    (rest : List Char) : dotted? false (w ++ d :: rest) = dotted? false rest := by
  have hnone : behind? ["."] (d :: rest) = none := behind?_eq_none <| by
    simp [List.isPrefixOf, Ne.symm hpoint]
  have hwhole := word?_append hw hd rest
  obtain ⟨a, as, rfl⟩ := List.exists_cons_of_ne_nil hw.nonempty
  obtain ⟨ha, has⟩ := List.forall_mem_cons.mp hw.all
  rw [List.cons_append] at hwhole ⊢
  rw [dotted?, ha, dotted?_inside has hd]
  simp [hwhole, hnone]

/-- Words, each with a blank behind it. -/
def phrase (words : List String) : List Char := words.flatMap fun word => word.toList ++ [' ']

theorem phrase_cons (word : String) (words : List String) :
    phrase (word :: words) = word.toList ++ ' ' :: phrase words := by
  simp [phrase]

theorem dotted?_phrase {words : List String} (h : ∀ word ∈ words, IsWordText word.toList)
    (rest : List Char) : dotted? false (phrase words ++ rest) = dotted? false rest := by
  induction words with
  | nil => rfl
  | cons word words ih =>
    obtain ⟨hword, hwords⟩ := List.forall_mem_cons.mp h
    rw [phrase_cons, List.append_assoc, List.cons_append, dotted?_append hword rfl (by decide),
      ih hwords]

theorem eq_of_behind?_point {s rest : List Char} (h : behind? ["."] s = some rest) :
    s = '.' :: rest := by
  cases s with
  | nil => cases h
  | cons c s =>
    by_cases hc : c = '.'
    · subst hc
      cases h
      rfl
    · rw [behind?_eq_none (by simp [List.isPrefixOf, Ne.symm hc])] at h
      cases h

/-- The point at the end of a sentence has no word behind it. -/
theorem dotted?_sentence {s : List Char} (h : '.' ∉ s) (inWord : Bool) :
    dotted? inWord (s ++ ['.']) = none := by
  induction s generalizing inWord with
  | nil => cases inWord <;> rfl
  | cons c s ih =>
    rw [List.cons_append, dotted?, ih (fun hmem => h (List.mem_cons_of_mem c hmem)), Option.or_none]
    cases inWord with
    | true => rfl
    | false =>
      rw [if_neg Bool.false_ne_true, Option.eq_none_iff_forall_ne_some]
      intro found hfound
      simp only [Option.bind_eq_bind, Option.bind_eq_some_iff] at hfound
      obtain ⟨⟨first, rest⟩, hfirst, last, hlast, ⟨second, more⟩, hsecond, -⟩ := hfound
      obtain ⟨htext, -, -⟩ := word?_eq_some hfirst
      obtain rfl := eq_of_behind?_point hlast
      have hne : last ≠ [] := by
        rintro rfl
        cases hsecond
      have hs' := congrArg List.dropLast htext
      rw [← List.cons_append, List.dropLast_concat,
        List.dropLast_append_of_ne_nil (List.cons_ne_nil _ _),
        List.dropLast_cons_of_ne_nil hne] at hs'
      exact h (hs' ▸ by simp)

theorem dotted?_point (hw : IsWordText w) (hv : IsWordText v) (hd : isWord d = false)
    (rest : List Char) : dotted? false (w ++ '.' :: (v ++ d :: rest)) = some (w, v) := by
  have hpoint : behind? ["."] ('.' :: (v ++ d :: rest)) = some (v ++ d :: rest) := rfl
  have hwhole := word?_append hw (d := '.') rfl (v ++ d :: rest)
  obtain ⟨a, as, rfl⟩ := List.exists_cons_of_ne_nil hw.nonempty
  rw [List.cons_append] at hwhole ⊢
  rw [dotted?]
  simp [hwhole, hpoint, word?_append hv hd]

end ChangePath

open ChangePath

section Sentence

variable {w v : List Char} {s : String} (henum : membership? "enum" s.toList = none)
  (hinput : inputField? s.toList = none)

include henum hinput

theorem changePath_of_union (hunion : membership? "union" s.toList = some (w, v)) :
    changePath s = String.ofList v := by
  simp only [changePath, henum, hinput, hunion, Option.or_none]

variable (hunion : membership? "union" s.toList = none)

include hunion

theorem changePath_of_dotted (hdotted : dotted? false s.toList = some (w, v)) :
    changePath s = path w v := by
  simp only [changePath, henum, hinput, hunion, Option.or_none, hdotted]

theorem changePath_of_not_dotted (hdotted : dotted? false s.toList = none) :
    changePath s = String.ofList ((leading? s.toList).getD []) := by
  simp only [changePath, henum, hinput, hunion, Option.or_none, hdotted]

end Sentence

/-- What a sentence about members of types has behind the member. -/
def memberHeads (kind : String) : List String :=
  [" was removed from " ++ kind ++ " type ", " was added to " ++ kind ++ " type "]

/-- What a sentence about a new input field has in front of the field. -/
def inputHeads : List String :=
  ["A required field ", "An required field ", "A optional field ", "An optional field "]

theorem membership?_word {w : List Char} (hw : IsWordText w) {c : Char} (hc : isWord c = false)
    {kind : String} {rest : List Char} (h : behind? (memberHeads kind) (c :: rest) = none) :
    membership? kind (w ++ c :: rest) = none := by
  rw [memberHeads] at h
  rw [membership?, word?_append hw hc]
  simp only [bind, Option.bind, h]

theorem inputField?_of_behind? {s : List Char} (h : behind? inputHeads s = none) :
    inputField? s = none := by
  rw [inputHeads] at h
  rw [inputField?, h]
  rfl

/-- No sentence about members goes on with a word other than the one that it has. -/
theorem behind?_memberHeads {w : List Char} (hw : IsWordText w) {c : Char} (hc : isWord c = false)
    (h : w = "was".toList → c ≠ ' ') (kind : String) (rest : List Char) :
    behind? (memberHeads kind) (' ' :: (w ++ c :: rest)) = none := by
  refine behind?_eq_none fun head hhead => ?_
  obtain ⟨p, hp⟩ : ∃ p, head.toList = ' ' :: ("was".toList ++ ' ' :: p) := by
    rcases List.mem_pair.mp hhead with rfl | rfl
    · exact ⟨("removed from " ++ kind ++ " type ").toList, by simp⟩
    · exact ⟨("added to " ++ kind ++ " type ").toList, by simp⟩
  rw [Bool.eq_false_iff, Ne, List.isPrefixOf_iff_prefix, hp, List.cons_prefix_cons,
    word_prefix_word (List.all_eq_true.mp rfl) hw.all rfl hc]
  rintro ⟨-, hwas, hblank, -⟩
  exact h hwas.symm hblank.symm

/-- What is written with a point is no member of a type, whatever words stand in front of it. -/
theorem membership?_phrase {words : List String} (hwords : ∀ word ∈ words, IsWordText word.toList)
    (hwas : "was" ∉ words) {w : List Char} (hw : IsWordText w) (kind : String)
    (rest : List Char) : membership? kind (phrase words ++ (w ++ '.' :: rest)) = none := by
  match words with
  | [] => exact membership?_word hw rfl (behind?_eq_none (by simp [memberHeads, List.isPrefixOf]))
  | [word] =>
    have hword := hwords word List.mem_cons_self
    rw [phrase_cons, List.append_assoc, List.cons_append]
    exact membership?_word hword rfl (behind?_memberHeads hw rfl (by simp) kind rest)
  | word :: second :: more =>
    have hword := hwords word List.mem_cons_self
    have hsecond := hwords second (by simp)
    have hne : second.toList ≠ "was".toList := by
      rw [Ne, String.toList_inj]
      rintro rfl
      exact hwas (by simp)
    simp only [phrase_cons, List.append_assoc, List.cons_append]
    exact membership?_word hword rfl (behind?_memberHeads hsecond rfl (absurd · hne) kind _)

/-- An input field that is named with its type in front is not named in front of its type. -/
theorem inputField?_dotted {w : List Char} (hw : IsWordText w) {s rest : List Char}
    (hs : behind? inputHeads s = some (w ++ '.' :: rest)) : inputField? s = none := by
  have hnone : behind? [" on input type "] ('.' :: rest) = none := rfl
  rw [inputHeads] at hs
  rw [inputField?, hs]
  simp only [bind, Option.bind, word?_append hw (d := '.') rfl, hnone]

/-- What is written with a point behind a few words is about the part with the point. -/
theorem changePath_dotted {words : List String} (hwords : ∀ word ∈ words, IsWordText word.toList)
    (hwas : "was" ∉ words) {t f : String} (ht : IsName t) (hf : IsName f) {c : Char}
    (hc : isWord c = false) {s : String} {tail : List Char}
    (hs : s.toList = phrase words ++ (t.toList ++ '.' :: (f.toList ++ c :: tail)))
    (hinput : inputField? s.toList = none) : changePath s = t ++ "." ++ f := by
  have hmember : ∀ kind, membership? kind s.toList = none := fun kind => by
    rw [hs, membership?_phrase hwords hwas ht.isWordText]
  have hdotted : dotted? false s.toList = some (t.toList, f.toList) := by
    rw [hs, dotted?_phrase hwords, dotted?_point ht.isWordText hf.isWordText hc]
  rw [changePath_of_dotted (hmember "enum") hinput (hmember "union") hdotted, ← String.toList_inj]
  simp [path]

/-- What starts with a name, has no point inside and is none of the other sentences is about the
name. -/
theorem changePath_leading {t : String} (ht : IsName t) {s : String} {tail : List Char}
    (hs : s.toList = t.toList ++ ' ' :: tail)
    (hmember : ∀ kind ∈ ["enum", "union"], behind? (memberHeads kind) (' ' :: tail) = none)
    (hheads : (("Standard scalar " :: inputHeads).all fun head => (word? head.toList).any fun x =>
      !x.2.isEmpty && !x.2.isPrefixOf (' ' :: tail)) = true)
    (hdotted : dotted? false tail = none) : changePath s = t := by
  have hw := ht.isWordText
  rw [List.all_cons, Bool.and_eq_true] at hheads
  have hinput : inputField? s.toList = none := by
    rw [hs]
    exact inputField?_of_behind? (behind?_word hw rfl hheads.2)
  have hscalar : behind? ["Standard scalar "] (t.toList ++ ' ' :: tail) = none :=
    behind?_word hw rfl (by rw [List.all_cons, hheads.1, List.all_nil, Bool.and_true])
  have hnone : ∀ kind ∈ ["enum", "union"], membership? kind s.toList = none := by
    intro kind hkind
    rw [hs]
    exact membership?_word hw rfl (hmember kind hkind)
  have hwhole : dotted? false s.toList = none := by
    rw [hs, dotted?_append hw rfl (by decide), hdotted]
  rw [changePath_of_not_dotted (hnone "enum" (by simp)) hinput (hnone "union" (by simp)) hwhole, hs,
    leading?, hscalar, word?_append hw rfl]
  exact String.ofList_toList

/-- A sentence about a member of a union is about the union. -/
theorem changePath_unionMember {u m : String} (hu : IsName u) (hm : IsName m) {head : String}
    (hhead : head ∈ memberHeads "union") {s : String}
    (hs : s.toList = m.toList ++ (head.toList ++ (u.toList ++ ['.']))) : changePath s = u := by
  have hword := hm.isWordText
  have htype : word? (u.toList ++ ['.']) = some (u.toList, ['.']) :=
    word?_append hu.isWordText rfl []
  obtain ⟨tail, htail, hbehind, hinput, henum⟩ : ∃ tail,
      head.toList ++ (u.toList ++ ['.']) = ' ' :: tail ∧
      behind? (memberHeads "union") (' ' :: tail) = some (u.toList ++ ['.']) ∧
      behind? inputHeads (m.toList ++ ' ' :: tail) = none ∧
      behind? (memberHeads "enum") (' ' :: tail) = none := by
    rcases List.mem_pair.mp hhead with rfl | rfl
    · exact ⟨_, rfl, rfl, behind?_word hword rfl rfl, rfl⟩
    · exact ⟨_, rfl, rfl, behind?_word hword rfl rfl, rfl⟩
  rw [htail] at hs
  have hunion : membership? "union" s.toList = some (m.toList, u.toList) := by
    rw [memberHeads] at hbehind
    rw [hs, membership?, word?_append hword rfl]
    simp only [bind, Option.bind, hbehind, htype]
    rfl
  rw [changePath_of_union (hs ▸ membership?_word hword rfl henum)
    (hs ▸ inputField?_of_behind? hinput) hunion]
  exact String.ofList_toList

/-- A part of a schema. -/
inductive Part where
  | type (name : String)
  | field (type name : String)
  | value (enum name : String)

namespace Part

def path : Part → String
  | type t => t
  | field t f => t ++ "." ++ f
  | value e v => e ++ "." ++ v

def Named : Part → Prop
  | type t => IsName t
  | field t f => IsName t ∧ IsName f
  | value e v => IsName e ∧ IsName v

end Part

def InputPlace.part? : InputPlace → Option Part
  | field t f | argument t f _ => some (.field t f)
  | directiveArgument .. => none

namespace Difference

/-- The part that the sentence about a difference is about. New types and new fields that are read
name themselves, so that their sentences are not looked into. -/
def described? : Difference → Option Part
  | typeRemoved t | kindChanged t _ _ | interfaceRemoved t _ => some (.type t)
  | memberRemoved u _ | memberAdded u _ => some (.type u)
  | interfaceAdded _ i => some (.type i)
  | fieldRemoved t f | fieldRetyped t f _ _ => some (.field t f)
  | valueRemoved e v | valueAdded e v => some (.value e v)
  | requiredInputAdded p | optionalInputAdded p | argumentRemoved p | argumentRetyped p _ _
  | defaultRemoved p | defaultChanged p _ _ => p.part?
  | typeAdded _ | fieldAdded .. | directiveRemoved _ | repeatableRemoved _ | locationRemoved .. =>
    none

/-- The other types that the sentence names. -/
def otherTypes : Difference → List String
  | memberRemoved _ m | memberAdded _ m => [m]
  | interfaceRemoved _ i => [i]
  | interfaceAdded t _ => [t]
  | _ => []

variable {t f : String} {place : InputPlace}

theorem path_typeRemoved (ht : IsName t) : changePath (typeRemoved t).description = t := by
  have hs : (t ++ " was removed.").toList = t.toList ++ ' ' :: "was removed.".toList := by simp
  refine changePath_leading ht hs ?_ rfl (by decide)
  intro kind hkind
  rcases List.mem_pair.mp hkind with rfl | rfl <;> rfl

theorem path_kindChanged (ht : IsName t) (old new : TypeKind) :
    changePath (kindChanged t old new).description = t := by
  have hphrase (kind : TypeKind) : '.' ∉ kind.phrase.toList := by cases kind <;> decide
  have hs : (kindChanged t old new).description.toList = t.toList ++ ' ' ::
      ("changed from ".toList ++ old.phrase.toList ++ " to ".toList ++ new.phrase.toList ++
        ['.']) := by
    change (t ++ " changed from " ++ old.phrase ++ " to " ++ new.phrase ++ ".").toList = _
    simp
  refine changePath_leading ht hs ?_ rfl (dotted?_sentence ?_ false)
  · intro kind hkind
    rcases List.mem_pair.mp hkind with rfl | rfl <;> rfl
  · simp [hphrase]

theorem path_interfaceRemoved (ht : IsName t) (hf : IsName f) :
    changePath (interfaceRemoved t f).description = t := by
  have hs : (interfaceRemoved t f).description.toList = t.toList ++ ' ' ::
      ("no longer implements interface ".toList ++ f.toList ++ ['.']) := by
    change (t ++ " no longer implements interface " ++ f ++ ".").toList = _
    simp
  refine changePath_leading ht hs ?_ rfl (dotted?_sentence ?_ false)
  · intro kind hkind
    rcases List.mem_pair.mp hkind with rfl | rfl <;> rfl
  · simp [hf.point_notMem]

theorem path_interfaceAdded (ht : IsName t) (hf : IsName f) :
    changePath (interfaceAdded t f).description = f := by
  have hs : (interfaceAdded t f).description.toList = f.toList ++ ' ' ::
      ("added to interfaces implemented by ".toList ++ t.toList ++ ['.']) := by
    change (f ++ " added to interfaces implemented by " ++ t ++ ".").toList = _
    simp
  refine changePath_leading hf hs ?_ rfl (dotted?_sentence ?_ false)
  · intro kind hkind
    rcases List.mem_pair.mp hkind with rfl | rfl <;> rfl
  · simp [ht.point_notMem]

theorem path_memberRemoved (ht : IsName t) (hf : IsName f) :
    changePath (memberRemoved t f).description = t := by
  have hhead : " was removed from union type " ∈ memberHeads "union" := by decide
  refine changePath_unionMember ht hf hhead ?_
  change (f ++ " was removed from union type " ++ t ++ ".").toList = _
  simp

theorem path_memberAdded (ht : IsName t) (hf : IsName f) :
    changePath (memberAdded t f).description = t := by
  have hhead : " was added to union type " ∈ memberHeads "union" := by decide
  refine changePath_unionMember ht hf hhead ?_
  change (f ++ " was added to union type " ++ t ++ ".").toList = _
  simp

section Members

variable (ht : IsName t) (hf : IsName f)

include ht hf

theorem path_fieldRemoved : changePath (fieldRemoved t f).description = t ++ "." ++ f := by
  have hs : (fieldRemoved t f).description.toList =
      phrase ["Field"] ++ (t.toList ++ '.' :: (f.toList ++ ' ' :: "was removed.".toList)) := by
    change ("Field " ++ t ++ "." ++ f ++ " was removed.").toList = _
    simp [phrase]
  refine changePath_dotted (by decide) (by decide) ht hf rfl hs ?_
  rw [hs]
  rfl

theorem path_fieldRetyped (old new : TypeRef) :
    changePath (fieldRetyped t f old new).description = t ++ "." ++ f := by
  have hs : (fieldRetyped t f old new).description.toList =
      phrase ["Field"] ++ (t.toList ++ '.' :: (f.toList ++
        ' ' :: ("changed type from " ++ old.text ++ " to " ++ new.text ++ ".").toList)) := by
    change ("Field " ++ t ++ "." ++ f ++ " changed type from " ++ old.text ++ " to " ++ new.text ++
      ".").toList = _
    simp [phrase]
  refine changePath_dotted (by decide) (by decide) ht hf rfl hs ?_
  rw [hs]
  rfl

theorem path_valueRemoved : changePath (valueRemoved t f).description = t ++ "." ++ f := by
  have hs : (valueRemoved t f).description.toList = phrase ["Enum", "value"] ++
      (t.toList ++ '.' :: (f.toList ++ ' ' :: "was removed.".toList)) := by
    change ("Enum value " ++ t ++ "." ++ f ++ " was removed.").toList = _
    simp [phrase]
  refine changePath_dotted (by decide) (by decide) ht hf rfl hs ?_
  rw [hs]
  rfl

theorem path_valueAdded : changePath (valueAdded t f).description = t ++ "." ++ f := by
  have hs : (valueAdded t f).description.toList = phrase ["Enum", "value"] ++
      (t.toList ++ '.' :: (f.toList ++ ' ' :: "was added.".toList)) := by
    change ("Enum value " ++ t ++ "." ++ f ++ " was added.").toList = _
    simp [phrase]
  refine changePath_dotted (by decide) (by decide) ht hf rfl hs ?_
  rw [hs]
  rfl

end Members

section Places

variable {p : Part} (hp : p.Named) (h : place.part? = some p)

include hp h

/-- The text of a place starts with the field, and no word goes on behind it. -/
theorem exists_text_place (tail : List Char) : ∃ t f c rest, p = .field t f ∧ isWord c = false ∧
    place.text.toList ++ ' ' :: tail = t.toList ++ '.' :: (f.toList ++ c :: rest) := by
  cases place with
  | field t f =>
    cases h
    exact ⟨t, f, ' ', tail, rfl, rfl, by simp [InputPlace.text]⟩
  | argument t f a =>
    cases h
    exact ⟨t, f, '(', a.toList ++ ":)".toList ++ ' ' :: tail, rfl, rfl, by simp [InputPlace.text]⟩
  | directiveArgument d a => cases h

/-- What is written with the place of an input behind a few words is about the field. -/
theorem changePath_place {words : List String} (hwords : ∀ word ∈ words, IsWordText word.toList)
    (hwas : "was" ∉ words) {s : String} {tail : List Char}
    (hs : s.toList = phrase words ++ (place.text.toList ++ ' ' :: tail))
    (hinput : ∀ t rest, IsWordText t → inputField? (phrase words ++ (t ++ '.' :: rest)) = none) :
    changePath s = p.path := by
  obtain ⟨t, f, c, rest, rfl, hc, htext⟩ := exists_text_place hp h tail
  rw [htext] at hs
  refine changePath_dotted hwords hwas hp.1 hp.2 hc hs ?_
  rw [hs]
  exact hinput _ _ hp.1.isWordText

theorem path_requiredInputAdded : changePath (requiredInputAdded place).description = p.path := by
  have hs (noun : String) (hnoun : inputNoun place = noun ++ " ") :
      (requiredInputAdded place).description.toList = phrase ["A", "required", noun] ++
        (place.text.toList ++ ' ' :: "was added.".toList) := by
    change ("A required " ++ inputNoun place ++ place.text ++ " was added.").toList = _
    rw [hnoun]
    simp [phrase]
  cases place with
  | field t f =>
    exact changePath_place hp h (by decide) (by decide) (hs "field" rfl)
      fun _ _ ht => inputField?_dotted ht rfl
  | argument t f a =>
    exact changePath_place hp h (by decide) (by decide) (hs "argument" rfl)
      fun _ _ _ => rfl
  | directiveArgument d a => cases h

theorem path_optionalInputAdded : changePath (optionalInputAdded place).description = p.path := by
  have hs (noun : String) (hnoun : inputNoun place = noun ++ " ") :
      (optionalInputAdded place).description.toList = phrase ["An", "optional", noun] ++
        (place.text.toList ++ ' ' :: "was added.".toList) := by
    change ("An optional " ++ inputNoun place ++ place.text ++ " was added.").toList = _
    rw [hnoun]
    simp [phrase]
  cases place with
  | field t f =>
    exact changePath_place hp h (by decide) (by decide) (hs "field" rfl)
      fun _ _ ht => inputField?_dotted ht rfl
  | argument t f a =>
    exact changePath_place hp h (by decide) (by decide) (hs "argument" rfl)
      fun _ _ _ => rfl
  | directiveArgument d a => cases h

theorem path_argumentRemoved : changePath (argumentRemoved place).description = p.path := by
  have hs : (argumentRemoved place).description.toList =
      phrase ["Argument"] ++ (place.text.toList ++ ' ' :: "was removed.".toList) := by
    change ("Argument " ++ place.text ++ " was removed.").toList = _
    simp [phrase]
  exact changePath_place hp h (by decide) (by decide) hs fun _ _ _ => rfl

theorem path_argumentRetyped (old new : TypeRef) :
    changePath (argumentRetyped place old new).description = p.path := by
  have hs : (argumentRetyped place old new).description.toList = phrase ["Argument"] ++
      (place.text.toList ++
        ' ' :: ("has changed type from " ++ old.text ++ " to " ++ new.text ++ ".").toList) := by
    change ("Argument " ++ place.text ++ " has changed type from " ++ old.text ++ " to " ++
      new.text ++ ".").toList = _
    simp [phrase]
  exact changePath_place hp h (by decide) (by decide) hs fun _ _ _ => rfl

theorem path_defaultRemoved : changePath (defaultRemoved place).description = p.path := by
  have hs : (defaultRemoved place).description.toList =
      phrase [] ++ (place.text.toList ++ ' ' :: "defaultValue was removed.".toList) := by
    change (place.text ++ " defaultValue was removed.").toList = _
    simp [phrase]
  exact changePath_place hp h (by decide) (by decide) hs fun _ _ ht =>
    inputField?_of_behind? (behind?_word ht rfl rfl)

theorem path_defaultChanged (old new : String) :
    changePath (defaultChanged place old new).description = p.path := by
  have hs : (defaultChanged place old new).description.toList = phrase [] ++ (place.text.toList ++
      ' ' :: ("has changed defaultValue from " ++ old ++ " to " ++ new ++ ".").toList) := by
    change (place.text ++ " has changed defaultValue from " ++ old ++ " to " ++ new ++ ".").toList =
      _
    simp [phrase]
  exact changePath_place hp h (by decide) (by decide) hs fun _ _ ht =>
    inputField?_of_behind? (behind?_word ht rfl rfl)

end Places

/-- The path that is found in a sentence is the path of the part that the sentence is about. -/
theorem changePath_of_described? {d : Difference} {p : Part} (h : d.described? = some p)
    (hp : p.Named) (hother : ∀ n ∈ d.otherTypes, IsName n) : changePath d.description = p.path := by
  cases d with
  | typeRemoved t =>
    cases h
    exact path_typeRemoved hp
  | kindChanged t old new =>
    cases h
    exact path_kindChanged hp old new
  | memberRemoved u m =>
    cases h
    exact path_memberRemoved hp (hother m List.mem_cons_self)
  | memberAdded u m =>
    cases h
    exact path_memberAdded hp (hother m List.mem_cons_self)
  | valueRemoved e v =>
    cases h
    exact path_valueRemoved hp.1 hp.2
  | valueAdded e v =>
    cases h
    exact path_valueAdded hp.1 hp.2
  | interfaceRemoved t i =>
    cases h
    exact path_interfaceRemoved hp (hother i List.mem_cons_self)
  | interfaceAdded t i =>
    cases h
    exact path_interfaceAdded (hother t List.mem_cons_self) hp
  | fieldRemoved t f =>
    cases h
    exact path_fieldRemoved hp.1 hp.2
  | fieldRetyped t f old new =>
    cases h
    exact path_fieldRetyped hp.1 hp.2 old new
  | requiredInputAdded place => exact path_requiredInputAdded hp h
  | optionalInputAdded place => exact path_optionalInputAdded hp h
  | argumentRemoved place => exact path_argumentRemoved hp h
  | argumentRetyped place old new => exact path_argumentRetyped hp h old new
  | defaultRemoved place => exact path_defaultRemoved hp h
  | defaultChanged place old new => exact path_defaultChanged hp h old new
  | typeAdded _ | fieldAdded _ _ | directiveRemoved _ | repeatableRemoved _
  | locationRemoved _ _ => cases h

end Difference

/-- The sentence about a standard scalar that is used no more. Such a scalar is not reported, but
its name is found like that of any other type. -/
def standardScalarRemoved (t : String) : String :=
  "Standard scalar " ++ t ++ " was removed because it is not referenced anymore."

theorem path_standardScalarRemoved {t : String} (ht : IsName t) :
    changePath (standardScalarRemoved t) = t := by
  have hw := ht.isWordText
  have hs : (standardScalarRemoved t).toList = "Standard".toList ++ ' ' :: ("scalar".toList ++
      ' ' :: (t.toList ++ ' ' :: "was removed because it is not referenced anymore.".toList)) := by
    refine String.toList_append.trans ((congrArg (· ++ _) String.toList_append).trans ?_)
    exact List.append_assoc _ _ _
  have hnone (kind : String) : membership? kind (standardScalarRemoved t).toList = none := by
    rw [hs]
    exact membership?_word (by decide) rfl (behind?_memberHeads (by decide) rfl (by decide) kind _)
  have hdotted : dotted? false (standardScalarRemoved t).toList = none := by
    rw [hs, dotted?_append (by decide) rfl (by decide), dotted?_append (by decide) rfl (by decide),
      dotted?_append hw rfl (by decide)]
    decide
  have hleading : leading? (standardScalarRemoved t).toList = some t.toList := by
    have hbehind : behind? ["Standard scalar "] ("Standard".toList ++ ' ' :: ("scalar".toList ++
        ' ' :: (t.toList ++ ' ' :: "was removed because it is not referenced anymore.".toList))) =
        some (t.toList ++ ' ' :: "was removed because it is not referenced anymore.".toList) := rfl
    rw [hs, leading?, hbehind, Option.bind_some, word?_append hw rfl]
    rfl
  have hinput : inputField? (standardScalarRemoved t).toList = none := by
    rw [hs]
    rfl
  rw [changePath_of_not_dotted (hnone "enum") hinput (hnone "union") hdotted, hleading]
  exact String.ofList_toList

/-- From the sentence about any difference of types, the path of the part that it is about is
found. -/
theorem changePath_describes :
    (∀ (d : Difference) (p : Part), d.described? = some p → p.Named →
      (∀ n ∈ d.otherTypes, IsName n) → changePath d.description = p.path) ∧
      ∀ t, IsName t → changePath (standardScalarRemoved t) = t :=
  ⟨fun _ _ h hp hother => Difference.changePath_of_described? h hp hother,
    fun _ ht => path_standardScalarRemoved ht⟩

/-- Names that are words of the sentences, and default values that look like other sentences. -/
theorem changePath_describes_quotedSentence :
    changePath "A.was(An:) has changed defaultValue from \"B.c was added to union type D.\" to 1.5."
      = "A.was" ∧
      changePath "An was removed from union type Standard." = "Standard" ∧
      changePath "Standard scalar Float was removed because it is not referenced anymore." =
        "Float" := by
  refine ⟨?_, ?_, ?_⟩
  · exact changePath_describes.1
      (.defaultChanged (.argument "A" "was" "An") "\"B.c was added to union type D.\"" "1.5")
      (.field "A" "was") rfl ⟨by decide, by decide⟩ nofun
  · exact changePath_describes.1 (.memberRemoved "Standard" "An") (.type "Standard") rfl
      (show IsName "Standard" by decide) (List.forall_mem_singleton.mpr (by decide))
  · exact changePath_describes.2 "Float" (by decide)

end Ripple.Graphql
