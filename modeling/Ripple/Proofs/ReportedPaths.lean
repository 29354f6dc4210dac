import Ripple.Proofs.SchemaComparison

/-! # The paths of reported changes

The path of every change of a type is the name of a type of one of the two schemas, or such a name
with the name of a field, of an input field or of an enum value of the type. It is not so for
changes of directives: their sentences have no path in them, and what is found is the first word,
such as `Directive` or the place that the directive may no longer stand at, or nothing.
-/
namespace Ripple.Graphql

open ChangePath

def InputPlace.directive? : InputPlace → Option String
  | directiveArgument d _ => some d
  | field .. | argument .. => none

namespace Difference

def directive? : Difference → Option String
  | directiveRemoved d | repeatableRemoved d | locationRemoved d _ => some d
  | requiredInputAdded p | optionalInputAdded p | argumentRemoved p | argumentRetyped p _ _
  | defaultRemoved p | defaultChanged p _ _ => p.directive?
  | _ => none

def opening : Difference → String
  | directiveRemoved _ => "Directive"
  | repeatableRemoved _ => "Repeatable"
  | locationRemoved _ l => l.text
  | requiredInputAdded _ => "A"
  | optionalInputAdded _ => "An"
  | argumentRemoved _ | argumentRetyped .. => "Argument"
  | _ => ""

/-- A default value with a point in it, such as the number 1.5. -/
def HasPointedDefault : Difference → Prop
  | defaultChanged _ old new => '.' ∈ old.toList ∨ '.' ∈ new.toList
  | _ => False

/-- The part that a difference is about, with what is new. -/
def about? (d : Difference) : Option Part := d.described?.or d.gained?

end Difference

theorem TypeRef.point_notMem {t : TypeRef} (h : IsName t.base) : '.' ∉ t.text.toList := by
  induction t with
  | named name => exact h.point_notMem
  | list item ih => simpa [text] using ih h
  | nonNull inner ih => simpa [text] using ih h

/-- A sentence with one point, at its end, and a known word at its start has that word as its
path if it is none of the sentences about parts. -/
theorem changePath_opening {word s : String} (hword : IsName word) {tail : List Char}
    (hs : s.toList = word.toList ++ ' ' :: (tail ++ ['.'])) (hpoint : '.' ∉ tail)
    (hmember : ∀ kind ∈ ["enum", "union"],
      behind? (memberHeads kind) (' ' :: (tail ++ ['.'])) = none)
    (hheads : (("Standard scalar " :: inputHeads).all fun head => (word? head.toList).any fun x =>
      !x.2.isEmpty && !x.2.isPrefixOf (' ' :: (tail ++ ['.']))) = true) : changePath s = word :=
  changePath_leading hword hs hmember hheads (dotted?_sentence hpoint false)

/-- A sentence that starts with no word has no path if its one point stands at its end. -/
theorem changePath_mark {s : String} {tail : List Char} (hs : s.toList = '@' :: tail ++ ['.'])
    (hpoint : '.' ∉ tail) : changePath s = "" := by
  have hdotted : dotted? false s.toList = none := by
    rw [hs]
    exact dotted?_sentence (by simpa using hpoint) false
  have henum : membership? "enum" s.toList = none := by
    rw [hs]
    rfl
  have hinput : inputField? s.toList = none := by
    rw [hs]
    rfl
  have hunion : membership? "union" s.toList = none := by
    rw [hs]
    rfl
  have hleading : leading? s.toList = none := by
    rw [hs]
    rfl
  rw [changePath_of_not_dotted henum hinput hunion hdotted, hleading]
  rfl

namespace Difference

theorem path_directiveRemoved {d : String} (hd : IsName d) :
    changePath (directiveRemoved d).description = "Directive" := by
  have hs : (directiveRemoved d).description.toList = "Directive".toList ++ ' ' ::
      (('@' :: d.toList ++ " was removed".toList) ++ ['.']) := by
    change ("Directive @" ++ d ++ " was removed.").toList = _
    simp
  refine changePath_opening (by decide) hs (by simp [hd.point_notMem]) ?_ rfl
  intro kind hkind
  rcases List.mem_pair.mp hkind with rfl | rfl <;> rfl

theorem path_repeatableRemoved {d : String} (hd : IsName d) :
    changePath (repeatableRemoved d).description = "Repeatable" := by
  have hs : (repeatableRemoved d).description.toList = "Repeatable".toList ++ ' ' ::
      (("flag was removed from @".toList ++ d.toList) ++ ['.']) := by
    change ("Repeatable flag was removed from @" ++ d ++ ".").toList = _
    simp
  refine changePath_opening (by decide) hs (by simp [hd.point_notMem]) ?_ rfl
  intro kind hkind
  rcases List.mem_pair.mp hkind with rfl | rfl <;> rfl

theorem path_locationRemoved {d : String} (hd : IsName d) (l : Location) :
    changePath (locationRemoved d l).description = l.text := by
  have hl : IsName l.text := by cases l <;> decide
  have hs : (locationRemoved d l).description.toList = l.text.toList ++ ' ' ::
      (("was removed from @".toList ++ d.toList) ++ ['.']) := by
    change (l.text ++ " was removed from @" ++ d ++ ".").toList = _
    simp
  refine changePath_opening hl hs (by simp [hd.point_notMem]) ?_ rfl
  intro kind hkind
  rcases List.mem_pair.mp hkind with rfl | rfl <;> rfl

section Arguments

variable {d a : String} (hd : IsName d) (ha : IsName a)

include hd ha

theorem path_requiredDirectiveArgument :
    changePath (requiredInputAdded (.directiveArgument d a)).description = "A" := by
  have hs : (requiredInputAdded (.directiveArgument d a)).description.toList = "A".toList ++
      ' ' :: (("required argument @".toList ++ d.toList ++ '(' :: a.toList ++
        ":) was added".toList) ++ ['.']) := by
    change ("A required " ++ "argument " ++ ("@" ++ d ++ "(" ++ a ++ ":)") ++
      " was added.").toList = _
    simp
  refine changePath_opening (by decide) hs (by simp [hd.point_notMem, ha.point_notMem]) ?_ rfl
  intro kind hkind
  rcases List.mem_pair.mp hkind with rfl | rfl <;> rfl

theorem path_argumentRemoved_directive :
    changePath (argumentRemoved (.directiveArgument d a)).description = "Argument" := by
  have hs : (argumentRemoved (.directiveArgument d a)).description.toList = "Argument".toList ++
      ' ' :: (('@' :: d.toList ++ '(' :: a.toList ++ ":) was removed".toList) ++ ['.']) := by
    change ("Argument " ++ ("@" ++ d ++ "(" ++ a ++ ":)") ++ " was removed.").toList = _
    simp
  refine changePath_opening (by decide) hs (by simp [hd.point_notMem, ha.point_notMem]) ?_ rfl
  intro kind hkind
  rcases List.mem_pair.mp hkind with rfl | rfl <;> rfl

theorem path_argumentRetyped_directive {old new : TypeRef} (hold : IsName old.base)
    (hnew : IsName new.base) :
    changePath (argumentRetyped (.directiveArgument d a) old new).description = "Argument" := by
  have hs : (argumentRetyped (.directiveArgument d a) old new).description.toList =
      "Argument".toList ++ ' ' :: (('@' :: d.toList ++ '(' :: a.toList ++
        ":) has changed type from ".toList ++ old.text.toList ++ " to ".toList ++
          new.text.toList) ++ ['.']) := by
    change ("Argument " ++ ("@" ++ d ++ "(" ++ a ++ ":)") ++ " has changed type from " ++
      old.text ++ " to " ++ new.text ++ ".").toList = _
    simp
  refine changePath_opening (by decide) hs ?_ ?_ rfl
  · simp [hd.point_notMem, ha.point_notMem, TypeRef.point_notMem hold, TypeRef.point_notMem hnew]
  · intro kind hkind
    rcases List.mem_pair.mp hkind with rfl | rfl <;> rfl

theorem path_defaultRemoved_directive :
    changePath (defaultRemoved (.directiveArgument d a)).description = "" := by
  have hs : (defaultRemoved (.directiveArgument d a)).description.toList =
      '@' :: (d.toList ++ '(' :: a.toList ++ ":) defaultValue was removed".toList) ++ ['.'] := by
    change ("@" ++ d ++ "(" ++ a ++ ":)" ++ " defaultValue was removed.").toList = _
    simp
  exact changePath_mark hs (by simp [hd.point_notMem, ha.point_notMem])

theorem path_defaultChanged_directive {old new : String} (hold : '.' ∉ old.toList)
    (hnew : '.' ∉ new.toList) :
    changePath (defaultChanged (.directiveArgument d a) old new).description = "" := by
  have hs : (defaultChanged (.directiveArgument d a) old new).description.toList =
      '@' :: (d.toList ++ '(' :: a.toList ++ ":) has changed defaultValue from ".toList ++
        old.toList ++ " to ".toList ++ new.toList) ++ ['.'] := by
    change ("@" ++ d ++ "(" ++ a ++ ":)" ++ " has changed defaultValue from " ++ old ++ " to " ++
      new ++ ".").toList = _
    simp
  exact changePath_mark hs (by simp [hd.point_notMem, ha.point_notMem, hold, hnew])

end Arguments

end Difference

/-- A schema has the types that it defines, and the standard types that its types are said to
implement. -/
def Schema.HasType (s : Schema) (type : String) : Prop :=
  type ∈ s.types.map (·.name) ∨ type ∈ Builtin.typeNames ∧ ∃ t ∈ s.types, type ∈ t.interfaces

/-- The schema has the part: a type, or a field, an input field or a value of one of its types. -/
def Schema.Has (s : Schema) : Part → Prop
  | .type t => s.HasType t
  | .field t f => ∃ d ∈ s.types, d.name = t ∧ f ∈ d.fieldNames
  | .value e v => ∃ d ∈ s.types, d.name = e ∧ v ∈ d.valueNames

theorem Schema.hasType_of_mem {s : Schema} {t : TypeDef} (ht : t ∈ s.types) : s.HasType t.name :=
  .inl (List.mem_map_of_mem ht)

theorem Schema.Has.named {s : Schema} (hs : s.Named) {p : Part} (h : s.Has p) : p.Named := by
  cases p with
  | type t =>
    rcases h with h | ⟨h, -⟩
    · obtain ⟨d, hd, rfl⟩ := List.mem_map.mp h
      exact (hs.named d hd).name
    · exact (show ∀ t ∈ Builtin.typeNames, IsName t by decide) t h
  | field t f =>
    obtain ⟨d, hd, rfl, hf⟩ := h
    exact ⟨(hs.named d hd).name, (hs.named d hd).fieldNames f hf⟩
  | value e v =>
    obtain ⟨d, hd, rfl, hv⟩ := h
    exact ⟨(hs.named d hd).name, (hs.named d hd).valueNames v hv⟩

structure DirectiveDef.Known (d : DirectiveDef) : Prop where
  name : IsName d.name
  arguments : ∀ a ∈ d.arguments, IsName a.name ∧ IsName a.type.base

/-- What a schema refers to is known to it. -/
structure Schema.Known (s : Schema) : Prop where
  named : s.Named
  interfaces : ∀ t ∈ s.types, ∀ i ∈ t.interfaces, s.HasType i
  members : ∀ t ∈ s.types, ∀ m ∈ t.members, IsName m
  directives : ∀ d ∈ s.directives, d.Known

section Document

variable {doc : Document} (hfaults : doc.faults = [])

include hfaults

/-- A type and its extensions refer to known types only. -/
theorem Document.knows_of_mem_parts {t : TypeDef} (ht : t ∈ doc.types) {part : TypeDef}
    (hpart : part ∈ t :: doc.extensions.filter (·.name = t.name)) :
    (∀ i ∈ part.interfaces, doc.Knows i) ∧ ∀ m ∈ part.members, doc.Knows m := by
  have hinside : Rules.insideFaults doc part = [] := by
    rcases List.mem_cons.mp hpart with rfl | hpart
    · exact Rules.insideFaults_eq_nil hfaults (mem_types.mp ht) rfl
    · exact Rules.insideFaults_eq_nil hfaults
        (mem_extensions.mp (List.mem_of_mem_filter hpart)) rfl
  simp only [Rules.insideFaults, List.append_eq_nil_iff, List.flatMap_eq_nil_iff] at hinside
  obtain ⟨⟨⟨⟨⟨hinterfaces, -⟩, -⟩, hmembers⟩, -⟩, -⟩ := hinside
  exact ⟨fun i hi => Rules.knows_of_unknownType (hinterfaces i hi),
    fun m hm => Rules.knows_of_unknownType (hmembers m hm)⟩

theorem Document.knows_of_mem_directives {d : DirectiveDef} (hd : d ∈ doc.directives) :
    ∀ a ∈ d.arguments, doc.Knows a.type.base := by
  obtain ⟨earlier, hnone⟩ := Rules.exists_definitionFaults hfaults (mem_directives.mp hd)
  simp only [Rules.definitionFaults, Rules.inputFaults, List.append_eq_nil_iff,
    List.flatMap_eq_nil_iff] at hnone
  exact fun a ha => Rules.knows_of_unknownType (hnone.2 a ha).1.1.2

variable (hdoc : ∀ d ∈ doc, d.Named)

include hdoc

theorem Schema.known_ofDocument : (ofDocument doc).Known := by
  refine ⟨named_ofDocument hdoc hfaults, ?_, ?_, ?_⟩
  · intro t ht i hi
    obtain ⟨d, hd, rfl⟩ := List.mem_map.mp ht
    obtain ⟨part, hpart, hi'⟩ := List.mem_flatMap.mp hi
    have hknows := (Document.knows_of_mem_parts hfaults (List.mem_of_mem_filter hd) hpart).1 i hi'
    by_cases hstandard : i ∈ Builtin.typeNames
    · exact .inr ⟨hstandard, _, ht, hi⟩
    · obtain ⟨e, he, rfl⟩ := List.mem_map.mp (hknows.resolve_right hstandard)
      have hown : e ∈ doc.types.filter fun d => !Builtin.typeNames.contains d.name := by
        simpa [he] using hstandard
      exact .inl (List.mem_map.mpr ⟨extended doc e, List.mem_map_of_mem hown, rfl⟩)
  · intro t ht m hm
    obtain ⟨d, hd, rfl⟩ := List.mem_map.mp ht
    obtain ⟨part, hpart, hm'⟩ := List.mem_flatMap.mp hm
    have hknows := Document.knows_of_mem_parts hfaults (List.mem_of_mem_filter hd) hpart
    exact (hknows.2 m hm').isName hdoc
  · intro d hd
    rcases List.mem_append.mp hd with hd | hd
    · have hnamed := hdoc _ (Document.mem_directives.mp hd)
      exact ⟨hnamed.name, fun a ha => ⟨hnamed.arguments a ha,
        (Document.knows_of_mem_directives hfaults hd a ha).isName hdoc⟩⟩
    · have hbuiltin : ∀ d ∈ Builtin.directives, IsName d.name ∧
          ∀ a ∈ d.arguments, IsName a.name ∧ IsName a.type.base := by decide
      have hd' := hbuiltin d (List.mem_of_mem_filter hd)
      exact ⟨hd'.1, hd'.2⟩

end Document

theorem Schema.known_of_parse {text : List Char} {s : Schema} (h : Schema.parse text = .ok s) :
    s.Known := by
  obtain ⟨doc, hdoc, hfaults, -, rfl⟩ := parse_eq_ok_iff.mp h
  exact known_ofDocument hfaults (Document.named_of_parse hdoc)

namespace Difference

/-- The difference is about the given place of an input. -/
structure IsAt (place : InputPlace) (d : Difference) : Prop where
  described? : d.described? = place.part?
  directive? : d.directive? = place.directive?
  otherTypes : d.otherTypes = []

/-- The difference is about a part that one of the schemas has. -/
def Founded (old new : Schema) (d : Difference) : Prop :=
  ∃ p, d.about? = some p ∧ (old.Has p ∨ new.Has p) ∧ d.directive? = none ∧
    ∀ n ∈ d.otherTypes, IsName n

/-- The difference is about the directive, and its path is the first word of its sentence unless
it is about a default value with a point. -/
structure OfDirective (directive : String) (d : Difference) : Prop where
  directive? : d.directive? = some directive
  path : d.path = d.opening ∨ d.HasPointedDefault

variable {d : Difference}

theorem about?_of_described? {p : Part} (h : d.described? = some p) : d.about? = some p := by
  rw [about?, h, Option.some_or]

theorem path_eq_changePath (h : d.gained? = none ∨ d.described? ≠ none) :
    d.path = changePath d.description := by
  cases d with
  | typeAdded t => simp [gained?, Difference.described?] at h
  | fieldAdded t f => simp [gained?, Difference.described?] at h
  | _ => rfl

theorem OfDirective.of_changePath {directive : String} (hd : d.directive? = some directive)
    (h : changePath d.description = d.opening) : d.OfDirective directive := by
  have hpath : d.path = changePath d.description := by
    cases d with
    | typeAdded | fieldAdded => cases hd
    | _ => rfl
  exact ⟨hd, .inl (hpath.trans h)⟩

/-- The path of a difference that is about a part is the path of the part. -/
theorem path_of_about? {p : Part} (h : d.about? = some p) (hp : p.Named)
    (hother : ∀ n ∈ d.otherTypes, IsName n) : d.path = p.path := by
  rw [about?] at h
  cases hdescribed : d.described? with
  | none =>
    rw [hdescribed, Option.none_or] at h
    exact path_of_gained? hp h
  | some q =>
    rw [hdescribed, Option.some_or] at h
    rw [path_eq_changePath (.inr (by simp [hdescribed]))]
    exact changePath_of_described? (hdescribed.trans h) hp hother

end Difference

namespace Comparison

open Difference

variable {d : Difference} {place : InputPlace}

theorem isAt_inputAdded (place : InputPlace) (a : InputDef) : (inputAdded place a).IsAt place := by
  rw [inputAdded]
  split <;> exact ⟨rfl, rfl, rfl⟩

theorem isAt_of_mem_defaultDifference {a b : InputDef} (h : d ∈ defaultDifference place a b) :
    d.IsAt place := by
  rw [defaultDifference] at h
  split at h
  · rw [List.mem_singleton.mp h]
    exact ⟨rfl, rfl, rfl⟩
  · split at h
    · cases h
    · rw [List.mem_singleton.mp h]
      exact ⟨rfl, rfl, rfl⟩
  · cases h

theorem isAt_of_mem_argumentDifference {a b : InputDef} (h : d ∈ argumentDifference place a b) :
    d.IsAt place := by
  rw [argumentDifference] at h
  split at h
  · exact isAt_of_mem_defaultDifference h
  · rw [List.mem_singleton.mp h]
    exact ⟨rfl, rfl, rfl⟩

theorem mem_of_mem_common {α : Type} {key : α → String} {old new : List α} {a b : α}
    (h : (a, b) ∈ common key old new) : a ∈ old ∧ b ∈ new ∧ key a = key b := by
  obtain ⟨a', ha, hfind⟩ := List.mem_filterMap.mp h
  obtain ⟨b', hb, heq⟩ := Option.map_eq_some_iff.mp hfind
  cases heq
  have hkey : key b = key a := by simpa using List.find?_some hb
  exact ⟨ha, List.mem_reverse.mp (List.mem_of_find?_eq_some hb), hkey.symm⟩

theorem exists_isAt_of_mem_argumentDifferences {type field : String} {old new : List InputDef}
    (h : d ∈ argumentDifferences type field old new) :
    ∃ a, d.IsAt (.argument type field a) := by
  rw [argumentDifferences, List.mem_append, List.mem_append] at h
  rcases h with (h | h) | h
  · obtain ⟨a, -, rfl⟩ := List.mem_map.mp h
    exact ⟨a.name, rfl, rfl, rfl⟩
  · obtain ⟨⟨a, b⟩, -, h⟩ := List.mem_flatMap.mp h
    exact ⟨a.name, isAt_of_mem_argumentDifference h⟩
  · obtain ⟨a, -, rfl⟩ := List.mem_map.mp h
    exact ⟨a.name, isAt_inputAdded _ a⟩

variable {old new : Schema}

theorem founded_of_isAt {t f : String} (h : d.IsAt place) (hplace : place.part? = some (.field t f))
    (hhas : old.Has (.field t f) ∨ new.Has (.field t f)) : d.Founded old new := by
  refine ⟨.field t f, about?_of_described? (h.described?.trans hplace), hhas, ?_, ?_⟩
  · rw [h.directive?]
    cases place with
    | directiveArgument => cases hplace
    | _ => rfl
  · rw [h.otherTypes]
    exact List.forall_mem_nil _

section Types

variable (hold : old.Known) (hnew : new.Known) {a b : TypeDef} (ha : a ∈ old.types)
  (hb : b ∈ new.types) (hname : a.name = b.name)

include ha

theorem founded_of_mem_fieldDifferences (hkind : a.kind = .object ∨ a.kind = .interface)
    {others : List FieldDef} (h : d ∈ fieldDifferences a.name a.fields others) :
    d.Founded old new := by
  have hhas : ∀ f ∈ a.fields, old.Has (.field a.name f.name) := by
    intro f hf
    refine ⟨a, ha, rfl, List.mem_append_left _ ?_⟩
    rw [TypeDef.outputNames, if_pos hkind]
    exact List.mem_map_of_mem hf
  rcases List.mem_append.mp h with h | h
  · obtain ⟨f, hf, rfl⟩ := List.mem_map.mp h
    exact ⟨.field a.name f.name, rfl, .inl (hhas f (mem_missing.mp hf).1), rfl,
      List.forall_mem_nil _⟩
  · obtain ⟨⟨f, g⟩, hmem, h⟩ := List.mem_flatMap.mp h
    have hf := hhas f (mem_of_mem_common hmem).1
    rcases List.mem_append.mp h with h | h
    · obtain ⟨x, hx⟩ := exists_isAt_of_mem_argumentDifferences h
      exact founded_of_isAt hx rfl (.inl hf)
    · split at h
      · cases h
      · rw [List.mem_singleton.mp h]
        exact ⟨.field a.name f.name, rfl, .inl hf, rfl, List.forall_mem_nil _⟩

include hold hnew hb

theorem founded_of_mem_interfaceDifferences
    (h : d ∈ interfaceDifferences a.name a.interfaces b.interfaces) : d.Founded old new := by
  have hnamed := (hold.named.named a ha).name
  rcases List.mem_append.mp h with h | h
  · obtain ⟨i, hi, rfl⟩ := List.mem_map.mp h
    have hhas := hnew.interfaces b hb i (mem_missing.mp hi).1
    exact ⟨.type i, rfl, .inr hhas, rfl, List.forall_mem_singleton.mpr hnamed⟩
  · obtain ⟨i, hi, rfl⟩ := List.mem_map.mp h
    have hhas : old.Has (.type i) := hold.interfaces a ha i (mem_missing.mp hi).1
    exact ⟨.type a.name, rfl, .inl (Schema.hasType_of_mem ha), rfl,
      List.forall_mem_singleton.mpr (hhas.named hold.named)⟩

theorem founded_of_mem_memberDifferences
    (h : d ∈ (missing id b.members a.members).map (.memberAdded a.name) ++
      (missing id a.members b.members).map (.memberRemoved a.name)) : d.Founded old new := by
  have hhas : old.Has (.type a.name) := Schema.hasType_of_mem ha
  rcases List.mem_append.mp h with h | h
  · obtain ⟨m, hm, rfl⟩ := List.mem_map.mp h
    exact ⟨.type a.name, rfl, .inl hhas, rfl,
      List.forall_mem_singleton.mpr (hnew.members b hb m (mem_missing.mp hm).1)⟩
  · obtain ⟨m, hm, rfl⟩ := List.mem_map.mp h
    exact ⟨.type a.name, rfl, .inl hhas, rfl,
      List.forall_mem_singleton.mpr (hold.members a ha m (mem_missing.mp hm).1)⟩

omit hold hnew

include hname

theorem founded_of_mem_valueDifferences (hkind : a.kind = .enum) (hkinds : a.kind = b.kind)
    (h : d ∈ (missing (·.name) b.values a.values).map (fun v => .valueAdded a.name v.name) ++
      (missing (·.name) a.values b.values).map fun v => .valueRemoved a.name v.name) :
    d.Founded old new := by
  rcases List.mem_append.mp h with h | h
  · obtain ⟨v, hv, rfl⟩ := List.mem_map.mp h
    refine ⟨.value a.name v.name, rfl, .inr ⟨b, hb, hname.symm, ?_⟩, rfl, List.forall_mem_nil _⟩
    rw [TypeDef.valueNames, if_pos (hkinds ▸ hkind)]
    exact List.mem_map_of_mem (mem_missing.mp hv).1
  · obtain ⟨v, hv, rfl⟩ := List.mem_map.mp h
    refine ⟨.value a.name v.name, rfl, .inl ⟨a, ha, rfl, ?_⟩, rfl, List.forall_mem_nil _⟩
    rw [TypeDef.valueNames, if_pos hkind]
    exact List.mem_map_of_mem (mem_missing.mp hv).1

theorem founded_of_mem_inputDifferences (hkind : a.kind = .input) (hkinds : a.kind = b.kind)
    (h : d ∈ inputDifferences a.name a.inputs b.inputs) : d.Founded old new := by
  have hhas : ∀ f ∈ a.inputs, old.Has (.field a.name f.name) := fun f hf =>
    ⟨a, ha, rfl, List.mem_append_right _ (TypeDef.mem_inputNames.mpr ⟨hkind, f, hf, rfl⟩)⟩
  rw [inputDifferences, List.mem_append, List.mem_append] at h
  rcases h with (h | h) | h
  · obtain ⟨f, hf, rfl⟩ := List.mem_map.mp h
    refine founded_of_isAt (isAt_inputAdded _ f) rfl (.inr ⟨b, hb, hname.symm, ?_⟩)
    exact List.mem_append_right _
      (TypeDef.mem_inputNames.mpr ⟨hkinds ▸ hkind, f, (mem_missing.mp hf).1, rfl⟩)
  · obtain ⟨f, hf, rfl⟩ := List.mem_map.mp h
    exact ⟨.field a.name f.name, rfl, .inl (hhas f (mem_missing.mp hf).1), rfl,
      List.forall_mem_nil _⟩
  · obtain ⟨⟨f, g⟩, hmem, h⟩ := List.mem_flatMap.mp h
    have hf := hhas f (mem_of_mem_common hmem).1
    dsimp only at h
    split at h
    · exact founded_of_isAt (isAt_of_mem_defaultDifference h) rfl (.inl hf)
    · rw [List.mem_singleton.mp h]
      exact ⟨.field a.name f.name, rfl, .inl hf, rfl, List.forall_mem_nil _⟩

include hold hnew

theorem founded_of_mem_typeDifferences (h : d ∈ typeDifferences a b) : d.Founded old new := by
  rw [typeDifferences] at h
  split_ifs at h with hkinds
  · rw [List.mem_singleton.mp h]
    exact ⟨.type a.name, rfl, .inl (Schema.hasType_of_mem ha), rfl, List.forall_mem_nil _⟩
  · rw [not_not] at hkinds
    cases hkind : a.kind with
    | scalar =>
      rw [hkind] at h
      cases h
    | object =>
      rw [hkind] at h
      rcases List.mem_append.mp h with h | h
      · exact founded_of_mem_fieldDifferences ha (.inl hkind) h
      · exact founded_of_mem_interfaceDifferences hold hnew ha hb h
    | interface =>
      rw [hkind] at h
      rcases List.mem_append.mp h with h | h
      · exact founded_of_mem_fieldDifferences ha (.inr hkind) h
      · exact founded_of_mem_interfaceDifferences hold hnew ha hb h
    | union =>
      rw [hkind] at h
      exact founded_of_mem_memberDifferences hold hnew ha hb h
    | enum =>
      rw [hkind] at h
      exact founded_of_mem_valueDifferences ha hb hname hkind hkinds h
    | input =>
      rw [hkind] at h
      exact founded_of_mem_inputDifferences ha hb hname hkind hkinds h

end Types

section Directives

variable {a b : DirectiveDef} (ha : a.Known) (hb : b.Known)

/-- All defaults but those with a point in them leave the path of the difference alone. -/
theorem ofDirective_of_mem_defaultDifference {directive argument : String} {x y : InputDef}
    (hd : IsName directive) (ha : IsName argument)
    (h : d ∈ defaultDifference (.directiveArgument directive argument) x y) :
    d.OfDirective directive := by
  rw [defaultDifference] at h
  split at h
  · rw [List.mem_singleton.mp h]
    exact .of_changePath rfl (path_defaultRemoved_directive hd ha)
  · split at h
    · cases h
    · rw [List.mem_singleton.mp h]
      refine ⟨rfl, or_iff_not_imp_right.mpr fun hpoint => ?_⟩
      obtain ⟨hx, hy⟩ := not_or.mp hpoint
      exact (path_eq_changePath (.inl rfl)).trans (path_defaultChanged_directive hd ha hx hy)
  · cases h

include ha

theorem ofDirective_directiveRemoved : (directiveRemoved a.name).OfDirective a.name :=
  .of_changePath rfl (path_directiveRemoved ha.name)

include hb

theorem ofDirective_of_mem_directiveDifferences (h : d ∈ directiveDifferences a b) :
    d.OfDirective a.name := by
  simp only [directiveDifferences, List.mem_append] at h
  rcases h with (((h | h) | h) | h) | h
  · obtain ⟨x, hx, rfl⟩ := List.mem_map.mp h
    have hx := (mem_missing.mp (List.mem_of_mem_filter hx)).1
    exact .of_changePath rfl (path_requiredDirectiveArgument ha.name (hb.arguments x hx).1)
  · obtain ⟨x, hx, rfl⟩ := List.mem_map.mp h
    have hx := (mem_missing.mp hx).1
    exact .of_changePath rfl (path_argumentRemoved_directive ha.name (ha.arguments x hx).1)
  · obtain ⟨⟨x, y⟩, hmem, h⟩ := List.mem_flatMap.mp h
    obtain ⟨hx, hy, -⟩ := mem_of_mem_common hmem
    have hx := ha.arguments x hx
    have hy := hb.arguments y hy
    dsimp only at h
    rw [argumentDifference] at h
    split at h
    · exact ofDirective_of_mem_defaultDifference ha.name hx.1 h
    · rw [List.mem_singleton.mp h]
      exact .of_changePath rfl (path_argumentRetyped_directive ha.name hx.1 hx.2 hy.2)
  · split at h
    · rw [List.mem_singleton.mp h]
      exact .of_changePath rfl (path_repeatableRemoved ha.name)
    · cases h
  · obtain ⟨l, -, rfl⟩ := List.mem_map.mp h
    exact .of_changePath rfl (path_locationRemoved ha.name l)

end Directives

section Schemas

variable (hold : old.Known) (hnew : new.Known)

include hold hnew

/-- A difference is about a part of one of the schemas, or about a directive of the old one. -/
theorem founded_or_ofDirective (h : d ∈ differences old new) :
    d.Founded old new ∨ ∃ a ∈ old.directives, d.OfDirective a.name := by
  rw [mem_differences hnew.named, losses, List.mem_append, List.mem_append, List.mem_append,
    mem_additions hold.named] at h
  rcases h with (((h | h) | h) | h) | h | h
  · obtain ⟨t, ht, rfl⟩ := List.mem_map.mp h
    exact .inl ⟨.type t.name, rfl, .inl (Schema.hasType_of_mem (mem_missing.mp ht).1), rfl,
      List.forall_mem_nil _⟩
  · obtain ⟨⟨a, b⟩, hmem, h⟩ := List.mem_flatMap.mp h
    obtain ⟨ha, hb, hname⟩ := mem_of_mem_common hmem
    exact .inl (founded_of_mem_typeDifferences hold hnew ha hb hname h)
  · obtain ⟨a, ha, rfl⟩ := List.mem_map.mp h
    have ha := (mem_missing.mp ha).1
    exact .inr ⟨a, ha, ofDirective_directiveRemoved (hold.directives a ha)⟩
  · obtain ⟨⟨a, b⟩, hmem, h⟩ := List.mem_flatMap.mp h
    obtain ⟨ha, hb, -⟩ := mem_of_mem_common hmem
    exact .inr ⟨a, ha, ofDirective_of_mem_directiveDifferences (hold.directives a ha)
      (hnew.directives b hb) h⟩
  · obtain ⟨t, hloses, -, rfl⟩ := h
    exact .inl ⟨.type t, rfl, .inr (.inl hloses.1), rfl, List.forall_mem_nil _⟩
  · obtain ⟨t, f, ⟨n, hn, -, -, hname, -, -, hf, -⟩, -, rfl⟩ := h
    exact .inl ⟨.field t f, rfl, .inr ⟨n, hn, hname, List.mem_append_left _ hf⟩, rfl,
      List.forall_mem_nil _⟩

theorem exists_path_of_founded (h : d.Founded old new) :
    ∃ p, (old.Has p ∨ new.Has p) ∧ p.Named ∧ d.path = p.path := by
  obtain ⟨p, hp, hhas, -, hother⟩ := h
  have hnamed : p.Named := hhas.elim (·.named hold.named) (·.named hnew.named)
  exact ⟨p, hhas, hnamed, path_of_about? hp hnamed hother⟩

end Schemas

end Comparison

open Comparison

theorem Part.Named.path_ne_empty {p : Part} (h : p.Named) : p.path ≠ "" := by
  have hne : ∀ {s : String}, IsName s → s ≠ "" := by
    rintro _ ⟨c, rest, hlist, -⟩ rfl
    cases hlist
  intro hpath
  have hlist := congrArg String.toList hpath
  cases p with
  | type t => exact hne h hpath
  | field t f => simp [path] at hlist
  | value e v => simp [path] at hlist

/-- The path of each change of a type is that of a part that one of the two schemas has. The path of
a change of a directive is the first word of its sentence, where no default value has a point. -/
theorem schemaChanges_paths {old new : String} {s s' : Schema}
    (hs : Schema.parse old.toList = .ok s) (hs' : Schema.parse new.toList = .ok s') :
    ∃ changes, schemaChanges old new = .ok changes ∧
      ∀ c ∈ changes, ∃ d ∈ differences s s', d.change = c ∧
        (d.directive? = none → c.path ≠ "" ∧ ∃ p, (s.Has p ∨ s'.Has p) ∧ c.path = p.path) ∧
        ∀ x, d.directive? = some x →
          x ∈ s.directives.map (·.name) ∧ (c.path = d.opening ∨ d.HasPointedDefault) := by
  have hold := Schema.known_of_parse hs
  have hnew := Schema.known_of_parse hs'
  refine ⟨_, schemaChanges_of_parse hs hs', fun c hc => ?_⟩
  obtain ⟨d, hd, rfl⟩ := List.mem_map.mp (List.mem_mergeSort.mp hc)
  refine ⟨d, hd, rfl, ?_⟩
  rcases founded_or_ofDirective hold hnew hd with hfounded | ⟨a, ha, hof⟩
  · obtain ⟨p, hhas, hnamed, hpath⟩ := exists_path_of_founded hold hnew hfounded
    refine ⟨fun _ => ⟨?_, p, hhas, hpath⟩, fun x hx => ?_⟩
    · change d.path ≠ ""
      rw [hpath]
      exact hnamed.path_ne_empty
    · obtain ⟨-, -, -, hnone, -⟩ := hfounded
      rw [hnone] at hx
      cases hx
  · refine ⟨fun hnone => ?_, fun x hx => ?_⟩
    · rw [hof.directive?] at hnone
      cases hnone
    · rw [hof.directive?] at hx
      cases hx
      exact ⟨List.mem_map_of_mem ha, hof.path⟩

/-- A schema with a directive that nothing uses. -/
def guardedQuery : String := "directive @auth on FIELD_DEFINITION type Query{a:Int}"

def plainQuery : String := "type Query{a:ID}"

theorem schemaDifferences_guardedQuery : schemaDifferences guardedQuery plainQuery =
    .ok [.fieldRetyped "Query" "a" (.named "Int") (.named "ID"), .directiveRemoved "auth"] := by
  rw [Outcome.eq_ok_iff_toOption]
  decide +kernel

/-- The field is found by its path, and the directive is not. -/
theorem schemaChanges_paths_guardedQuery :
    ∃ s s' changes, Schema.parse guardedQuery.toList = .ok s ∧
      Schema.parse plainQuery.toList = .ok s' ∧
      schemaChanges guardedQuery plainQuery = .ok changes ∧
      (∃ c ∈ changes, c.kind = "FIELD_CHANGED_KIND" ∧
        ∃ p, (s.Has p ∨ s'.Has p) ∧ c.path = p.path) ∧
      "auth" ∈ s.directives.map (·.name) ∧
        ∃ c ∈ changes, c.kind = "DIRECTIVE_REMOVED" ∧ c.path = "Directive" := by
  obtain ⟨s, hs⟩ := Outcome.isOk_iff.mp
    (show (Schema.parse guardedQuery.toList).isOk = true by decide +kernel)
  obtain ⟨s', hs'⟩ := Outcome.isOk_iff.mp
    (show (Schema.parse plainQuery.toList).isOk = true by decide +kernel)
  obtain ⟨changes, hchanges, hpaths⟩ := schemaChanges_paths hs hs'
  have hdifferences : differences s s' =
      [.fieldRetyped "Query" "a" (.named "Int") (.named "ID"), .directiveRemoved "auth"] := by
    have hboth := schemaDifferences_guardedQuery
    rw [schemaDifferences] at hboth
    dsimp only at hboth
    rw [hs, hs'] at hboth
    exact Except.ok.inj hboth
  have hmem : ∀ d ∈ differences s s', d.change ∈ changes := by
    rw [schemaChanges_of_parse hs hs'] at hchanges
    cases hchanges
    exact fun d hd => List.mem_mergeSort.mpr (List.mem_map_of_mem hd)
  rw [hdifferences] at hpaths hmem
  have hretyped := hmem _ List.mem_cons_self
  have hremoved := hmem _ (List.mem_cons_of_mem _ List.mem_cons_self)
  obtain ⟨d, hd, hchange, htype, -⟩ := hpaths _ hretyped
  obtain ⟨e, he, hchange', -, hdirective⟩ := hpaths _ hremoved
  rcases List.mem_pair.mp hd with rfl | rfl
  · rcases List.mem_pair.mp he with rfl | rfl
    · exact absurd (congrArg SchemaChange.kind hchange') (by decide)
    · obtain ⟨hauth, hpath | hpoint⟩ := hdirective "auth" rfl
      · exact ⟨s, s', changes, hs, hs', hchanges, ⟨_, hretyped, rfl, (htype rfl).2⟩, hauth,
          _, hremoved, rfl, hpath⟩
      · cases hpoint
  · exact absurd (congrArg SchemaChange.kind hchange) (by decide)

end Ripple.Graphql
