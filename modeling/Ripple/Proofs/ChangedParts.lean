import Ripple.Proofs.Descriptions

/-! # The parts of a schema that come and go

Some differences say that a part is gone, others that it is new. The path of such a change is the
path of the part.
-/
namespace Ripple.Graphql

inductive PartSort where
  | type | field | value
  deriving DecidableEq

namespace PartSort

def lostKinds : PartSort → List String
  | type => ["TYPE_REMOVED"]
  | field => ["FIELD_REMOVED"]
  | value => ["VALUE_REMOVED_FROM_ENUM"]

/-- What it is called that such a part is new. Fields that are written have kinds of their own. -/
def gainedKinds : PartSort → List String
  | type => ["TYPE_ADDED"]
  | field => ["FIELD_ADDED", "REQUIRED_INPUT_FIELD_ADDED", "OPTIONAL_INPUT_FIELD_ADDED"]
  | value => ["VALUE_ADDED_TO_ENUM"]

end PartSort

namespace Part

def sort : Part → PartSort
  | type _ => .type
  | field .. => .field
  | value .. => .value

def loss : Part → Difference
  | type t => .typeRemoved t
  | field t f => .fieldRemoved t f
  | value e v => .valueRemoved e v

end Part

/-- A text with a point between two names has no other point. -/
theorem dotted_inj {t f t' f' : String} (ht : IsName t') (hf : IsName f')
    (h : t' ++ "." ++ f' = t ++ "." ++ f) : t' = t ∧ f' = f := by
  have hlists : t'.toList ++ '.' :: f'.toList = t.toList ++ '.' :: f.toList := by
    simpa using congrArg String.toList h
  rw [List.append_cons_inj_of_notMem ht.point_notMem hf.point_notMem] at hlists
  exact ⟨String.toList_inj.mp hlists.1, String.toList_inj.mp hlists.2.2⟩

/-- A part with names is told apart from others of its sort by its path. -/
theorem Part.eq_of_path {p q : Part} (hq : q.Named) (hsort : q.sort = p.sort)
    (hpath : q.path = p.path) : q = p := by
  cases p <;> cases q <;> cases hsort
  case type.type => exact congrArg Part.type hpath
  case field.field =>
    obtain ⟨rfl, rfl⟩ := dotted_inj hq.1 hq.2 hpath
    rfl
  case value.value =>
    obtain ⟨rfl, rfl⟩ := dotted_inj hq.1 hq.2 hpath
    rfl

namespace Difference

/-- The part that is gone. -/
def lost? : Difference → Option Part
  | typeRemoved t => some (.type t)
  | fieldRemoved t f => some (.field t f)
  | valueRemoved e v => some (.value e v)
  | _ => none

def gained? : Difference → Option Part
  | typeAdded t => some (.type t)
  | fieldAdded t f | requiredInputAdded (.field t f) | optionalInputAdded (.field t f) =>
    some (.field t f)
  | valueAdded e v => some (.value e v)
  | _ => none

def part? (d : Difference) : Option Part := d.lost?.or d.gained?

theorem lost?_eq_some_iff {d : Difference} {p : Part} : d.lost? = some p ↔ p.loss = d := by
  cases p <;> cases d <;> simp [lost?, Part.loss, eq_comm]

theorem gained?_eq_type_iff {d : Difference} {t : String} :
    d.gained? = some (.type t) ↔ typeAdded t = d := by
  rw [gained?.eq_def]
  split <;> grind

theorem gained?_eq_value_iff {d : Difference} {e v : String} :
    d.gained? = some (.value e v) ↔ valueAdded e v = d := by
  rw [gained?.eq_def]
  split <;> grind

theorem gained?_eq_field_iff {d : Difference} {t f : String} :
    d.gained? = some (.field t f) ↔
      fieldAdded t f = d ∨ requiredInputAdded (.field t f) = d ∨
        optionalInputAdded (.field t f) = d := by
  rw [gained?.eq_def]
  split <;> grind

theorem kind_mem_lostKinds {d : Difference} {sort : PartSort} :
    d.kind ∈ sort.lostKinds ↔ ∃ p, d.lost? = some p ∧ p.sort = sort := by
  cases sort <;> cases d with
  | requiredInputAdded place | optionalInputAdded place | argumentRemoved place
  | defaultRemoved place | defaultChanged place =>
    cases place <;> simp [kind, PartSort.lostKinds, lost?]
  | _ => simp [kind, PartSort.lostKinds, lost?, Part.sort]

theorem kind_mem_gainedKinds {d : Difference} {sort : PartSort} :
    d.kind ∈ sort.gainedKinds ↔ ∃ p, d.gained? = some p ∧ p.sort = sort := by
  cases sort <;> cases d with
  | requiredInputAdded place | optionalInputAdded place | argumentRemoved place
  | defaultRemoved place | defaultChanged place =>
    cases place <;> simp [kind, PartSort.gainedKinds, gained?, Part.sort]
  | _ => simp [kind, PartSort.gainedKinds, gained?, Part.sort]

variable {d : Difference} {p : Part}

theorem path_of_lost? (hp : p.Named) (h : d.lost? = some p) : d.path = p.path := by
  rw [lost?_eq_some_iff] at h
  subst h
  cases p with
  | type t => exact path_typeRemoved hp
  | field t f => exact path_fieldRemoved hp.1 hp.2
  | value e v => exact path_valueRemoved hp.1 hp.2

theorem path_of_gained? (hp : p.Named) (h : d.gained? = some p) : d.path = p.path := by
  rw [gained?.eq_def] at h
  split at h
  · cases h
    rfl
  · cases h
    rfl
  · cases h
    exact path_requiredInputAdded hp rfl
  · cases h
    exact path_optionalInputAdded hp rfl
  · cases h
    exact path_valueAdded hp.1 hp.2
  · cases h

end Difference

end Ripple.Graphql
