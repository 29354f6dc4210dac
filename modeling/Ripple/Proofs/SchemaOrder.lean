import Mathlib.Data.String.Basic
import Ripple.Proofs.DefinitionOrder
import Ripple.Proofs.Positions
import Ripple.Proofs.SchemaComparison

/-! # Schemas of documents in another order

Where definitions change places in a document, the types of its schema change places, and so do
inside a type the parts that its extensions add to it. All of them are told apart by names, so the
comparison with another schema finds the same differences. It lists them by path and kind, and how
grave a difference is follows from its kind, so nothing of the former order is left in the report.
-/
namespace Ripple.Graphql

/-- The fields of the type and their arguments are told apart by names. -/
structure TypeDef.Distinct (t : TypeDef) : Prop where
  fields : (t.fields.map (·.name)).Nodup
  inputs : (t.inputs.map (·.name)).Nodup
  arguments : ∀ f ∈ t.fields, (f.arguments.map (·.name)).Nodup

/-- The types say the same in another order, and have names for what they say. -/
structure TypeDef.Matches (t' t : TypeDef) : Prop where
  name : t'.name = t.name
  kind : t'.kind = t.kind
  directives : t'.directives = t.directives
  interfaces : t'.interfaces.Perm t.interfaces
  fields : t'.fields.Perm t.fields
  members : t'.members.Perm t.members
  values : t'.values.Perm t.values
  inputs : t'.inputs.Perm t.inputs
  distinct : t.Distinct

/-- All that the schema has is told apart by names. -/
structure Schema.Distinct (s : Schema) : Prop where
  types : (s.types.map (·.name)).Nodup
  parts : ∀ t ∈ s.types, t.Distinct
  directives : (s.directives.map (·.name)).Nodup
  arguments : ∀ d ∈ s.directives, (d.arguments.map (·.name)).Nodup

/-- The second list in another order and with related elements in the place of its own. -/
def Rearranged {α : Type} (R : α → α → Prop) (l' l : List α) : Prop :=
  ∃ m, l'.Perm m ∧ List.Forall₂ R m l

namespace Rearranged

variable {α β : Type} {R : α → α → Prop} {l l' : List α}

theorem of_perm (h : l'.Perm l) : Rearranged Eq l' l :=
  ⟨l, h, List.forall₂_refl l⟩

theorem reverse (h : Rearranged R l' l) : Rearranged R l'.reverse l.reverse := by
  obtain ⟨m, hperm, hrel⟩ := h
  refine ⟨m.reverse, ?_, List.rel_reverse hrel⟩
  exact (List.reverse_perm l').trans (hperm.trans (List.reverse_perm m).symm)

theorem filter {p : α → Bool} (h : Rearranged R l' l) (hp : ∀ a' a, R a' a → p a' = p a) :
    Rearranged R (l'.filter p) (l.filter p) := by
  obtain ⟨m, hperm, hrel⟩ := h
  refine ⟨m.filter p, hperm.filter p, List.rel_filter (fun a' a ha => ?_) hrel⟩
  exact Bool.eq_iff_iff.mp (hp a' a ha)

/-- What related elements are mapped to is in another order as well. -/
theorem flatMap_perm {f g : α → List β} (h : Rearranged R l' l)
    (hfg : ∀ a' a, R a' a → (f a').Perm (g a)) : (l'.flatMap f).Perm (l.flatMap g) := by
  obtain ⟨m, hperm, hrel⟩ := h
  refine (hperm.flatMap_right f).trans ?_
  clear hperm
  induction hrel with
  | nil => exact .nil
  | cons ha _ ih => exact (hfg _ _ ha).append ih

theorem exists_of_mem (h : Rearranged R l' l) {a' : α} (ha' : a' ∈ l') : ∃ a ∈ l, R a' a := by
  obtain ⟨m, hperm, hrel⟩ := h
  have ha' := hperm.subset ha'
  clear hperm
  induction hrel with
  | nil => cases ha'
  | @cons b' b m l hb _ ih =>
    rcases List.mem_cons.mp ha' with rfl | ha'
    · exact ⟨b, List.mem_cons_self, hb⟩
    · obtain ⟨a, ha, hrel⟩ := ih ha'
      exact ⟨a, List.mem_cons_of_mem b ha, hrel⟩

section Keys

variable {key : α → String} (hkey : ∀ a' a, R a' a → key a' = key a)

include hkey

theorem map_perm (h : Rearranged R l' l) : (l'.map key).Perm (l.map key) := by
  obtain ⟨m, hperm, hrel⟩ := h
  refine (hperm.map key).trans (List.Perm.of_eq ?_)
  clear hperm
  induction hrel with
  | nil => rfl
  | cons ha _ ih => rw [List.map_cons, List.map_cons, hkey _ _ ha, ih]

/-- The elements of one key are related. -/
theorem find?_rel (h : Rearranged R l' l) (hnodup : (l.map key).Nodup) (k : String) :
    Option.Rel R (l'.find? (key · = k)) (l.find? (key · = k)) := by
  have hnodup' : (l'.map key).Nodup := (h.map_perm hkey).nodup_iff.mpr hnodup
  obtain ⟨m, hperm, hrel⟩ := h
  rw [← find?_key_of_perm key hperm.symm hnodup' k]
  clear hperm
  induction hrel with
  | nil => exact .none
  | cons ha _ ih =>
    rw [List.map_cons, List.nodup_cons] at hnodup
    rw [List.find?_cons, List.find?_cons, hkey _ _ ha]
    split
    · exact .some ha
    · exact ih hnodup.2

end Keys

end Rearranged

/-- The schemas say the same in another order, and have names for what they say. -/
structure Schema.Matches (s' s : Schema) : Prop where
  types : Rearranged TypeDef.Matches s'.types s.types
  directives : s'.directives.Perm s.directives
  distinct : s.Distinct

theorem Schema.Distinct.matches_self {s : Schema} (h : s.Distinct) : s.Matches s where
  types := ⟨s.types, .refl _, List.forall₂_same.mpr fun t ht =>
    ⟨rfl, rfl, rfl, .refl _, .refl _, .refl _, .refl _, .refl _, h.parts t ht⟩⟩
  directives := .refl _
  distinct := h

namespace Comparison

section Keys

variable {α β : Type} {key : α → String} {R : α → α → Prop} {old old' new new' : List α}
  (hkey : ∀ a' a, R a' a → key a' = key a)

theorem missing_perm (hold : old'.Perm old) (hnew : (new'.map key).Perm (new.map key)) :
    (missing key old' new').Perm (missing key old new) := by
  have hsame : ∀ a, (!(new'.map key).contains (key a)) = !(new.map key).contains (key a) := by
    intro a
    rw [Bool.eq_iff_iff]
    simp only [Bool.not_eq_true', ← Bool.not_eq_true, List.contains_iff_mem, hnew.mem_iff]
  rw [missing, missing, funext hsame]
  exact hold.filter _

theorem common_flatMap (D : α × α → List β) (old new : List α) :
    (common key old new).flatMap D =
      old.flatMap fun a => ((new.reverse.find? (key · = key a)).map fun b => D (a, b)).getD [] := by
  induction old with
  | nil => rfl
  | cons a rest ih =>
    rw [common] at ih ⊢
    rw [List.filterMap_cons, List.flatMap_cons]
    cases new.reverse.find? (key · = key a) with
    | none => simpa using ih
    | some b => simpa using ih

include hkey

theorem missing_map_perm (hold : Rearranged R old' old) (hnew : Rearranged R new' new) :
    ((missing key old' new').map key).Perm ((missing key old new).map key) := by
  have hnames : ∀ l m : List α, (missing key l m).map key =
      (l.map key).filter fun k => !(m.map key).contains k := by
    intro l m
    rw [missing, List.filter_map]
    rfl
  have hmap : (missing id (old'.map key) (new'.map key)).Perm
      (missing id (old.map key) (new.map key)) :=
    missing_perm (hold.map_perm hkey) (by simpa using hnew.map_perm hkey)
  rw [hnames, hnames]
  simpa [missing] using hmap

theorem common_flatMap_perm {D : α × α → List β} (hold : Rearranged R old' old)
    (hnew : Rearranged R new' new) (hnodup : (new.map key).Nodup)
    (hD : ∀ a' a b' b, R a' a → R b' b → (D (a', b')).Perm (D (a, b))) :
    ((common key old' new').flatMap D).Perm ((common key old new).flatMap D) := by
  have hreverse : (new.reverse.map key).Nodup := by
    rwa [List.map_reverse, List.nodup_reverse]
  rw [common_flatMap, common_flatMap]
  refine hold.flatMap_perm fun a' a ha => ?_
  rw [hkey a' a ha]
  have hfound := hnew.reverse.find?_rel hkey hreverse (key a)
  generalize new'.reverse.find? (key · = key a) = found' at hfound ⊢
  generalize new.reverse.find? (key · = key a) = found at hfound ⊢
  cases hfound with
  | some hb => exact hD _ _ _ _ ha hb
  | none => exact .nil

end Keys

theorem fieldDifferences_perm {type : String} {old old' new new' : List FieldDef}
    (hold : old'.Perm old) (hnew : new'.Perm new) (hnodup : (new.map (·.name)).Nodup) :
    (fieldDifferences type old' new').Perm (fieldDifferences type old new) := by
  refine .append ((missing_perm hold (hnew.map _)).map _) ?_
  refine common_flatMap_perm (fun _ _ => congrArg _) (.of_perm hold) (.of_perm hnew) hnodup ?_
  rintro _ _ _ _ rfl rfl
  rfl

theorem interfaceDifferences_perm {type : String} {old old' new new' : List String}
    (hold : old'.Perm old) (hnew : new'.Perm new) :
    (interfaceDifferences type old' new').Perm (interfaceDifferences type old new) :=
  .append ((missing_perm hnew (hold.map _)).map _) ((missing_perm hold (hnew.map _)).map _)

theorem inputDifferences_perm {type : String} {old old' new new' : List InputDef}
    (hold : old'.Perm old) (hnew : new'.Perm new) (hnodup : (new.map (·.name)).Nodup) :
    (inputDifferences type old' new').Perm (inputDifferences type old new) := by
  refine .append (.append ((missing_perm hnew (hold.map _)).map _)
    ((missing_perm hold (hnew.map _)).map _)) ?_
  refine common_flatMap_perm (fun _ _ => congrArg _) (.of_perm hold) (.of_perm hnew) hnodup ?_
  rintro _ _ _ _ rfl rfl
  rfl

theorem typeDifferences_perm {a a' b b' : TypeDef} (ha : a'.Matches a) (hb : b'.Matches b) :
    (typeDifferences a' b').Perm (typeDifferences a b) := by
  rw [typeDifferences, typeDifferences, ha.kind, hb.kind, ha.name]
  split
  · rfl
  · cases a.kind with
    | scalar => rfl
    | object | interface =>
      exact .append (fieldDifferences_perm ha.fields hb.fields hb.distinct.fields)
        (interfaceDifferences_perm ha.interfaces hb.interfaces)
    | union =>
      exact .append ((missing_perm hb.members (ha.members.map _)).map _)
        ((missing_perm ha.members (hb.members.map _)).map _)
    | enum =>
      exact .append ((missing_perm hb.values (ha.values.map _)).map _)
        ((missing_perm ha.values (hb.values.map _)).map _)
    | input => exact inputDifferences_perm ha.inputs hb.inputs hb.distinct.inputs

end Comparison

namespace Comparison

variable {old old' new new' : Schema} (hold : old'.Matches old) (hnew : new'.Matches new)

include hold hnew

theorem losses_perm : (losses old' new').Perm (losses old new) := by
  have hname : ∀ t' t : TypeDef, t'.Matches t → t'.name = t.name := fun _ _ h => h.name
  have hremoved := (missing_map_perm hname hold.types hnew.types).map Difference.typeRemoved
  rw [List.map_map, List.map_map] at hremoved
  refine .append (.append (.append hremoved ?_)
    ((missing_perm hold.directives (hnew.directives.map _)).map _)) ?_
  · exact common_flatMap_perm hname hold.types hnew.types hnew.distinct.types
      fun _ _ _ _ => typeDifferences_perm
  · refine common_flatMap_perm (fun _ _ => congrArg _) (.of_perm hold.directives)
      (.of_perm hnew.directives) hnew.distinct.directives ?_
    rintro _ _ _ _ rfl rfl
    rfl

theorem additions_perm : (additions old' new').Perm (additions old new) := by
  have hname : ∀ t' t : TypeDef, t'.Matches t → t'.name = t.name := fun _ _ h => h.name
  refine (hnew.types.filter fun _ _ h => by rw [h.name]).flatMap_perm fun t' t ht => ?_
  have hfound := hold.types.find?_rel hname hold.distinct.types t.name
  rw [ht.name, ht.kind]
  generalize old'.types.find? (·.name = t.name) = found' at hfound ⊢
  generalize old.types.find? (·.name = t.name) = found at hfound ⊢
  cases hfound with
  | none => rfl
  | some ho =>
    dsimp only
    rw [ho.kind]
    split
    · exact (missing_perm ht.fields (ho.fields.map _)).map _
    · rfl

theorem differences_perm : (differences old' new').Perm (differences old new) :=
  .append (.append ((losses_perm hold hnew).filter _) ((losses_perm hold hnew).filter _))
    (additions_perm hold hnew)

end Comparison

namespace Comparison

section Keys

variable {α β : Type} {key : α → String} {l : List α}

theorem missing_self : missing key l l = [] := by
  simp only [missing, List.filter_eq_nil_iff, Bool.not_eq_true', Bool.not_eq_false,
    List.contains_iff_mem]
  exact fun a ha => List.mem_map_of_mem ha

theorem common_self_flatMap {D : α × α → List β} (hnodup : (l.map key).Nodup)
    (hD : ∀ a ∈ l, D (a, a) = []) : (common key l l).flatMap D = [] := by
  rw [List.flatMap_eq_nil_iff]
  rintro ⟨a, b⟩ hmem
  obtain ⟨ha, hb, hkey⟩ := (mem_common hnodup).mp hmem
  rw [← List.inj_on_of_nodup_map hnodup ha hb hkey]
  exact hD a ha

end Keys

theorem outputSafe_self (t : TypeRef) : outputSafe t t = true := by
  induction t with
  | named name => simp [outputSafe]
  | list item ih => simpa [outputSafe] using ih
  | nonNull inner ih => simpa [outputSafe] using ih

theorem inputSafe_self (t : TypeRef) : inputSafe t t = true := by
  induction t with
  | named name => simp [inputSafe]
  | list item ih => simpa [inputSafe] using ih
  | nonNull inner ih => simpa [inputSafe] using ih

theorem defaultDifference_self (place : InputPlace) (a : InputDef) :
    defaultDifference place a a = [] := by
  rw [defaultDifference]
  cases defaultText? a <;> simp

theorem argumentDifference_self (place : InputPlace) (a : InputDef) :
    argumentDifference place a a = [] := by
  rw [argumentDifference, if_pos (inputSafe_self a.type), defaultDifference_self]

theorem argumentDifferences_self {type field : String} {l : List InputDef}
    (h : (l.map (·.name)).Nodup) : argumentDifferences type field l l = [] := by
  rw [argumentDifferences, missing_self,
    common_self_flatMap h fun a _ => argumentDifference_self _ a]
  rfl

theorem typeDifferences_self {t : TypeDef} (h : t.Distinct) : typeDifferences t t = [] := by
  have hfields : fieldDifferences t.name t.fields t.fields = [] := by
    rw [fieldDifferences, missing_self, common_self_flatMap h.fields]
    · rfl
    · intro f hf
      dsimp only
      rw [argumentDifferences_self (h.arguments f hf), if_pos (outputSafe_self f.type)]
      rfl
  have hinputs : inputDifferences t.name t.inputs t.inputs = [] := by
    rw [inputDifferences, missing_self, common_self_flatMap h.inputs]
    · rfl
    · intro f _
      dsimp only
      rw [if_pos (inputSafe_self f.type), defaultDifference_self]
  rw [typeDifferences, if_neg (not_not.mpr rfl)]
  cases t.kind <;> simp [hfields, hinputs, interfaceDifferences, missing_self]

theorem directiveDifferences_self {d : DirectiveDef} (h : (d.arguments.map (·.name)).Nodup) :
    directiveDifferences d d = [] := by
  rw [directiveDifferences, missing_self,
    common_self_flatMap h fun a _ => argumentDifference_self _ a]
  simp

theorem additions_self {s : Schema} (h : s.Distinct) : additions s s = [] := by
  simp only [additions, List.flatMap_eq_nil_iff]
  intro t ht
  have hfound : s.types.find? (·.name = t.name) = some t :=
    (find?_key_iff TypeDef.name h.types t.name t).mpr ⟨List.mem_of_mem_filter ht, rfl⟩
  rw [hfound]
  simp [missing_self]

/-- A schema does not differ from itself. -/
theorem differences_self {s : Schema} (h : s.Distinct) : differences s s = [] := by
  have hlosses : losses s s = [] := by
    rw [losses, missing_self, missing_self, common_self_flatMap h.types,
      common_self_flatMap h.directives]
    · rfl
    · exact fun d hd => directiveDifferences_self (h.arguments d hd)
    · exact fun t ht => typeDifferences_self (h.parts t ht)
  rw [differences, hlosses, additions_self h]
  rfl

end Comparison

section Documents

variable {doc doc' : Document}

theorem Schema.distinct_ofDocument (h : doc.faults = []) : (ofDocument doc).Distinct := by
  refine ⟨nodup_types_ofDocument h, ?_, ?_, ?_⟩
  · intro t ht
    obtain ⟨d, hd, rfl⟩ := List.mem_map.mp ht
    have hd := List.mem_of_mem_filter hd
    have hnames := Document.nodup_extended_fieldNames h hd
    refine ⟨?_, ?_, ?_⟩
    · rw [extended, List.map_flatMap]
      exact hnames.sublist (List.Sublist.flatMap_right _ fun e _ => List.sublist_append_left _ _)
    · rw [extended, List.map_flatMap]
      exact hnames.sublist (List.Sublist.flatMap_right _ fun e _ => List.sublist_append_right _ _)
    · intro f hf
      obtain ⟨e, he, hfield⟩ := List.mem_flatMap.mp hf
      rcases List.mem_cons.mp he with rfl | he
      · exact Document.nodup_arguments h (Document.mem_types.mp hd) rfl f hfield
      · exact Document.nodup_arguments h
          (Document.mem_extensions.mp (List.mem_of_mem_filter he)) rfl f hfield
  · rw [ofDocument, List.map_append]
    refine (Document.nodup_directives h).append ?_ ?_
    · exact (show (Builtin.directives.map (·.name)).Nodup by decide).sublist
        (List.filter_sublist.map _)
    · intro name hown hbuiltin
      obtain ⟨d, hd, rfl⟩ := List.mem_map.mp hbuiltin
      simpa [hown] using (List.mem_filter.mp hd).2
  · intro d hd
    rcases List.mem_append.mp hd with hd | hd
    · exact Document.nodup_directive_arguments h hd
    · exact (show ∀ d ∈ Builtin.directives, (d.arguments.map (·.name)).Nodup by decide) d
        (List.mem_of_mem_filter hd)

theorem Schema.matches_ofDocument (hperm : doc'.Perm doc) (h : doc.faults = []) :
    (ofDocument doc').Matches (ofDocument doc) := by
  have htypes : doc'.types.Perm doc.types := hperm.filterMap _
  have hextensions : doc'.extensions.Perm doc.extensions := hperm.filterMap _
  have hdirectives : doc'.directives.Perm doc.directives := hperm.filterMap _
  have hdistinct := distinct_ofDocument h
  refine ⟨⟨_, (htypes.filter _).map _, ?_⟩, ?_, hdistinct⟩
  · rw [ofDocument, List.forall₂_map_right_iff, List.forall₂_map_left_iff, List.forall₂_same]
    intro d hd
    have hparts : (d :: doc'.extensions.filter (·.name = d.name)).Perm
        (d :: doc.extensions.filter (·.name = d.name)) := (hextensions.filter _).cons d
    exact ⟨rfl, rfl, rfl, hparts.flatMap_right _, hparts.flatMap_right _, hparts.flatMap_right _,
      hparts.flatMap_right _, hparts.flatMap_right _, hdistinct.parts _ (List.mem_map_of_mem hd)⟩
  · have hnames : ∀ d : DirectiveDef, (!(doc'.directives.map (·.name)).contains d.name) =
        !(doc.directives.map (·.name)).contains d.name := by
      intro d
      rw [Bool.eq_iff_iff]
      simp only [Bool.not_eq_true', ← Bool.not_eq_true, List.contains_iff_mem,
        (hdirectives.map _).mem_iff]
    rw [ofDocument, ofDocument, funext hnames]
    exact hdirectives.append_right _

end Documents

namespace Schema

theorem fault?_eq_none_of_matches {s s' : Schema} (h : s'.Matches s) (hs : s.fault? = none) :
    s'.fault? = none := by
  rw [fault?_eq_none_iff] at hs ⊢
  refine ⟨fun t' ht' => ?_, fun d hd => hs.2 d (h.directives.subset hd)⟩
  obtain ⟨t, ht, hmatches⟩ := h.types.exists_of_mem ht'
  obtain ⟨hown, hfields⟩ := hs.1 t ht
  constructor
  · rw [ownFault?, hmatches.kind, hmatches.directives]
    rw [ownFault?] at hown
    cases hkind : t.kind with
    | enum =>
      rw [hkind] at hown
      exact List.findSome?_eq_none_iff.mpr fun v hv =>
        List.findSome?_eq_none_iff.mp hown v (hmatches.values.subset hv)
    | scalar =>
      rw [hkind] at hown
      exact hown
    | _ => rfl
  · rw [fieldsFault?, Option.or_eq_none_iff] at hfields ⊢
    exact ⟨List.findSome?_eq_none_iff.mpr fun f hf =>
        List.findSome?_eq_none_iff.mp hfields.1 f (hmatches.fields.subset hf),
      List.findSome?_eq_none_iff.mpr fun f hf =>
        List.findSome?_eq_none_iff.mp hfields.2 f (hmatches.inputs.subset hf)⟩

end Schema

/-- What a report says about a change besides its message. -/
def SchemaChange.entry (c : SchemaChange) : String × String × Criticality :=
  (c.path, c.kind, c.criticality)

/-- How grave changes of a kind are. -/
def kindCriticality (kind : String) : Criticality :=
  if kind ∈ ["TYPE_ADDED", "FIELD_ADDED"] then .nonBreaking
  else if kind ∈ ["TYPE_ADDED_TO_UNION", "VALUE_ADDED_TO_ENUM", "IMPLEMENTED_INTERFACE_ADDED",
    "OPTIONAL_INPUT_FIELD_ADDED", "OPTIONAL_ARG_ADDED", "INPUT_FIELD_DEFAULT_VALUE_CHANGE",
    "ARG_DEFAULT_VALUE_CHANGE"] then .dangerous
  else .breaking

theorem Difference.criticality_eq (d : Difference) : d.criticality = kindCriticality d.kind := by
  cases d with
  | requiredInputAdded place | optionalInputAdded place | argumentRemoved place
  | defaultRemoved place | defaultChanged place =>
    cases place <;> rfl
  | _ => rfl

namespace Comparison

theorem inOrder_iff {a b : SchemaChange} : inOrder a b = true ↔
    a.path < b.path ∨ a.path = b.path ∧ a.kind ≤ b.kind := by
  simp [inOrder]

theorem inOrder_trans {a b c : SchemaChange} (hab : inOrder a b = true)
    (hbc : inOrder b c = true) : inOrder a c = true := by
  rw [inOrder_iff] at *
  rcases hab with hab | ⟨hab, hkind⟩ <;> rcases hbc with hbc | ⟨hbc, hkind'⟩
  · exact .inl (lt_trans hab hbc)
  · exact .inl (hbc ▸ hab)
  · exact .inl (hab ▸ hbc)
  · exact .inr ⟨hab.trans hbc, le_trans hkind hkind'⟩

theorem inOrder_total (a b : SchemaChange) : (inOrder a b || inOrder b a) = true := by
  rw [Bool.or_eq_true, inOrder_iff, inOrder_iff]
  rcases lt_trichotomy a.path b.path with h | h | h
  · exact .inl (.inl h)
  · exact (le_total a.kind b.kind).imp (fun hk => .inr ⟨h, hk⟩) fun hk => .inr ⟨h.symm, hk⟩
  · exact .inr (.inl h)

theorem inOrder_antisymm {a b : SchemaChange} (hab : inOrder a b = true)
    (hba : inOrder b a = true) : a.path = b.path ∧ a.kind = b.kind := by
  rw [inOrder_iff] at hab hba
  rcases hab with hab | ⟨hpath, hkind⟩ <;> rcases hba with hba | ⟨hpath', hkind'⟩
  · exact absurd hba (lt_asymm hab)
  · exact absurd hab (hpath' ▸ lt_irrefl _)
  · exact absurd hba (hpath ▸ lt_irrefl _)
  · exact ⟨hpath, le_antisymm hkind hkind'⟩

theorem pairwise_sorted (found : List Difference) :
    (sorted found).Pairwise fun a b => inOrder a b = true := by
  rw [sorted]
  have htrans : ∀ a b c, inOrder a b = true → inOrder b c = true → inOrder a c = true :=
    fun _ _ _ => inOrder_trans
  exact List.pairwise_mergeSort htrans inOrder_total _

theorem criticality_of_mem_sorted {found : List Difference} {c : SchemaChange}
    (h : c ∈ sorted found) : c.criticality = kindCriticality c.kind := by
  obtain ⟨d, -, rfl⟩ := List.mem_map.mp (List.mem_mergeSort.mp h)
  exact d.criticality_eq

/-- Paths and kinds put all of the report but its messages in order. -/
theorem sorted_entries_of_perm {found found' : List Difference} (h : found'.Perm found) :
    (sorted found').map SchemaChange.entry = (sorted found).map SchemaChange.entry := by
  have hperm : (sorted found').Perm (sorted found) :=
    (List.mergeSort_perm _ _).trans ((h.map _).trans (List.mergeSort_perm _ _).symm)
  have hpairwise : ∀ l, ((sorted l).map SchemaChange.entry).Pairwise fun e e' =>
      e.1 < e'.1 ∨ e.1 = e'.1 ∧ e.2.1 ≤ e'.2.1 := fun l =>
    List.pairwise_map.mpr ((pairwise_sorted l).imp fun hab => inOrder_iff.mp hab)
  refine List.Perm.eq_of_pairwise ?_ (hpairwise found') (hpairwise found) (hperm.map _)
  intro e e' he he' hle hle'
  obtain ⟨a, ha, rfl⟩ := List.mem_map.mp he
  obtain ⟨b, hb, rfl⟩ := List.mem_map.mp he'
  obtain ⟨hpath, hkind⟩ := inOrder_antisymm (inOrder_iff.mpr hle) (inOrder_iff.mpr hle')
  rw [SchemaChange.entry, SchemaChange.entry, criticality_of_mem_sorted ha,
    criticality_of_mem_sorted hb, hpath, hkind]

end Comparison

open Comparison

/-- The documents have the same definitions, in any order and at any places of a text. -/
def Document.Rearranges (doc' doc : Document) : Prop := doc'.unplaced.Perm doc.unplaced

/-- The schema of a text is read from the definitions in any other order as well. -/
theorem Schema.parse_of_rearranges {old old' : List Char} {doc doc' : Document}
    (hdoc : Document.parse old = .ok doc) (hdoc' : Document.parse old' = .ok doc')
    (h : doc'.Rearranges doc) {s : Schema} (hs : Schema.parse old = .ok s) :
    ∃ s', Schema.parse old' = .ok s' ∧ s'.unplaced.Matches s.unplaced := by
  obtain ⟨_, hread, hfaults, hfault, rfl⟩ := parse_eq_ok_iff.mp hs
  cases hdoc.symm.trans hread
  rw [← Document.faults_unplaced] at hfaults
  rw [← fault?_unplaced] at hfault
  have hmatches : (ofDocument doc').unplaced.Matches (ofDocument doc).unplaced := by
    rw [← ofDocument_unplaced, ← ofDocument_unplaced]
    exact matches_ofDocument h hfaults
  refine ⟨ofDocument doc', parse_eq_ok_iff.mpr ⟨doc', hdoc', ?_, ?_, rfl⟩, hmatches⟩
  · rw [← Document.faults_unplaced]
    exact Document.faults_eq_nil_of_perm h hfaults
  · exact fault?_unplaced.mp (fault?_eq_none_of_matches hmatches hfault)

/-- What changes from one schema text to another does not depend on the order of the definitions in
either of them, and between two orders of the same definitions nothing changes. -/
theorem schemaChanges_rearranged {old old' new new' : String} {doc doc' later later' : Document}
    (hdoc : Document.parse old.toList = .ok doc) (hdoc' : Document.parse old'.toList = .ok doc')
    (hlater : Document.parse new.toList = .ok later)
    (hlater' : Document.parse new'.toList = .ok later')
    (hold : doc'.Rearranges doc) (hnew : later'.Rearranges later)
    (hbuilds : (Schema.parse old.toList).isOk = true)
    (hbuilds' : (Schema.parse new.toList).isOk = true) :
    (∃ changes changes', schemaChanges old new = .ok changes ∧
      schemaChanges old' new' = .ok changes' ∧
        changes'.map SchemaChange.entry = changes.map SchemaChange.entry) ∧
      schemaChanges old old' = .ok [] ∧ schemaChanges old' old = .ok [] := by
  obtain ⟨s, hs⟩ := Outcome.isOk_iff.mp hbuilds
  obtain ⟨n, hn⟩ := Outcome.isOk_iff.mp hbuilds'
  obtain ⟨s', hs', hmatches⟩ := Schema.parse_of_rearranges hdoc hdoc' hold hs
  obtain ⟨n', hn', hmatches'⟩ := Schema.parse_of_rearranges hlater hlater' hnew hn
  have hsame := hmatches.distinct.matches_self
  have hself : differences s.unplaced s.unplaced = [] := differences_self hmatches.distinct
  refine ⟨⟨_, _, schemaChanges_of_parse hs hn, schemaChanges_of_parse hs' hn', ?_⟩, ?_, ?_⟩
  · rw [← differences_unplaced s', ← differences_unplaced s]
    exact sorted_entries_of_perm (differences_perm hmatches hmatches')
  · have hnone := differences_perm hsame hmatches
    rw [hself, List.perm_nil, differences_unplaced] at hnone
    rw [schemaChanges_of_parse hs hs', hnone, sorted, List.map_nil, List.mergeSort_nil]
  · have hnone := differences_perm hmatches hsame
    rw [hself, List.perm_nil, differences_unplaced] at hnone
    rw [schemaChanges_of_parse hs' hs, hnone, sorted, List.map_nil, List.mergeSort_nil]

section Catalog

def queryType : Definition :=
  .type ⟨"Query", .object, [], [], [⟨"a", [], .named "Int", []⟩], [], [], []⟩

/-- An extension with a directive at a place of the text. -/
def queryExtension (position : Nat) : Definition :=
  .extension ⟨"Query", .object, [], [],
    [⟨"b", [], .named "Int", [⟨"deprecated", [], position⟩]⟩], [], [], []⟩

def itemType : Definition :=
  .type ⟨"Item", .object, [], [], [⟨"c", [], .named "Int", []⟩], [], [], []⟩

def catalog : String := "type Query{a:Int}extend type Query{b:Int @deprecated}type Item{c:Int}"

def turnedCatalog : String :=
  "type Item{c:Int}extend type Query{b:Int @deprecated}type Query{a:Int}"

def firstCatalog : String := "type Query{a:Int}"

theorem parse_catalog :
    Document.parse catalog.toList = .ok [queryType, queryExtension 41, itemType] := by
  rw [Outcome.eq_ok_iff_toOption]
  decide +kernel

theorem parse_turnedCatalog :
    Document.parse turnedCatalog.toList = .ok [itemType, queryExtension 40, queryType] := by
  rw [Outcome.eq_ok_iff_toOption]
  decide +kernel

theorem parse_firstCatalog : Document.parse firstCatalog.toList = .ok [queryType] := by
  rw [Outcome.eq_ok_iff_toOption]
  decide +kernel

theorem schemaDifferences_catalog : schemaDifferences catalog firstCatalog =
    .ok [.typeRemoved "Item", .fieldRemoved "Query" "b"] := by
  rw [Outcome.eq_ok_iff_toOption]
  decide +kernel

theorem schemaChanges_rearranged_catalog :
    ∃ changes, schemaChanges turnedCatalog firstCatalog = .ok changes ∧
      changes.map SchemaChange.entry =
        [("Item", "TYPE_REMOVED", .breaking), ("Query.b", "FIELD_REMOVED", .breaking)] ∧
      schemaChanges catalog turnedCatalog = .ok [] := by
  have hturned : Document.Rearranges [itemType, queryExtension 40, queryType]
      [queryType, queryExtension 41, itemType] :=
    List.reverse_perm (Document.unplaced [queryType, queryExtension 41, itemType])
  obtain ⟨⟨changes, changes', hchanges, hchanges', hentries⟩, hnone, -⟩ :=
    schemaChanges_rearranged parse_catalog parse_turnedCatalog parse_firstCatalog
      parse_firstCatalog hturned (.refl _) (by decide +kernel) (by decide +kernel)
  refine ⟨changes', hchanges', hentries.trans ?_, hnone⟩
  rw [schemaChanges_of_sorted schemaDifferences_catalog (by decide +kernel)] at hchanges
  cases hchanges
  decide +kernel

end Catalog

end Ripple.Graphql
