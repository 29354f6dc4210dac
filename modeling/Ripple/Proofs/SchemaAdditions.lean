import Ripple.Proofs.SchemaOrder

/-! # What is new in a schema

The report names each new type once, and once each new field that is read. The new fields of a type
form a set, and nothing is said about the order in which a set is gone through. The report does not
show that order: it is sorted by path and kind, which tell every two additions apart, and whatever
else has the path and kind of an addition would stay before it.
-/
namespace Ripple

section Sorting

variable {α : Type} {le : α → α → Bool}

/-- The elements of a list that the order does not tell apart from one element. -/
def tied (le : α → α → Bool) (a : α) (l : List α) : List α := l.filter fun b => le a b && le b a

theorem mem_tied {a b : α} {l : List α} :
    b ∈ tied le a l ↔ b ∈ l ∧ le a b = true ∧ le b a = true := by
  simp [tied]

variable (htrans : ∀ a b c, le a b = true → le b c = true → le a c = true)
  (htotal : ∀ a b, (le a b || le b a) = true)

section Total

include htotal

theorem mem_tied_self {a : α} {l : List α} : a ∈ tied le a l ↔ a ∈ l := by
  have hrefl : le a a = true := by simpa using htotal a a
  simp [mem_tied, hrefl]

theorem mem_iff_of_tied {l l' : List α} (h : ∀ a, tied le a l = tied le a l') (a : α) :
    a ∈ l ↔ a ∈ l' := by
  rw [← mem_tied_self htotal, h a, mem_tied_self htotal]

/-- A sorted list is known by what it has at each place of the order. -/
theorem eq_of_tied {l l' : List α} (hl : l.Pairwise fun a b => le a b = true)
    (hl' : l'.Pairwise fun a b => le a b = true) (h : ∀ a, tied le a l = tied le a l') :
    l = l' := by
  induction l generalizing l' with
  | nil =>
    cases l' with
    | nil => rfl
    | cons b rest' => cases (mem_iff_of_tied htotal h b).mpr List.mem_cons_self
  | cons a rest ih =>
    cases l' with
    | nil => cases (mem_iff_of_tied htotal h a).mp List.mem_cons_self
    | cons b rest' =>
      have hrefl : ∀ c, le c c = true := fun c => by simpa using htotal c c
      rw [List.pairwise_cons] at hl hl'
      -- each of the two heads is in the other list, so the order does not tell them apart
      have hab : le a b = true := by
        rcases List.mem_cons.mp ((mem_iff_of_tied htotal h b).mpr List.mem_cons_self) with rfl | hb
        · exact hrefl b
        · exact hl.1 b hb
      have hba : le b a = true := by
        rcases List.mem_cons.mp ((mem_iff_of_tied htotal h a).mp List.mem_cons_self) with rfl | ha
        · exact hrefl a
        · exact hl'.1 a ha
      obtain rfl : a = b := by
        have hheads := congrArg List.head? (h a)
        simpa [tied, hab, hba, hrefl a] using hheads
      have hrest : ∀ c, tied le c rest = tied le c rest' := by
        intro c
        have hc := h c
        rw [tied, tied, List.filter_cons, List.filter_cons] at hc
        split at hc
        · exact (List.cons.inj hc).2
        · exact hc
      rw [ih hl.2 hl'.2 hrest]

end Total

include htrans htotal

/-- What the order does not tell apart stays as it was. -/
theorem tied_mergeSort (a : α) (l : List α) : tied le a (l.mergeSort le) = tied le a l := by
  have hpairwise : (tied le a l).Pairwise fun b c => le b c = true :=
    List.pairwise_of_forall_mem_list fun b hb c hc =>
      htrans b a c (mem_tied.mp hb).2.2 (mem_tied.mp hc).2.1
  have hsublist : (tied le a l).Sublist (l.mergeSort le) :=
    List.sublist_mergeSort htrans htotal hpairwise List.filter_sublist
  have htied : (tied le a l).Sublist (tied le a (l.mergeSort le)) := by
    simpa [tied] using hsublist.filter fun b => le a b && le b a
  exact (htied.eq_of_length ((List.mergeSort_perm l le).filter _).length_eq.symm).symm

/-- Elements that the order tells apart may come in any order. -/
theorem mergeSort_append_of_perm {l m m' : List α} (hperm : m'.Perm m)
    (hm : m.Pairwise fun a b => ¬(le a b = true ∧ le b a = true)) :
    (l ++ m').mergeSort le = (l ++ m).mergeSort le := by
  refine eq_of_tied htotal (List.pairwise_mergeSort htrans htotal _)
    (List.pairwise_mergeSort htrans htotal _) fun a => ?_
  have hsame : tied le a m' = tied le a m := by
    have htied : (tied le a m').Perm (tied le a m) := hperm.filter _
    have hapart : (tied le a m).Pairwise fun b c => ¬(le b c = true ∧ le c b = true) :=
      hm.filter _
    -- at each place of the order there is at most one of them, and a list of one has one order
    cases hlist : tied le a m with
    | nil => exact List.perm_nil.mp (hlist ▸ htied)
    | cons b rest =>
      cases rest with
      | nil => exact List.perm_singleton.mp (hlist ▸ htied)
      | cons c rest =>
        have hb := (mem_tied.mp (hlist ▸ List.mem_cons_self : b ∈ tied le a m)).2
        have hc := (mem_tied.mp (hlist ▸ by simp : c ∈ tied le a m)).2
        rw [hlist, List.pairwise_cons] at hapart
        exact absurd ⟨htrans b a c hb.2 hc.1, htrans c a b hc.2 hb.1⟩ (hapart.1 c (by simp))
  rw [tied_mergeSort htrans htotal, tied_mergeSort htrans htotal, tied, tied, List.filter_append,
    List.filter_append]
  exact congrArg _ hsame

end Sorting

end Ripple

namespace Ripple.Graphql

/-- The names of types that are left aside: those that start with two underscores, and the standard
scalars. -/
def IsReserved (type : String) : Prop := Text.startsWith type "__" = true ∨ type ∈ Builtin.scalars

instance (type : String) : Decidable (IsReserved type) := inferInstanceAs (Decidable (_ ∨ _))

def SchemaChange.key (c : SchemaChange) : String × String := (c.path, c.kind)

/-- The change is that something is new, and nothing that could break or surprise. -/
def SchemaChange.isAddition (c : SchemaChange) : Bool :=
  c.kind == "TYPE_ADDED" || c.kind == "FIELD_ADDED"

theorem Difference.isAddition_change (d : Difference) :
    d.change.isAddition = true ↔ d.criticality = .nonBreaking := by
  rw [d.criticality_eq, kindCriticality, SchemaChange.isAddition]
  change (d.kind == "TYPE_ADDED" || d.kind == "FIELD_ADDED") = true ↔ _
  split_ifs with hadded <;> simp_all

/-- The new fields of a type in some order, given the type and its older version. -/
structure FieldOrder where
  names : TypeDef → TypeDef → List String
  nodup : ∀ t o, (names t o).Nodup
  mem_names : ∀ t o f, f ∈ names t o ↔ f ∈ t.fields.map (·.name) ∧ f ∉ o.fields.map (·.name)

def FieldOrder.asDefined : FieldOrder where
  names t o := distinct ((Comparison.missing (·.name) t.fields o.fields).map (·.name))
  nodup _ _ := nodup_distinct _
  mem_names t o f := by
    simp only [mem_distinct, List.mem_map, Comparison.mem_missing]
    constructor
    · rintro ⟨g, ⟨hg, hnew⟩, rfl⟩
      exact ⟨⟨g, hg, rfl⟩, hnew⟩
    · rintro ⟨⟨g, hg, rfl⟩, hnew⟩
      exact ⟨g, ⟨hg, hnew⟩, rfl⟩

theorem FieldOrder.names_asDefined {t : TypeDef} (h : t.Distinct) (o : TypeDef) :
    asDefined.names t o = (Comparison.missing (·.name) t.fields o.fields).map (·.name) := by
  refine distinctBy_of_nodup id ?_
  rw [List.map_id]
  exact h.fields.sublist (List.filter_sublist.map _)

namespace Comparison

/-- What is new in a type: the type itself, or the fields that its older version lacks. -/
def additionsOf (order : FieldOrder) (old : Schema) (t : TypeDef) : List Difference :=
  match old.types.find? (·.name = t.name) with
  | none => [.typeAdded t.name]
  | some o =>
    if (t.kind = .object ∨ t.kind = .interface) ∧ o.kind = t.kind then
      (order.names t o).map (.fieldAdded t.name)
    else []

def additionsIn (order : FieldOrder) (old new : Schema) : List Difference :=
  (new.types.filter fun t => !Text.startsWith t.name "__").flatMap (additionsOf order old)

def differencesIn (order : FieldOrder) (old new : Schema) : List Difference :=
  let all := losses old new
  all.filter (·.criticality = .breaking) ++ all.filter (·.criticality = .dangerous) ++
    additionsIn order old new

variable {order order' : FieldOrder} {old new : Schema} {t : TypeDef} {d : Difference}

theorem additionsIn_asDefined (hnew : new.Distinct) :
    additionsIn .asDefined old new = additions old new := by
  refine List.flatMap_congr fun t ht => ?_
  have hparts : t.Distinct := hnew.parts t (List.mem_of_mem_filter ht)
  rw [additionsOf]
  cases old.types.find? (·.name = t.name) with
  | none => rfl
  | some o =>
    dsimp only
    rw [FieldOrder.names_asDefined hparts, List.map_map]
    rfl

theorem names_perm (t o : TypeDef) : (order'.names t o).Perm (order.names t o) := by
  rw [List.perm_ext_iff_of_nodup (order'.nodup t o) (order.nodup t o)]
  intro f
  rw [order'.mem_names, order.mem_names]

theorem additionsIn_perm : (additionsIn order' old new).Perm (additionsIn order old new) := by
  refine List.Perm.flatMap_left _ fun t _ => ?_
  rw [additionsOf, additionsOf]
  cases old.types.find? (·.name = t.name) with
  | none => rfl
  | some o =>
    dsimp only
    split
    · exact (names_perm t o).map _
    · rfl

theorem eq_of_mem_additionsOf (h : d ∈ additionsOf order old t) :
    d = .typeAdded t.name ∨ ∃ f, d = .fieldAdded t.name f := by
  rw [additionsOf] at h
  split at h
  · exact .inl (List.mem_singleton.mp h)
  · split at h
    · obtain ⟨f, -, rfl⟩ := List.mem_map.mp h
      exact .inr ⟨f, rfl⟩
    · cases h

theorem nodup_additionsOf : (additionsOf order old t).Nodup := by
  rw [additionsOf]
  split
  · exact List.nodup_singleton _
  · split
    · exact (order.nodup _ _).map fun f g h => (Difference.fieldAdded.inj h).2
    · exact List.nodup_nil

theorem nodup_additionsIn (hnew : (new.types.map (·.name)).Nodup) :
    (additionsIn order old new).Nodup := by
  rw [additionsIn, List.nodup_flatMap]
  refine ⟨fun t _ => nodup_additionsOf, ?_⟩
  refine (List.Pairwise.filter _ (List.pairwise_map.mp hnew)).imp fun {t t'} hne => ?_
  intro d hd hd'
  rcases eq_of_mem_additionsOf hd with rfl | ⟨f, rfl⟩ <;>
    rcases eq_of_mem_additionsOf hd' with h | ⟨g, h⟩
  · exact hne (Difference.typeAdded.inj h)
  · cases h
  · cases h
  · exact hne (Difference.fieldAdded.inj h).1

theorem differencesIn_asDefined (hnew : new.Distinct) :
    differencesIn .asDefined old new = differences old new := by
  rw [differencesIn, differences, additionsIn_asDefined hnew]

/-- The additions are the differences that neither break anything nor may surprise. -/
theorem filter_differencesIn :
    (differencesIn order old new).filter (·.change.isAddition) = additionsIn order old new := by
  have hlosses : ∀ c, c ≠ .nonBreaking →
      ((losses old new).filter (·.criticality = c)).filter (·.change.isAddition) = [] := by
    intro c hc
    rw [List.filter_filter, List.filter_eq_nil_iff]
    intro d _ h
    rw [Bool.and_eq_true, Difference.isAddition_change, decide_eq_true_eq] at h
    exact hc (h.2.symm.trans h.1)
  have hadditions : ∀ d ∈ additionsIn order old new, d.change.isAddition = true := by
    intro d hd
    obtain ⟨t, -, hd⟩ := List.mem_flatMap.mp hd
    rcases eq_of_mem_additionsOf hd with rfl | ⟨f, rfl⟩ <;> rfl
  rw [differencesIn, List.filter_append, List.filter_append, hlosses .breaking nofun,
    hlosses .dangerous nofun, List.filter_eq_self.mpr hadditions]
  rfl

theorem mem_additionsIn (hold : old.Named) (hparts : new.Distinct) :
    d ∈ additionsIn order old new ↔
      (∃ t, new.LosesType old t ∧ Text.startsWith t "__" = false ∧ .typeAdded t = d) ∨
        ∃ t f, new.LosesIn TypeDef.outputNames old t f ∧ Text.startsWith t "__" = false ∧
          .fieldAdded t f = d := by
  have hperm : (additionsIn order old new).Perm (additionsIn .asDefined old new) := additionsIn_perm
  rw [hperm.mem_iff, additionsIn_asDefined hparts, mem_additions hold]

/-- Paths and kinds tell additions apart. -/
theorem nodup_keys_additionsIn (hold : old.Named) (hnew : new.Named) (hparts : new.Distinct) :
    ((additionsIn order old new).map (·.change.key)).Nodup := by
  refine (nodup_additionsIn hnew.nodup).map_on fun d hd d' hd' hkey => ?_
  have hpath : d.path = d'.path := congrArg Prod.fst hkey
  have hkind : d.kind = d'.kind := congrArg Prod.snd hkey
  have hnamed : ∀ t f, new.LosesIn TypeDef.outputNames old t f → IsName t ∧ IsName f := fun t f h =>
    Schema.Loses.named hnew (p := .field t f) (Schema.losesIn_fieldNames.mpr (.inl h))
  rw [mem_additionsIn hold hparts] at hd hd'
  -- no type has a dot in its name, so the path of a field shows where the type ends
  rcases hd with ⟨t, -, -, rfl⟩ | ⟨t, f, hlost, -, rfl⟩ <;>
    rcases hd' with ⟨t', -, -, rfl⟩ | ⟨t', f', -, -, rfl⟩
  · exact congrArg Difference.typeAdded hpath
  · exact absurd hkind (by simp [Difference.kind])
  · exact absurd hkind (by simp [Difference.kind])
  · obtain ⟨rfl, rfl⟩ := dotted_inj (hnamed t f hlost).1 (hnamed t f hlost).2 hpath
    rfl

theorem filter_sorted (found : List Difference) :
    ((sorted found).filter (·.isAddition)).Perm
      ((found.filter (·.change.isAddition)).map (·.change)) := by
  have hperm := (List.mergeSort_perm (found.map (·.change)) inOrder).filter (·.isAddition)
  rwa [List.filter_map] at hperm

/-- The additions in the report, in some order. -/
theorem filter_sorted_differences (old : Schema) (hparts : new.Distinct) :
    ((sorted (differences old new)).filter (·.isAddition)).Perm
      ((additionsIn .asDefined old new).map (·.change)) := by
  rw [← differencesIn_asDefined hparts, ← filter_differencesIn]
  exact filter_sorted _

/-- The report does not show in which order new fields were gone through. -/
theorem sorted_differencesIn (hold : old.Named) (hnew : new.Named) (hparts : new.Distinct) :
    sorted (differencesIn order old new) = sorted (differences old new) := by
  have htrans : ∀ a b c, inOrder a b = true → inOrder b c = true → inOrder a c = true :=
    fun _ _ _ => inOrder_trans
  simp only [← differencesIn_asDefined hparts, sorted, differencesIn, List.map_append]
  refine mergeSort_append_of_perm htrans inOrder_total (additionsIn_perm.map _) ?_
  have hkeys : ((additionsIn .asDefined old new).map (·.change.key)).Nodup :=
    nodup_keys_additionsIn hold hnew hparts
  rw [List.pairwise_map]
  refine (List.pairwise_map.mp hkeys).imp fun {d d'} hne htied => ?_
  obtain ⟨hpath, hkind⟩ := inOrder_antisymm htied.1 htied.2
  exact hne (Prod.ext hpath hkind)

end Comparison

theorem Schema.distinct_of_parse {text : List Char} {s : Schema} (h : parse text = .ok s) :
    s.Distinct := by
  obtain ⟨doc, -, hfaults, -, rfl⟩ := parse_eq_ok_iff.mp h
  exact distinct_ofDocument hfaults

/-- A schema does not define standard types anew. -/
theorem Schema.notMem_typeNames {text : List Char} {s : Schema} (h : parse text = .ok s)
    {t : String} (ht : t ∈ s.types.map (·.name)) : t ∉ Builtin.typeNames := by
  obtain ⟨doc, -, -, -, rfl⟩ := parse_eq_ok_iff.mp h
  obtain ⟨d, hd, rfl⟩ := List.mem_map.mp ht
  obtain ⟨e, he, rfl⟩ := List.mem_map.mp hd
  change e.name ∉ Builtin.typeNames
  simpa using (List.mem_filter.mp he).2

theorem Schema.not_isReserved_iff {text : List Char} {s : Schema} (h : parse text = .ok s)
    {t : String} (ht : t ∈ s.types.map (·.name)) :
    ¬IsReserved t ↔ Text.startsWith t "__" = false := by
  have hscalar : t ∉ Builtin.scalars := fun hmem =>
    notMem_typeNames h ht (List.mem_append_left _ hmem)
  simp [IsReserved, hscalar]

open Comparison

/-- The changes from one schema text to another, where the new fields of each type are gone through
in a given order. -/
def schemaChangesIn (order : FieldOrder) (old new : String) :
    Except ComparisonFault (List SchemaChange) := do
  let read (s : String) : Except ComparisonFault Schema :=
    (Schema.parse s.toList).mapError fun f => ⟨s.toList, f⟩
  return sorted (differencesIn order (← read old) (← read new))

section Texts

variable {old new : String} {s s' : Schema}

theorem schemaChangesIn_of_parse (hs : Schema.parse old.toList = .ok s)
    (hs' : Schema.parse new.toList = .ok s') (order : FieldOrder) :
    schemaChangesIn order old new = .ok (sorted (differencesIn order s s')) := by
  rw [schemaChangesIn]
  dsimp only
  rw [hs, hs']
  rfl

/-- Two texts that build are compared, and the additions in the report are the types that only the
new schema has and the fields that are read and that only the new version of an object or interface
has. Each of them is reported once, and nothing of a type with a reserved name. The report is the
same in whatever order the new fields of each type are gone through. -/
theorem schemaChanges_additions (hs : Schema.parse old.toList = .ok s)
    (hs' : Schema.parse new.toList = .ok s') :
    ∃ changes, schemaChanges old new = .ok changes ∧
      ((changes.filter (·.isAddition)).map (·.key)).Nodup ∧
      (∀ c, c ∈ changes.filter (·.isAddition) ↔
        (∃ t, s'.LosesType s t ∧ ¬IsReserved t ∧ (Difference.typeAdded t).change = c) ∨
          ∃ t f, s'.LosesIn TypeDef.outputNames s t f ∧ ¬IsReserved t ∧
            (Difference.fieldAdded t f).change = c) ∧
      ∀ order : FieldOrder, schemaChangesIn order old new = .ok changes := by
  have hold := Schema.named_of_parse hs
  have hnew := Schema.named_of_parse hs'
  have hparts := Schema.distinct_of_parse hs'
  refine ⟨_, schemaChanges_of_parse hs hs', ?_, fun c => ?_, fun order => ?_⟩
  · have hperm := (filter_sorted_differences s hparts).map SchemaChange.key
    rw [hperm.nodup_iff, List.map_map]
    exact nodup_keys_additionsIn hold hnew hparts
  · have htype : ∀ t, s'.LosesType s t → (¬IsReserved t ↔ Text.startsWith t "__" = false) :=
      fun t h => Schema.not_isReserved_iff hs' h.1
    have hfield : ∀ t f, s'.LosesIn TypeDef.outputNames s t f →
        (¬IsReserved t ↔ Text.startsWith t "__" = false) := by
      rintro _ f ⟨d, hd, -, -, rfl, -⟩
      exact Schema.not_isReserved_iff hs' (List.mem_map_of_mem hd)
    rw [(filter_sorted_differences s hparts).mem_iff, List.mem_map]
    simp only [mem_additionsIn hold hparts]
    constructor
    · rintro ⟨d, ⟨t, h, hname, rfl⟩ | ⟨t, f, h, hname, rfl⟩, rfl⟩
      · exact .inl ⟨t, h, (htype t h).mpr hname, rfl⟩
      · exact .inr ⟨t, f, h, (hfield t f h).mpr hname, rfl⟩
    · rintro (⟨t, h, hname, rfl⟩ | ⟨t, f, h, hname, rfl⟩)
      · exact ⟨_, .inl ⟨t, h, (htype t h).mp hname, rfl⟩, rfl⟩
      · exact ⟨_, .inr ⟨t, f, h, (hfield t f h).mp hname, rfl⟩, rfl⟩
  · rw [schemaChangesIn_of_parse hs hs', sorted_differencesIn hold hnew hparts]

end Texts

section Menus

/-- An object type with fields for numbers. -/
def numbers (name : String) (fields : List String) : TypeDef :=
  ⟨name, .object, [], [], fields.map fun f => ⟨f, [], .named "Int", []⟩, [], [], []⟩

def menu : String := "type Query{a:Int}"

def laterMenu : String := "type Query{a:Int c:Int b:Int}type Dish{a:Int}"

theorem parse_menu : Schema.parse menu.toList =
    .ok ⟨[numbers "Query" ["a"]], Builtin.directives⟩ := by
  rw [Outcome.eq_ok_iff_toOption]
  decide +kernel

theorem parse_laterMenu : Schema.parse laterMenu.toList =
    .ok ⟨[numbers "Query" ["a", "c", "b"], numbers "Dish" ["a"]], Builtin.directives⟩ := by
  rw [Outcome.eq_ok_iff_toOption]
  decide +kernel

theorem schemaChanges_additions_menu :
    ∃ changes, schemaChanges menu laterMenu = .ok changes ∧
      changes.map SchemaChange.entry =
        [("Dish", "TYPE_ADDED", .nonBreaking), ("Query.b", "FIELD_ADDED", .nonBreaking),
          ("Query.c", "FIELD_ADDED", .nonBreaking)] ∧
      (Difference.typeAdded "Dish").change ∈ changes ∧
      (Difference.fieldAdded "Query" "b").change ∈ changes ∧
      ∀ order : FieldOrder, schemaChangesIn order menu laterMenu = .ok changes := by
  obtain ⟨changes, hchanges, -, hadditions, horder⟩ :=
    schemaChanges_additions parse_menu parse_laterMenu
  refine ⟨changes, hchanges, ?_, ?_, ?_, horder⟩
  · let inPlace := [Difference.typeAdded "Dish", .fieldAdded "Query" "b", .fieldAdded "Query" "c"]
    have hperm : (differences ⟨[numbers "Query" ["a"]], Builtin.directives⟩
        ⟨[numbers "Query" ["a", "c", "b"], numbers "Dish" ["a"]], Builtin.directives⟩).Perm
          inPlace := by
      decide +kernel
    have hsorted : sorted inPlace = inPlace.map (·.change) :=
      List.mergeSort_of_pairwise (by decide)
    rw [schemaChanges_of_parse parse_menu parse_laterMenu] at hchanges
    cases hchanges
    rw [sorted_entries_of_perm hperm, hsorted]
    rfl
  · refine List.mem_of_mem_filter ((hadditions _).mpr (.inl ⟨"Dish", ?_, by decide, rfl⟩))
    exact ⟨by decide, by decide⟩
  · refine List.mem_of_mem_filter ((hadditions _).mpr (.inr ⟨"Query", "b", ?_, by decide, rfl⟩))
    exact ⟨numbers "Query" ["a", "c", "b"], by simp, numbers "Query" ["a"], by simp, by decide⟩

/-- A type whose name starts with two underscores, as nothing keeps a schema from having. -/
def reservedMenu : String := "type Query{a:Int}type __Page{a:Int}"

/-- The same with a new field of that type, and another type of that sort. -/
def laterReservedMenu : String := "type Query{a:Int}type __Page{a:Int b:Int}type __Draft{a:Int}"

theorem parse_reservedMenu : Schema.parse reservedMenu.toList =
    .ok ⟨[numbers "Query" ["a"], numbers "__Page" ["a"]], Builtin.directives⟩ := by
  rw [Outcome.eq_ok_iff_toOption]
  decide +kernel

theorem parse_laterReservedMenu : Schema.parse laterReservedMenu.toList =
    .ok ⟨[numbers "Query" ["a"], numbers "__Page" ["a", "b"], numbers "__Draft" ["a"]],
      Builtin.directives⟩ := by
  rw [Outcome.eq_ok_iff_toOption]
  decide +kernel

/-- A new type and a new field of a type are not reported where the names of the types start with
two underscores, although neither type is one of those that describe schemas. -/
theorem schemaChanges_skip_reserved :
    ∃ s s', Schema.parse reservedMenu.toList = .ok s ∧
      Schema.parse laterReservedMenu.toList = .ok s' ∧
      s'.LosesType s "__Draft" ∧ "__Draft" ∉ Builtin.typeNames ∧
      s'.LosesIn TypeDef.outputNames s "__Page" "b" ∧ "__Page" ∉ Builtin.typeNames ∧
      schemaChanges reservedMenu laterReservedMenu = .ok [] := by
  refine ⟨_, _, parse_reservedMenu, parse_laterReservedMenu, ⟨by decide, by decide⟩, by decide, ?_,
    by decide, ?_⟩
  · exact ⟨numbers "__Page" ["a", "b"], by simp, numbers "__Page" ["a"], by simp, by decide⟩
  · rw [schemaChanges_of_parse parse_reservedMenu parse_laterReservedMenu]
    rw [Outcome.eq_ok_iff_toOption]
    decide +kernel

end Menus

end Ripple.Graphql
