import Ripple.Impact.Merge
import Ripple.Proofs.Correlation
import Ripple.Regex.Names

/-! # Correlation sees what merging keeps

Merging keeps the component and the file of every impact and the kinds of its reasons. It may drop
descriptions, which nothing but the signal of queues reads. So relations of every other kind find
the same records, with the same targets in the same order, whether the impacts of each repository
are merged before or not. The order of the records may change: a merged impact stands where its key
stands first, even if only a later impact on it triggers.
-/
namespace Ripple

def RepoImpacts.merged (repo : RepoImpacts) : RepoImpacts :=
  { repo with impacts := Impact.merge repo.impacts }

namespace Impact

def bare (i : Impact) : Impact := { i with reasons := [] }

theorem hasReason_iff (i : Impact) (kind : ReasonKind) :
    i.hasReason kind = true ↔ ∃ reason ∈ i.reasons, reason.kind = kind := by
  simp [hasReason]

theorem exists_mem_merge_key (items : List Impact) (k : String × String) :
    (∃ i ∈ merge items, i.key = k) ↔ ∃ i ∈ items, i.key = k := by
  have h := gathering.mem_map_key_gather k items
  rwa [List.mem_map, List.mem_map] at h

/-- A merged impact has the kinds of reasons of all impacts of its key. -/
theorem hasReason_of_mem_merge {items : List Impact} {i : Impact} (h : i ∈ merge items)
    (kind : ReasonKind) :
    i.hasReason kind = true ↔ ∃ j ∈ items, j.key = i.key ∧ j.hasReason kind = true := by
  have hreasons : i.reasons = distinctBy Reason.key (gathering.partsOf items i.key) :=
    gathering.parts_of_mem_gather h
  rw [hasReason_iff, hreasons]
  constructor
  · rintro ⟨reason, hreason, hkind⟩
    have hpart := mem_of_mem_distinctBy Reason.key hreason
    obtain ⟨j, hj, hkey, hmem⟩ := (gathering.mem_partsOf items i.key reason).mp hpart
    exact ⟨j, hj, hkey, (hasReason_iff j kind).mpr ⟨reason, hmem, hkind⟩⟩
  · rintro ⟨j, hj, hkey, hhas⟩
    obtain ⟨reason, hmem, hkind⟩ := (hasReason_iff j kind).mp hhas
    have hpart := (gathering.mem_partsOf items i.key reason).mpr ⟨j, hj, hkey, hmem⟩
    obtain ⟨first, hfirst, hsame⟩ := exists_mem_distinctBy Reason.key hpart
    exact ⟨first, hfirst, (congrArg Prod.fst hsame).trans hkind⟩

end Impact

namespace Signal

/-- The kind of reason that shows a signal by itself. -/
def kind? : Signal → Option ReasonKind
  | .graphqlTrigger => some .schema
  | .dependencyTrigger => some .dependency
  | _ => none

variable {s : Signal}

/-- Apart from the signal of queues, a signal is shown by the component and the file or by the kind
of a reason. -/
theorem holds_iff (hs : s ≠ .sqs) (i : Impact) :
    s.holds i = true ↔ s.holds i.bare = true ∨ ∃ kind ∈ s.kind?, i.hasReason kind = true := by
  cases s with
  | sqs => exact absurd rfl hs
  | graphqlTrigger =>
    simp [holds, kind?, Impact.bare, Impact.hasReason, or_assoc, or_comm, or_left_comm]
  | dependencyTrigger => simp [holds, kind?, Impact.bare, Impact.hasReason, or_assoc, or_comm]
  | _ => simp [holds, kind?, Impact.bare]

theorem holds_bare_congr {i j : Impact} (h : i.key = j.key) (s : Signal) :
    s.holds i.bare = s.holds j.bare := by
  obtain ⟨hcomponent, hfile⟩ := Prod.mk.inj h
  cases s <;> simp [holds, Impact.bare, Impact.hasReason, hcomponent, hfile]

/-- A signal that no reason shows is read off the key. -/
theorem holds_congr (hs : s ≠ .sqs) (hkind : s.kind? = none) {i j : Impact} (h : i.key = j.key) :
    s.holds i = s.holds j := by
  rw [Bool.eq_iff_iff, holds_iff hs i, holds_iff hs j, holds_bare_congr h, hkind]
  simp

/-- A signal is shown on the same keys before and after merging. -/
theorem exists_holds_merge_iff (hs : s ≠ .sqs) (items : List Impact) (k : String × String) :
    (∃ i ∈ Impact.merge items, i.key = k ∧ s.holds i = true) ↔
      ∃ i ∈ items, i.key = k ∧ s.holds i = true := by
  constructor
  · rintro ⟨i, hi, rfl, hholds⟩
    rcases (holds_iff hs i).mp hholds with hbare | ⟨kind, hkind, hhas⟩
    · obtain ⟨j, hj, hkey⟩ := (Impact.exists_mem_merge_key items i.key).mp ⟨i, hi, rfl⟩
      exact ⟨j, hj, hkey, (holds_iff hs j).mpr (.inl (holds_bare_congr hkey s ▸ hbare))⟩
    · obtain ⟨j, hj, hkey, hhas⟩ := (Impact.hasReason_of_mem_merge hi kind).mp hhas
      exact ⟨j, hj, hkey, (holds_iff hs j).mpr (.inr ⟨kind, hkind, hhas⟩)⟩
  · rintro ⟨j, hj, rfl, hholds⟩
    obtain ⟨i, hi, hkey⟩ := (Impact.exists_mem_merge_key items j.key).mpr ⟨j, hj, rfl⟩
    refine ⟨i, hi, hkey, (holds_iff hs i).mpr ?_⟩
    rcases (holds_iff hs j).mp hholds with hbare | ⟨kind, hkind, hhas⟩
    · exact .inl (holds_bare_congr hkey s ▸ hbare)
    · exact .inr ⟨kind, hkind, (Impact.hasReason_of_mem_merge hi kind).mpr ⟨j, hj, hkey.symm, hhas⟩⟩

end Signal

/-- Of the merged impacts that a property of keys selects, the components are those of all selected
impacts, in the same order. -/
theorem distinct_components_merge {p : Impact → Bool}
    (hp : ∀ i j : Impact, i.key = j.key → p i = p j) (items : List Impact) :
    distinct (((Impact.merge items).filter p).map (·.component)) =
      distinct ((items.filter p).map (·.component)) := by
  have hmerged : ((Impact.merge items).filter p).map (·.component) =
      (distinctBy Impact.key (items.filter p)).map (·.component) := by
    have hcarrying : ∀ (i : Impact) (reasons : List Reason),
        p (Impact.gathering.carrying i reasons) = p i := fun i reasons => hp _ _ rfl
    rw [distinctBy_filter Impact.key hp, Impact.merge, Impact.gathering.gather_eq, List.filter_map,
      List.map_map]
    simp only [Function.comp_def, hcarrying]
    rfl
  have hfiner : ∀ i j : Impact, i.key = j.key → id i.component = id j.component :=
    fun i j h => congrArg Prod.fst h
  rw [hmerged, distinct, distinct, distinctBy_map, distinctBy_map,
    distinctBy_distinctBy_of_finer Impact.key hfiner]

section

variable [Regex.Names]

theorem consumes_congr {consumer : Signal} (hs : consumer ≠ .sqs) (hkind : consumer.kind? = none)
    (patterns : List String) {i j : Impact} (h : i.key = j.key) :
    consumes consumer patterns i = consumes consumer patterns j := by
  have hfile : i.file = j.file := congrArg Prod.snd h
  rw [consumes, consumes, Signal.holds_congr hs hkind h, hfile]

theorem consumers_merge {consumer : Signal} (hs : consumer ≠ .sqs) (hkind : consumer.kind? = none)
    (patterns : List String) (items : List Impact) :
    consumers consumer patterns (Impact.merge items) = consumers consumer patterns items := by
  have hcongr : ∀ {i j : Impact}, i.key = j.key →
      consumes consumer patterns i = consumes consumer patterns j :=
    consumes_congr hs hkind patterns
  by_cases hstalls : ∃ i ∈ items, StallsOn consumer patterns i
  · obtain ⟨f, hf⟩ := consumers_fails hstalls
    obtain ⟨i, hi, hstalls⟩ := hstalls
    obtain ⟨j, hj, hkey⟩ := (Impact.exists_mem_merge_key items i.key).mpr ⟨i, hi, rfl⟩
    rw [← consumes_fails_iff, ← hcongr hkey, consumes_fails_iff] at hstalls
    obtain ⟨g, hg⟩ := consumers_fails ⟨j, hj, hstalls⟩
    -- both meet the first of the patterns whose count is out of range
    have hsame : some g = some f :=
      (findSome?_refusal?_of_consumers hg).symm.trans (findSome?_refusal?_of_consumers hf)
    rw [hf, hg, Option.some.inj hsame]
  · let p : Impact → Bool := fun i => (consumes consumer patterns i).toOption.getD false
    have hp : ∀ i j : Impact, i.key = j.key → p i = p j := fun i j h => by simp only [p, hcongr h]
    have hitems : ∀ i ∈ items, consumes consumer patterns i = .ok (p i) := by
      intro i hi
      cases hc : consumes consumer patterns i with
      | error f => exact absurd ⟨i, hi, (consumes_fails_iff ..).mp ⟨f, hc⟩⟩ hstalls
      | ok b => simp [p, hc, Except.toOption]
    have hmerged : ∀ j ∈ Impact.merge items, consumes consumer patterns j = .ok (p j) := by
      intro j hj
      obtain ⟨i, hi, hkey⟩ := (Impact.exists_mem_merge_key items j.key).mp ⟨j, hj, rfl⟩
      rw [← hcongr hkey, hitems i hi, hp i j hkey]
    rw [consumers_of_answers hmerged, consumers_of_answers hitems, distinct_components_merge hp]

end

namespace Record

/-- The records have the same keys and lead from each to the same targets in the same order. -/
def SameTargets (records others : List Record) : Prop :=
  ∀ k, (k ∈ records.map key ↔ k ∈ others.map key) ∧
    distinct (gathering.partsOf records k) = distinct (gathering.partsOf others k)

theorem SameTargets.refl (records : List Record) : SameTargets records records :=
  fun _ => ⟨Iff.rfl, rfl⟩

theorem SameTargets.symm {records others : List Record} (h : SameTargets records others) :
    SameTargets others records :=
  fun k => ⟨(h k).1.symm, (h k).2.symm⟩

theorem SameTargets.append {records others records' others' : List Record}
    (h : SameTargets records others) (h' : SameTargets records' others') :
    SameTargets (records ++ records') (others ++ others') := by
  intro k
  constructor
  · rw [List.map_append, List.map_append, List.mem_append, List.mem_append, (h k).1, (h' k).1]
  · rw [gathering.partsOf_append, gathering.partsOf_append]
    exact distinctBy_append_congr id (h k).2 (h' k).2

theorem mem_unite_of_sameTargets {records others : List Record} (h : SameTargets records others)
    {x : Record} (hx : x ∈ unite records) : x ∈ unite others := by
  have hkey : x.key ∈ records.map key :=
    (gathering.mem_map_key_gather x.key records).mp (List.mem_map_of_mem hx)
  obtain ⟨y, hy, hsame⟩ := List.mem_map.mp
    ((gathering.mem_map_key_gather x.key others).mpr ((h x.key).1.mp hkey))
  have htargets : y.targets = x.targets := by
    rw [targets_of_mem_unite hx, targets_of_mem_unite hy, show y.key = x.key from hsame,
      (h x.key).2]
  have hyx : y = x := by
    cases x
    cases y
    simp_all [gathering, key]
  exact hyx ▸ hy

/-- They unite to the same records, perhaps in another order. -/
theorem SameTargets.perm {records others : List Record} (h : SameTargets records others) :
    (unite records).Perm (unite others) :=
  (List.perm_ext_iff_of_nodup (nodup_map_key_unite records).of_map
    (nodup_map_key_unite others).of_map).mpr
      fun _ => ⟨mem_unite_of_sameTargets h, mem_unite_of_sameTargets h.symm⟩

theorem distinct_partsOf {records : List Record} {k : String × String × String × RelationKind}
    {targets : List String} (hall : ∀ x ∈ records, x.key = k → x.targets = targets)
    (hsome : k ∈ records.map key) : distinct (gathering.partsOf records k) = distinct targets := by
  induction records with
  | nil => cases hsome
  | cons x rest ih =>
    have hrest : ∀ y ∈ rest, y.key = k → y.targets = targets := fun y hy =>
      hall y (List.mem_cons_of_mem x hy)
    have hfirst : gathering.partsOf [x] k = if x.key = k then x.targets else [] :=
      gathering.partsOf_singleton x k
    rw [← List.singleton_append, gathering.partsOf_append, hfirst]
    by_cases hx : x.key = k
    · have hsubset : gathering.partsOf rest k ⊆ targets := by
        intro t ht
        obtain ⟨y, hy, hkey, ht⟩ := (gathering.mem_partsOf rest k t).mp ht
        exact hrest y hy hkey ▸ ht
      rw [if_pos hx, hall x List.mem_cons_self hx]
      exact distinctBy_append_of_subset id (List.map_subset id hsubset)
    · rw [if_neg hx, List.nil_append]
      exact ih hrest ((List.mem_cons.mp hsome).resolve_left (Ne.symm hx))

/-- Of records that lead from several components to the same targets, only the set of the components
counts. -/
theorem sameTargets_ofTargets (a b : String) (targets : List String) (k : RelationKind)
    {components others : List String} (h : ∀ c, c ∈ components ↔ c ∈ others) :
    SameTargets (components.map fun c => ofTargets a c b targets k)
      (others.map fun c => ofTargets a c b targets k) := by
  have hkeys : ∀ (cs : List String) (k' : String × String × String × RelationKind),
      k' ∈ (cs.map fun c => ofTargets a c b targets k).map key ↔
        ∃ c ∈ cs, (a, c, b, k) = k' := by simp
  have hall : ∀ (cs : List String) (k' : String × String × String × RelationKind),
      ∀ x ∈ cs.map (fun c => ofTargets a c b targets k), x.key = k' →
        x.targets = distinct targets := by
    intro cs k' x hx _
    obtain ⟨c, _, rfl⟩ := List.mem_map.mp hx
    rfl
  intro k'
  have hsame : k' ∈ (components.map fun c => ofTargets a c b targets k).map key ↔
      k' ∈ (others.map fun c => ofTargets a c b targets k).map key := by
    simp only [hkeys, h]
  refine ⟨hsame, ?_⟩
  by_cases hk : k' ∈ (components.map fun c => ofTargets a c b targets k).map key
  · rw [distinct_partsOf (hall components k') hk, distinct_partsOf (hall others k') (hsame.mp hk)]
  · rw [gathering.partsOf_eq_nil hk, gathering.partsOf_eq_nil (mt hsame.mpr hk)]

end Record

namespace Matcher

/-- Of what the matcher reads, merging keeps everything: it reads no descriptions, and of the
impacts of the target it reads nothing but the keys. -/
structure ReadsKept (m : Matcher) : Prop where
  trigger : m.trigger ≠ .sqs
  consumer : m.consumer ≠ .sqs
  consumer_kind : m.consumer.kind? = none

theorem readsKept_matcher {k : RelationKind} (h : k ≠ .sqs) : k.matcher.ReadsKept := by
  cases k with
  | sqs => exact absurd rfl h
  | _ => exact ⟨by decide, by decide, rfl⟩

variable {m : Matcher} (hm : m.ReadsKept) (source target : RepoImpacts) (r : Relation)

include hm

theorem triggers_merged_iff (c : String) : m.Triggers source.merged c ↔ m.Triggers source c := by
  have hkey := Signal.exists_holds_merge_iff hm.trigger source.impacts
  constructor
  · rintro ⟨i, hi, rfl, hholds⟩
    obtain ⟨j, hj, hsame, hholds⟩ := (hkey i.key).mp ⟨i, hi, rfl, hholds⟩
    exact ⟨j, hj, congrArg Prod.fst hsame, hholds⟩
  · rintro ⟨j, hj, rfl, hholds⟩
    obtain ⟨i, hi, hsame, hholds⟩ := (hkey j.key).mpr ⟨j, hj, rfl, hholds⟩
    exact ⟨i, hi, congrArg Prod.fst hsame, hholds⟩

theorem sameTargets_merged (b : String) (targets : List String) (k : RelationKind) :
    Record.SameTargets
      ((source.merged.impacts.filter m.trigger.holds).map fun i =>
        Record.ofTargets source.name i.component b targets k)
      ((source.impacts.filter m.trigger.holds).map fun i =>
        Record.ofTargets source.name i.component b targets k) := by
  have hmem : ∀ (repo : RepoImpacts) (t : String),
      t ∈ (repo.impacts.filter m.trigger.holds).map (·.component) ↔ m.Triggers repo t := by
    intro repo t
    rw [m.triggers_iff, List.mem_map]
  have hrecords := Record.sameTargets_ofTargets source.name b targets k fun t =>
    (hmem source.merged t).trans ((triggers_merged_iff hm source t).trans (hmem source t).symm)
  rwa [List.map_map, List.map_map] at hrecords

variable [Regex.Names]

/-- Between merged repositories the matcher finds records that unite to the same. -/
theorem correlate_merged_alike :
    Outcome.Alike Record.SameTargets (m.correlate source.merged target.merged r)
      (m.correlate source target r) := by
  by_cases h : ∃ c, m.Triggers source c
  · obtain ⟨c, hc⟩ := h
    have hconsumers : consumers m.consumer (m.globs r) target.merged.impacts =
        consumers m.consumer (m.globs r) target.impacts :=
      consumers_merge hm.consumer hm.consumer_kind _ _
    rw [m.correlate_of_triggers source target r hc,
      m.correlate_of_triggers source.merged target.merged r
        ((triggers_merged_iff hm source c).mpr hc), hconsumers]
    cases consumers m.consumer (m.globs r) target.impacts with
    | error f => exact .error f
    | ok targets =>
      refine .ok ?_
      by_cases hempty : targets.isEmpty = true
      · simp only [if_pos hempty]
        exact .refl []
      · simp only [if_neg hempty]
        exact sameTargets_merged hm source target.name targets r.via
  · have hmerged : ¬ ∃ c, m.Triggers source.merged c := by
      simpa only [triggers_merged_iff hm source] using h
    rw [m.correlate_of_no_trigger source target r h,
      m.correlate_of_no_trigger source.merged target.merged r hmerged]
    exact .ok (.refl [])

end Matcher

namespace Correlation

variable (registry : MatcherRegistry) (repos : List RepoImpacts)

theorem findRepo?_merged (name : String) :
    findRepo? (repos.map RepoImpacts.merged) name =
      (findRepo? repos name).map RepoImpacts.merged :=
  List.find?_map ..

variable {registry}

theorem find?_standard (k : RelationKind) :
    MatcherRegistry.standard.find? k.text = some k.matcher := by
  cases k <;> rfl

section

variable [Regex.Names]

theorem relate_merged_alike {r : Relation}
    (h : ∀ m, registry.find? r.via.text = some m → m.ReadsKept) :
    Outcome.Alike Record.SameTargets (relate registry (repos.map RepoImpacts.merged) r)
      (relate registry repos r) := by
  rw [relate, relate, findRepo?_merged, findRepo?_merged]
  cases findRepo? repos r.source with
  | none => exact .ok (.refl [])
  | some source =>
    cases findRepo? repos r.target with
    | none => exact .ok (.refl [])
    | some target =>
      cases hm : registry.find? r.via.text with
      | none => exact .ok (.refl [])
      | some m => exact Matcher.correlate_merged_alike (h m hm) source target r

theorem relateAll_merged_alike {relations : List Relation}
    (h : ∀ r ∈ relations, ∀ m, registry.find? r.via.text = some m → m.ReadsKept) :
    Outcome.Alike Record.SameTargets (relateAll registry (repos.map RepoImpacts.merged) relations)
      (relateAll registry repos relations) := by
  induction relations with
  | nil => exact .ok (.refl [])
  | cons r rest ih =>
    refine (relate_merged_alike repos (h r List.mem_cons_self)).bind fun found found' hfound => ?_
    refine (ih fun s hs => h s (List.mem_cons_of_mem r hs)).bind fun others others' hothers => ?_
    exact .ok (hfound.append hothers)

/-- Whether the impacts of each repository are merged before or not, the relations of all kinds but
queues find the same records, or both fail. Only the order of the records may differ. -/
theorem correlate_merged {relations : List Relation} (h : ∀ r ∈ relations, r.via ≠ .sqs)
    (repos : List RepoImpacts) :
    Outcome.Alike List.Perm
      (correlate .standard (repos.map RepoImpacts.merged) relations)
      (correlate .standard repos relations) := by
  refine (relateAll_merged_alike repos fun r hr m hm => ?_).map fun _ _ => Record.SameTargets.perm
  rw [find?_standard] at hm
  cases hm
  exact Matcher.readsKept_matcher (h r hr)

end

/-- A component whose schema changes after another reason for it was found. -/
def laterSchema : List RepoImpacts :=
  [⟨"api", [.single "api" "Users" "users.ts" .direct "users.ts" "edited" none,
      .single "api" "Orders" "orders.ts" .schema "orders.ts" "changed" none,
      .single "api" "Users" "users.ts" .schema "schema-diff" "changed" none]⟩,
    ⟨"web", [.single "web" "List" "apollo/list.ts" .direct "apollo/list.ts" "edited" none]⟩]

def schemaRelation : Relation := ⟨"api", "web", .graphqlSchema, none⟩

def usersRecord : Record := .ofTargets "api" "Users" "web" ["List"] .graphqlSchema

def ordersRecord : Record := .ofTargets "api" "Orders" "web" ["List"] .graphqlSchema

/-- Once its impacts are merged, the component comes first. -/
theorem correlate_merged_laterSchema :
    schemaRelation.via ≠ .sqs ∧
      correlate .standard (laterSchema.map RepoImpacts.merged) [schemaRelation] =
        .ok [usersRecord, ordersRecord] ∧
      correlate .standard laterSchema [schemaRelation] = .ok [ordersRecord, usersRecord] ∧
      [usersRecord, ordersRecord].Perm [ordersRecord, usersRecord] := by
  have hvia : ∀ r ∈ [schemaRelation], r.via ≠ .sqs := by decide
  have hmerged : correlate .standard (laterSchema.map RepoImpacts.merged) [schemaRelation] =
      .ok [usersRecord, ordersRecord] := by
    rw [Outcome.eq_ok_iff_toOption]
    decide +kernel
  have hplain : correlate .standard laterSchema [schemaRelation] =
      .ok [ordersRecord, usersRecord] := by
    rw [Outcome.eq_ok_iff_toOption]
    decide +kernel
  have halike := correlate_merged hvia laterSchema
  rw [hmerged, hplain] at halike
  cases halike with
  | ok hperm => exact ⟨by decide, hmerged, hplain, hperm⟩

end Correlation

end Ripple
