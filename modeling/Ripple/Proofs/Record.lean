import Ripple.Proofs.Gathering
import Ripple.Relation.Basic

/-! # What a list of records says

A list of records leads from keys to targets. Uniting it keeps just that: the united records lead
from the same keys to the same targets, with one record for each key and each target once.
-/
namespace Ripple.Record

/-- A record of the key has the target. -/
def Reaches (records : List Record) (k : String × String × String × RelationKind)
    (t : String) : Prop :=
  ∃ x ∈ records, x.key = k ∧ t ∈ x.targets

theorem reaches_append (records others : List Record)
    (k : String × String × String × RelationKind) (t : String) :
    Reaches (records ++ others) k t ↔ Reaches records k t ∨ Reaches others k t := by
  simp [Reaches, or_and_right, exists_or]

variable (a c b : String) (targets : List String) (k : RelationKind)

@[simp] theorem key_ofTargets : (ofTargets a c b targets k).key = (a, c, b, k) := rfl

@[simp] theorem mem_targets_ofTargets (t : String) :
    t ∈ (ofTargets a c b targets k).targets ↔ t ∈ targets :=
  mem_distinct t targets

theorem nodup_map_key_unite (records : List Record) : ((unite records).map key).Nodup :=
  gathering.nodup_map_key_gather records

theorem targets_of_mem_unite {records : List Record} {x : Record} (h : x ∈ unite records) :
    x.targets = distinct (gathering.partsOf records x.key) :=
  gathering.parts_of_mem_gather h

theorem nodup_targets_of_mem_unite {records : List Record} {x : Record} (h : x ∈ unite records) :
    x.targets.Nodup := by
  rw [targets_of_mem_unite h]
  exact nodup_distinct _

/-- A united record has the targets to which its key leads. -/
theorem mem_targets_of_mem_unite {records : List Record} {x : Record} (h : x ∈ unite records)
    (t : String) : t ∈ x.targets ↔ Reaches records x.key t := by
  rw [targets_of_mem_unite h, mem_distinct, gathering.mem_partsOf]
  rfl

theorem exists_mem_unite_key (records : List Record)
    (k : String × String × String × RelationKind) :
    (∃ x ∈ unite records, x.key = k) ↔ ∃ x ∈ records, x.key = k := by
  have h := gathering.mem_map_key_gather k records
  rwa [List.mem_map, List.mem_map] at h

theorem targets_ne_nil_of_mem_unite {records : List Record} (hne : ∀ x ∈ records, x.targets ≠ [])
    {x : Record} (h : x ∈ unite records) : x.targets ≠ [] := by
  obtain ⟨y, hy, hkey⟩ := (exists_mem_unite_key records x.key).mp ⟨x, h, rfl⟩
  obtain ⟨t, ht⟩ := List.exists_mem_of_ne_nil _ (hne y hy)
  exact List.ne_nil_of_mem ((mem_targets_of_mem_unite h t).mpr ⟨y, hy, hkey, ht⟩)

end Ripple.Record
