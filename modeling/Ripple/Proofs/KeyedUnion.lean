import Ripple.Impact.Merge
import Ripple.Proofs.Record

/-! # The keyed union

Two facts settle what gathering gives: the keys are those of the list in the order in which they
first occur, and every element is the first one of its key with the parts of all elements of that
key in a row, of which those that repeat an earlier one are left out. No other list is like this. So
it is with the merged impacts of a repository and with united records, however the elements of one
key repeat each other's parts or stand among elements of other keys.
-/
namespace Ripple

theorem distinctBy_eq_eraseDupsBy {α κ : Type} [DecidableEq κ] (key : α → κ) :
    ∀ l : List α, distinctBy key l = l.eraseDupsBy fun a b => key a = key b
  | [] => rfl
  | a :: rest => by
    -- the library leaves out the repetitions of the first element before it goes on
    have hkeys : ∀ b c, key b = key c → decide (key b ≠ key a) = decide (key c ≠ key a) := by
      intro b c h
      rw [h]
    rw [distinctBy, ← distinctBy_filter key hkeys, distinctBy_eq_eraseDupsBy key (rest.filter _),
      List.eraseDupsBy_cons]
    simp
termination_by l => l.length
decreasing_by
  exact Nat.lt_succ_of_le (List.length_filter_le _ _)

theorem distinct_eq_eraseDups {α : Type} [DecidableEq α] [BEq α] [LawfulBEq α] (l : List α) :
    distinct l = l.eraseDups := by
  rw [distinct, distinctBy_eq_eraseDupsBy, List.eraseDups]
  congr
  ext a b
  simp [beq_eq_decide]

theorem map_key_distinctBy {α κ : Type} [DecidableEq κ] [BEq κ] [LawfulBEq κ] (key : α → κ)
    (l : List α) : (distinctBy key l).map key = (l.map key).eraseDups := by
  rw [← distinct_eq_eraseDups, distinct, distinctBy_map]
  rfl

/-- Lists with the same keys are the same if a key determines its element. -/
theorem eq_of_map_key_eq {α κ : Type} {key : α → κ} {element? : κ → Option α} {l m : List α}
    (h : l.map key = m.map key) (hl : ∀ a ∈ l, element? (key a) = some a)
    (hm : ∀ a ∈ m, element? (key a) = some a) : l = m := by
  apply List.map_injective_iff.mpr (Option.some_injective α)
  calc
    l.map some = (l.map key).map element? := by
      rw [List.map_map]
      exact (List.map_congr_left hl).symm
    _ = (m.map key).map element? := by rw [h]
    _ = m.map some := by
      rw [List.map_map]
      exact List.map_congr_left hm

namespace Gathering

variable {α β κ π : Type} [DecidableEq κ] [DecidableEq π] (g : Gathering α β κ π)

/-- The first element of a key with the parts of all elements of the key, each once. -/
def union? (items : List α) (k : κ) : Option α :=
  (items.find? fun a => g.key a = k).map fun first =>
    g.withParts first ((g.partsOf items k).eraseDupsBy fun b c => g.partKey b = g.partKey c)

theorem union?_eq_some_iff {items : List α} {k : κ} {a : α} :
    g.union? items k = some a ↔
      ∃ first, items.find? (fun b => g.key b = k) = some first ∧
        a = g.withParts first
          ((g.partsOf items k).eraseDupsBy fun b c => g.partKey b = g.partKey c) := by
  rw [union?, Option.map_eq_some_iff]
  exact exists_congr fun first => and_congr_right fun _ => eq_comm

theorem union?_of_mem_gather {items : List α} {a : α} (h : a ∈ g.gather items) :
    g.union? items (g.key a) = some a := by
  rw [gather_eq, List.mem_map] at h
  obtain ⟨first, hfirst, rfl⟩ := h
  rw [mem_distinctBy] at hfirst
  rw [union?, key_carrying, hfirst, carrying, distinctBy_eq_eraseDupsBy]
  rfl

/-- The keys and the union of each of them settle the gathered list. -/
theorem eq_gather_iff [BEq κ] [LawfulBEq κ] (items gathered : List α) :
    gathered = g.gather items ↔
      gathered.map g.key = (items.map g.key).eraseDups ∧
        ∀ a ∈ gathered, ∃ first, items.find? (fun b => g.key b = g.key a) = some first ∧
          a = g.withParts first
            ((g.partsOf items (g.key a)).eraseDupsBy fun b c => g.partKey b = g.partKey c) := by
  have hkeys : (g.gather items).map g.key = (items.map g.key).eraseDups := by
    rw [map_key_gather, map_key_distinctBy]
  simp only [← union?_eq_some_iff]
  constructor
  · rintro rfl
    exact ⟨hkeys, fun a => g.union?_of_mem_gather⟩
  · rintro ⟨hgathered, hunion⟩
    exact eq_of_map_key_eq (hgathered.trans hkeys.symm) hunion fun a => g.union?_of_mem_gather

omit [DecidableEq π] in
theorem mem_map_partsOf (items : List α) (k : κ) (p : π) :
    p ∈ (g.partsOf items k).map g.partKey ↔
      ∃ a ∈ items, g.key a = k ∧ ∃ b ∈ g.parts a, g.partKey b = p := by
  simp only [List.mem_map, mem_partsOf]
  constructor
  · rintro ⟨b, ⟨a, ha, hk, hb⟩, hp⟩
    exact ⟨a, ha, hk, b, hb, hp⟩
  · rintro ⟨a, ha, hk, b, hb, hp⟩
    exact ⟨b, ⟨a, ha, hk, hb⟩, hp⟩

/-- Gathering neither loses nor invents a part of a key. -/
theorem exists_part_gather_iff (items : List α) (k : κ) (p : π) :
    (∃ a ∈ g.gather items, g.key a = k ∧ ∃ b ∈ g.parts a, g.partKey b = p) ↔
      ∃ a ∈ items, g.key a = k ∧ ∃ b ∈ g.parts a, g.partKey b = p := by
  rw [← mem_map_partsOf, ← mem_map_partsOf, partsOf_gather, mem_map_distinctBy]

end Gathering

namespace Impact

/-- What is said to affect what: component, file, and the kind and source of a reason. -/
def causes (items : List Impact) : Set (String × String × ReasonKind × String) :=
  {q | ∃ i ∈ items, ∃ r ∈ i.reasons, q = (i.component, i.file, r.kind, r.source)}

theorem mem_causes_iff (items : List Impact) (component file : String) (kind : ReasonKind)
    (source : String) :
    (component, file, kind, source) ∈ causes items ↔
      ∃ i ∈ items, i.key = (component, file) ∧ ∃ r ∈ i.reasons, r.key = (kind, source) := by
  constructor
  · rintro ⟨i, hi, r, hr, hq⟩
    cases hq
    exact ⟨i, hi, rfl, r, hr, rfl⟩
  · rintro ⟨i, hi, hkey, r, hr, hreason⟩
    cases hkey
    cases hreason
    exact ⟨i, hi, r, hr, rfl⟩

/-- Merging gives one impact for each component and file, in the order of their first occurrence:
the first impact of that key with the reasons of all of them, of which for every kind and source the
first counts. Nothing else is like this, and what is said to affect what stays the same. -/
theorem eq_merge_iff (items merged : List Impact) :
    (merged = merge items ↔
      merged.map key = (items.map key).eraseDups ∧
        ∀ i ∈ merged, ∃ first, items.find? (fun j => j.key = i.key) = some first ∧
          i = { first with
            reasons := ((items.filter fun j => j.key = i.key).flatMap (·.reasons)).eraseDupsBy
              fun r s => r.key = s.key }) ∧
      causes (merge items) = causes items := by
  constructor
  · exact gathering.eq_gather_iff items merged
  · ext ⟨component, file, kind, source⟩
    rw [mem_causes_iff, mem_causes_iff]
    exact gathering.exists_part_gather_iff items (component, file) (kind, source)

end Impact

namespace Record

/-- Uniting gives one record for each key, in the order of their first occurrence: the first record
of that key with the targets of all of them, each where it occurs first. Nothing else is like this,
and no target of a key is lost or invented. -/
theorem eq_unite_iff (records united : List Record) :
    (united = unite records ↔
      united.map key = (records.map key).eraseDups ∧
        ∀ x ∈ united, ∃ first, records.find? (fun y => y.key = x.key) = some first ∧
          x = { first with
            targets := ((records.filter fun y => y.key = x.key).flatMap (·.targets)).eraseDups }) ∧
      ∀ k t, Reaches (unite records) k t ↔ Reaches records k t := by
  constructor
  · have htargets : ∀ targets : List String,
        targets.eraseDups = targets.eraseDupsBy fun s t => id s = id t := fun targets => by
      rw [← distinct_eq_eraseDups, distinct, distinctBy_eq_eraseDupsBy]
    simp only [htargets]
    exact gathering.eq_gather_iff records united
  · intro k t
    have htarget : ∀ x : Record,
        (∃ s ∈ gathering.parts x, gathering.partKey s = t) ↔ t ∈ x.targets := by
      simp [gathering]
    have hparts := gathering.exists_part_gather_iff records k t
    simp only [htarget] at hparts
    exact hparts

end Record

end Ripple
