import Mathlib.Data.List.Induction
import Ripple.Gathering
import Ripple.Proofs.Distinct

/-! # Gathering in closed form

The element-by-element gathering is the keyed ordered union: the first elements of all keys in
their order, each with the parts of every element of its key in input order, each part once.
-/
namespace Ripple.Gathering

variable {α β κ π : Type} [DecidableEq π] (g : Gathering α β κ π)

@[simp] theorem key_carrying (a : α) (l : List β) : g.key (g.carrying a l) = g.key a :=
  g.key_withParts a _

@[simp] theorem parts_carrying (a : α) (l : List β) :
    g.parts (g.carrying a l) = distinctBy g.partKey l :=
  g.parts_withParts a _

theorem map_key_carrying (l : List α) (f : α → List β) :
    (l.map fun a => g.carrying a (f a)).map g.key = l.map g.key := by
  rw [List.map_map]
  exact List.map_congr_left fun a _ => g.key_carrying a _

/-- Adding parts to an element that carries some adds them to all that it was given. -/
theorem carrying_carrying (a : α) (l m : List β) :
    g.carrying (g.carrying a l) (g.parts (g.carrying a l) ++ m) = g.carrying a (l ++ m) := by
  rw [parts_carrying, carrying, carrying, carrying, g.withParts_withParts,
    distinctBy_distinctBy_append]

variable [DecidableEq κ]

theorem absorb_of_notMem {gathered : List α} {a : α} (h : g.key a ∉ gathered.map g.key) :
    g.absorb gathered a = gathered ++ [g.carrying a (g.parts a)] := by
  induction gathered with
  | nil => rfl
  | cons first rest ih =>
    rw [List.map_cons, List.mem_cons, not_or] at h
    rw [absorb, if_neg (Ne.symm h.1), ih h.2, List.cons_append]

theorem absorb_of_mem {gathered : List α} {a : α} (hn : (gathered.map g.key).Nodup)
    (h : g.key a ∈ gathered.map g.key) :
    g.absorb gathered a =
      gathered.map fun b =>
        if g.key b = g.key a then g.carrying b (g.parts b ++ g.parts a) else b := by
  induction gathered with
  | nil => simp at h
  | cons first rest ih =>
    rw [List.map_cons, List.nodup_cons] at hn
    rw [absorb, List.map_cons]
    by_cases hk : g.key first = g.key a
    · have hrest : ∀ b ∈ rest, g.key b ≠ g.key a := fun b hb he =>
        hn.1 (hk ▸ he ▸ List.mem_map_of_mem hb)
      rw [if_pos hk, if_pos hk, List.map_congr_left fun b hb => if_neg (hrest b hb), List.map_id']
    · rw [List.map_cons, List.mem_cons] at h
      rw [if_neg hk, if_neg hk, ih hn.2 (h.resolve_left (Ne.symm hk))]

/-- What a key carries in a list of elements. -/
def partsOf (items : List α) (k : κ) : List β :=
  (items.filter fun b => g.key b = k).flatMap g.parts

omit [DecidableEq π] in
theorem partsOf_append (items others : List α) (k : κ) :
    g.partsOf (items ++ others) k = g.partsOf items k ++ g.partsOf others k := by
  rw [partsOf, List.filter_append, List.flatMap_append]
  rfl

omit [DecidableEq π] in
theorem partsOf_singleton (a : α) (k : κ) :
    g.partsOf [a] k = if g.key a = k then g.parts a else [] := by
  by_cases h : g.key a = k <;> simp [partsOf, h]

omit [DecidableEq π] in
theorem partsOf_eq_nil {items : List α} {k : κ} (h : k ∉ items.map g.key) :
    g.partsOf items k = [] := by
  have hf : items.filter (fun b => g.key b = k) = [] := by
    rw [List.filter_eq_nil_iff]
    intro b hb he
    rw [decide_eq_true_eq] at he
    exact h (he ▸ List.mem_map_of_mem hb)
  rw [partsOf, hf, List.flatMap_nil]

omit [DecidableEq π] in
theorem mem_partsOf (items : List α) (k : κ) (b : β) :
    b ∈ g.partsOf items k ↔ ∃ a ∈ items, g.key a = k ∧ b ∈ g.parts a := by
  simp [partsOf, and_assoc]

/-- Gathering is the keyed ordered union. -/
theorem gather_eq (items : List α) :
    g.gather items =
      (distinctBy g.key items).map fun a => g.carrying a (g.partsOf items (g.key a)) := by
  -- from the right end, because each element is absorbed by all that came before it
  induction items using List.reverseRecOn with
  | nil => rfl
  | append_singleton items a ih =>
    have hkeys : (g.gather items).map g.key = (distinctBy g.key items).map g.key := by
      rw [ih, map_key_carrying]
    have hstep : g.gather (items ++ [a]) = g.absorb (g.gather items) a := by
      rw [gather, List.foldl_append, List.foldl_cons, List.foldl_nil, ← gather]
    rw [hstep, distinctBy_append]
    by_cases h : g.key a ∈ items.map g.key
    · have hnew : (distinctBy g.key [a]).filter (fun b => g.key b ∉ items.map g.key) = [] := by
        simpa [distinctBy] using h
      rw [absorb_of_mem, hnew, List.append_nil, ih, List.map_map]
      · apply List.map_congr_left
        intro b _
        rw [Function.comp_apply, key_carrying, partsOf_append, partsOf_singleton]
        by_cases hb : g.key b = g.key a
        · rw [if_pos hb, if_pos hb.symm, carrying_carrying]
        · rw [if_neg hb, if_neg (Ne.symm hb), List.append_nil]
      · rw [hkeys]
        exact nodup_map_distinctBy g.key items
      · rw [hkeys, mem_map_distinctBy]
        exact h
    · have hnew : (distinctBy g.key [a]).filter (fun b => g.key b ∉ items.map g.key) = [a] := by
        simpa [distinctBy] using h
      rw [absorb_of_notMem, hnew, List.map_append, List.map_singleton, ih, partsOf_append,
        partsOf_eq_nil g h, partsOf_singleton, if_pos rfl, List.nil_append]
      · congr 1
        apply List.map_congr_left
        intro b hb
        have hba : g.key a ≠ g.key b := fun he =>
          h (he ▸ List.mem_map_of_mem (mem_of_mem_distinctBy g.key hb))
        rw [partsOf_append, partsOf_singleton, if_neg hba, List.append_nil]
      · rw [hkeys, mem_map_distinctBy]
        exact h

theorem map_key_gather (items : List α) :
    (g.gather items).map g.key = (distinctBy g.key items).map g.key := by
  rw [gather_eq, map_key_carrying]

theorem nodup_map_key_gather (items : List α) : ((g.gather items).map g.key).Nodup := by
  rw [map_key_gather]
  exact nodup_map_distinctBy g.key items

theorem mem_map_key_gather (k : κ) (items : List α) :
    k ∈ (g.gather items).map g.key ↔ k ∈ items.map g.key := by
  rw [map_key_gather, mem_map_distinctBy]

/-- A gathered element is one of the elements, apart from what it carries. -/
theorem exists_of_mem_gather {items : List α} {a : α} (h : a ∈ g.gather items) :
    ∃ b ∈ items, a = g.carrying b (g.partsOf items (g.key b)) := by
  rw [gather_eq] at h
  obtain ⟨b, hb, rfl⟩ := List.mem_map.mp h
  exact ⟨b, mem_of_mem_distinctBy g.key hb, rfl⟩

/-- A gathered element carries what its key carried before, each part once. -/
theorem parts_of_mem_gather {items : List α} {a : α} (h : a ∈ g.gather items) :
    g.parts a = distinctBy g.partKey (g.partsOf items (g.key a)) := by
  obtain ⟨b, _, rfl⟩ := g.exists_of_mem_gather h
  rw [parts_carrying, key_carrying]

omit [DecidableEq π] in
theorem partsOf_of_nodup {items : List α} (hn : (items.map g.key).Nodup) {a : α} (h : a ∈ items) :
    g.partsOf items (g.key a) = g.parts a := by
  induction items with
  | nil => cases h
  | cons first rest ih =>
    rw [List.map_cons, List.nodup_cons] at hn
    rw [← List.singleton_append, partsOf_append, partsOf_singleton]
    rcases List.mem_cons.mp h with rfl | h
    · rw [if_pos rfl, partsOf_eq_nil g hn.1, List.append_nil]
    · have hne : g.key first ≠ g.key a := fun he => hn.1 (he ▸ List.mem_map_of_mem h)
      rw [if_neg hne, List.nil_append, ih hn.2 h]

theorem partsOf_gather (items : List α) (k : κ) :
    g.partsOf (g.gather items) k = distinctBy g.partKey (g.partsOf items k) := by
  by_cases h : k ∈ items.map g.key
  · obtain ⟨a, ha, rfl⟩ := List.mem_map.mp ((g.mem_map_key_gather k items).mpr h)
    rw [g.partsOf_of_nodup (g.nodup_map_key_gather items) ha, g.parts_of_mem_gather ha]
  · rw [partsOf_eq_nil g h, partsOf_eq_nil g (mt (g.mem_map_key_gather k items).mp h)]
    rfl

omit [DecidableEq κ] in
theorem carrying_of_carrying (a : α) (l m : List β) :
    g.carrying (g.carrying a l) m = g.carrying a m :=
  g.withParts_withParts a _ _

omit [DecidableEq κ] in
theorem carrying_distinctBy (a : α) (l m : List β) :
    g.carrying a (l ++ distinctBy g.partKey m) = g.carrying a (l ++ m) := by
  rw [carrying, carrying, distinctBy_append_distinctBy]

/-- A portion of a list may be gathered first. -/
theorem gather_append_gather (items others : List α) :
    g.gather (items ++ g.gather others) = g.gather (items ++ others) := by
  have hnew : distinctBy g.key (g.gather others) = g.gather others :=
    distinctBy_of_nodup g.key (g.nodup_map_key_gather others)
  have hparts : ∀ a k, g.carrying a (g.partsOf (items ++ g.gather others) k) =
      g.carrying a (g.partsOf (items ++ others) k) := by
    intro a k
    rw [partsOf_append, partsOf_append, partsOf_gather, carrying_distinctBy]
  rw [g.gather_eq (items ++ g.gather others), g.gather_eq (items ++ others)]
  simp only [hparts]
  rw [distinctBy_append, distinctBy_append, hnew, List.map_append, List.map_append]
  congr 1
  -- the first elements of the portion come with their own parts, which are replaced
  rw [g.gather_eq others, List.filter_map, List.map_map]
  simp only [Function.comp_def, key_carrying, carrying_of_carrying]

theorem gather_gather (items : List α) : g.gather (g.gather items) = g.gather items :=
  g.gather_append_gather [] items

theorem gather_gather_append (items others : List α) :
    g.gather (g.gather items ++ others) = g.gather (items ++ others) := by
  rw [gather, List.foldl_append, ← gather, gather_gather, gather, gather, List.foldl_append]

/-- Every portion of a list may be gathered first. -/
theorem gather_flatMap_gather (portions : List (List α)) :
    g.gather (portions.flatMap g.gather) = g.gather portions.flatten := by
  induction portions using List.reverseRecOn with
  | nil => rfl
  | append_singleton portions portion ih =>
    rw [List.flatMap_append, List.flatMap_singleton, List.flatten_append, List.flatten_singleton,
      gather_append_gather, ← gather_gather_append, ih, gather_gather_append]

/-- Elements that the list has already add nothing. -/
theorem gather_append_of_subset {items others : List α} (h : others ⊆ items) :
    g.gather (items ++ others) = g.gather items := by
  have hparts : ∀ k, (g.partsOf others k).map g.partKey ⊆ (g.partsOf items k).map g.partKey := by
    refine fun k => List.map_subset _ fun b hb => ?_
    rw [mem_partsOf] at hb ⊢
    obtain ⟨a, ha, hab⟩ := hb
    exact ⟨a, h ha, hab⟩
  rw [gather_eq, gather_eq, distinctBy_append_of_subset g.key (List.map_subset _ h)]
  refine List.map_congr_left fun a _ => ?_
  rw [partsOf_append, carrying, carrying, distinctBy_append_of_subset g.partKey (hparts _)]

end Ripple.Gathering
