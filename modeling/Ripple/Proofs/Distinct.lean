import Mathlib.Data.Finset.Card
import Mathlib.Data.List.Find
import Mathlib.Data.List.Nodup
import Ripple.Gathering

/-! # Removal of repetitions

What stays are exactly the elements that are the first of their key, so every key stays and none
stays twice. Removing repetitions from a part of a list first changes nothing.
-/
namespace Ripple

variable {α κ : Type} [DecidableEq κ] (key : α → κ)

theorem distinctBy_sublist (l : List α) : (distinctBy key l).Sublist l := by
  induction l with
  | nil => exact List.Sublist.slnil
  | cons a rest ih => exact (List.filter_sublist.trans ih).cons_cons a

theorem mem_of_mem_distinctBy {a : α} {l : List α} (h : a ∈ distinctBy key l) : a ∈ l :=
  (distinctBy_sublist key l).subset h

/-- An element stays if and only if it is the first one of its key. -/
theorem mem_distinctBy (a : α) (l : List α) :
    a ∈ distinctBy key l ↔ l.find? (fun b => key b = key a) = some a := by
  induction l with
  | nil => simp [distinctBy]
  | cons b rest ih =>
    rw [distinctBy, List.mem_cons, List.mem_filter, List.find?_cons, ih]
    by_cases h : key b = key a
    · have hab : ¬ key a ≠ key b := fun hne => hne h.symm
      simp [h, eq_comm]
    · have hne : a ≠ b := fun he => h (he ▸ rfl)
      simp [h, hne, Ne.symm h]

/-- Every key of the list stays. -/
theorem exists_mem_distinctBy {a : α} {l : List α} (h : a ∈ l) :
    ∃ b ∈ distinctBy key l, key b = key a := by
  induction l with
  | nil => simp at h
  | cons b rest ih =>
    by_cases hk : key b = key a
    · exact ⟨b, List.mem_cons_self, hk⟩
    · have hr : a ∈ rest := by
        rcases List.mem_cons.mp h with rfl | hr
        · exact absurd rfl hk
        · exact hr
      obtain ⟨c, hc, hca⟩ := ih hr
      refine ⟨c, List.mem_cons_of_mem b (List.mem_filter.mpr ⟨hc, ?_⟩), hca⟩
      simpa [hca] using Ne.symm hk

theorem mem_map_distinctBy (k : κ) (l : List α) :
    k ∈ (distinctBy key l).map key ↔ k ∈ l.map key := by
  constructor
  · intro h
    obtain ⟨a, ha, rfl⟩ := List.mem_map.mp h
    exact List.mem_map_of_mem (mem_of_mem_distinctBy key ha)
  · intro h
    obtain ⟨a, ha, rfl⟩ := List.mem_map.mp h
    exact List.mem_map.mpr (exists_mem_distinctBy key ha)

/-- No key stays twice. -/
theorem nodup_map_distinctBy (l : List α) : ((distinctBy key l).map key).Nodup := by
  induction l with
  | nil => exact List.nodup_nil
  | cons a rest ih =>
    rw [distinctBy, List.map_cons, List.nodup_cons]
    constructor
    · simp
    · exact ih.sublist (List.filter_sublist.map key)

theorem eq_of_mem_distinctBy {a b : α} {l : List α} (ha : a ∈ distinctBy key l)
    (hb : b ∈ distinctBy key l) (h : key a = key b) : a = b :=
  List.inj_on_of_nodup_map (nodup_map_distinctBy key l) ha hb h

/-- Behind a list, only the elements with new keys stay. -/
theorem distinctBy_append (l m : List α) :
    distinctBy key (l ++ m) =
      distinctBy key l ++ (distinctBy key m).filter fun b => key b ∉ l.map key := by
  induction l with
  | nil => simp [distinctBy]
  | cons a rest ih =>
    rw [List.cons_append, distinctBy, ih, List.filter_append, List.filter_filter]
    simp [distinctBy]

theorem distinctBy_of_nodup {l : List α} (h : (l.map key).Nodup) : distinctBy key l = l := by
  induction l with
  | nil => rfl
  | cons a rest ih =>
    rw [List.map_cons, List.nodup_cons] at h
    rw [distinctBy, ih h.2, List.filter_eq_self.mpr]
    intro b hb
    have hba : key b ≠ key a := fun he => h.1 (he ▸ List.mem_map_of_mem hb)
    simpa using hba

/-- Where no key comes twice, looking for a key finds every element. -/
theorem find?_key_iff {l : List α} (h : (l.map key).Nodup) (k : κ) (a : α) :
    l.find? (fun b => key b = k) = some a ↔ a ∈ l ∧ key a = k := by
  constructor
  · intro hfound
    exact ⟨List.mem_of_find?_eq_some hfound, by simpa using List.find?_some hfound⟩
  · rintro ⟨ha, rfl⟩
    rwa [← mem_distinctBy, distinctBy_of_nodup key h]

/-- Where keys do not repeat, the element of a key is the same in every order. -/
theorem find?_key_of_perm {l l' : List α} (h : l'.Perm l) (hn : (l.map key).Nodup) (k : κ) :
    l'.find? (key · = k) = l.find? (key · = k) := by
  refine List.find?_eq_find?_of_perm h fun a ha b hb => ?_
  obtain ⟨ha, hkey⟩ := ha
  obtain ⟨hb, hkey'⟩ := hb
  rw [decide_eq_true_eq] at hkey hkey'
  exact List.inj_on_of_nodup_map hn (h.subset ha) (h.subset hb) (hkey.trans hkey'.symm)

theorem distinctBy_distinctBy (l : List α) : distinctBy key (distinctBy key l) = distinctBy key l :=
  distinctBy_of_nodup key (nodup_map_distinctBy key l)

theorem distinctBy_distinctBy_append (l m : List α) :
    distinctBy key (distinctBy key l ++ m) = distinctBy key (l ++ m) := by
  rw [distinctBy_append, distinctBy_append, distinctBy_distinctBy]
  simp only [mem_map_distinctBy]

theorem distinctBy_append_distinctBy (l m : List α) :
    distinctBy key (l ++ distinctBy key m) = distinctBy key (l ++ m) := by
  rw [distinctBy_append, distinctBy_append, distinctBy_distinctBy]

theorem distinctBy_append_congr {l l' m m' : List α} (hl : distinctBy key l = distinctBy key l')
    (hm : distinctBy key m = distinctBy key m') :
    distinctBy key (l ++ m) = distinctBy key (l' ++ m') := by
  rw [← distinctBy_distinctBy_append, ← distinctBy_append_distinctBy, hl, hm,
    distinctBy_append_distinctBy, distinctBy_distinctBy_append]

/-- Behind a list, nothing stays of elements without a new key. -/
theorem distinctBy_append_of_subset {l m : List α} (h : m.map key ⊆ l.map key) :
    distinctBy key (l ++ m) = distinctBy key l := by
  rw [distinctBy_append, List.append_right_eq_self, List.filter_eq_nil_iff]
  intro b hb
  have hold : key b ∈ l.map key := h (List.mem_map_of_mem (mem_of_mem_distinctBy key hb))
  simpa using hold

theorem distinctBy_map {β : Type} (f : β → α) (l : List β) :
    distinctBy key (l.map f) = (distinctBy (fun b => key (f b)) l).map f := by
  induction l with
  | nil => rfl
  | cons b rest ih =>
    rw [List.map_cons, distinctBy, ih, distinctBy, List.map_cons, List.filter_map]
    rfl

/-- Keys that tell apart the same elements of a list leave the same elements. -/
theorem distinctBy_congr {κ' : Type} [DecidableEq κ'] {key' : α → κ'} {l : List α}
    (h : ∀ a ∈ l, ∀ b ∈ l, key a = key b ↔ key' a = key' b) :
    distinctBy key l = distinctBy key' l := by
  induction l with
  | nil => rfl
  | cons a rest ih =>
    have hrest : ∀ b ∈ rest, ∀ c ∈ rest, key b = key c ↔ key' b = key' c := fun b hb c hc =>
      h b (List.mem_cons_of_mem a hb) c (List.mem_cons_of_mem a hc)
    rw [distinctBy, distinctBy, ih hrest]
    congr 1
    apply List.filter_congr
    intro b hb
    have hba := h b (List.mem_cons_of_mem a (mem_of_mem_distinctBy key' hb)) a List.mem_cons_self
    simp [hba]

/-- A choice of keys can be made before or after. -/
theorem distinctBy_filter {p : α → Bool} (h : ∀ a b, key a = key b → p a = p b) (l : List α) :
    distinctBy key (l.filter p) = (distinctBy key l).filter p := by
  induction l with
  | nil => rfl
  | cons a rest ih =>
    rw [distinctBy]
    by_cases ha : p a = true
    · rw [List.filter_cons_of_pos ha, distinctBy, ih, List.filter_cons_of_pos ha,
        List.filter_filter, List.filter_filter]
      simp only [Bool.and_comm]
    · rw [List.filter_cons_of_neg ha, ih, List.filter_cons_of_neg ha, List.filter_filter]
      apply List.filter_congr
      intro b _
      by_cases hb : key b = key a
      · simp [h b a hb, ha]
      · simp [hb]

/-- Elements may be told apart more finely first. -/
theorem distinctBy_distinctBy_of_finer {κ' : Type} [DecidableEq κ'] {key' : α → κ'}
    (h : ∀ a b, key a = key b → key' a = key' b) (l : List α) :
    distinctBy key' (distinctBy key l) = distinctBy key' l := by
  induction l with
  | nil => rfl
  | cons a rest ih =>
    let p : α → Bool := fun b => key' b ≠ key' a
    have hp : ∀ b c, key' b = key' c → p b = p c := fun b c hbc => by simp [p, hbc]
    have hboth : ((distinctBy key rest).filter fun b => key b ≠ key a).filter p =
        (distinctBy key rest).filter p := by
      rw [List.filter_filter]
      refine List.filter_congr fun b _ => ?_
      by_cases hb : key b = key a
      · simp [p, h b a hb]
      · simp [hb]
    rw [distinctBy, distinctBy, distinctBy]
    change _ :: List.filter p _ = _ :: List.filter p _
    rw [← distinctBy_filter key' hp, hboth, distinctBy_filter key' hp, ih]

section Elements

variable [DecidableEq α]

@[simp] theorem mem_distinct (a : α) (l : List α) : a ∈ distinct l ↔ a ∈ l := by
  have h := mem_map_distinctBy id a l
  rwa [List.map_id, List.map_id] at h

theorem nodup_distinct (l : List α) : (distinct l).Nodup := by
  have h := nodup_map_distinctBy id l
  rwa [List.map_id] at h

theorem length_distinct (l : List α) : (distinct l).length = l.toFinset.card := by
  rw [← List.toFinset_card_of_nodup (nodup_distinct l)]
  congr 1
  ext a
  simp

end Elements

end Ripple
