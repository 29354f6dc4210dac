import Mathlib.Data.List.Nodup
import Ripple.Config.File

/-! # The entries of documents

What a mapping holds under a key after an entry has been set, and after other entries have been laid
over it: a document that is laid over what the environment says decides its own entries, unless both
sides have mappings to merge.
-/
namespace Ripple

namespace Value

variable {α β : Type} {key : String} {k : Value} {v w : α} {es : List (Value × α)}

theorem find?_eq (key : String) (es : List (Value × α)) :
    find? key es = (es.find? (·.1 == .text key)).map (·.2) := by
  induction es with
  | nil => rfl
  | cons e rest ih =>
    obtain ⟨k, v⟩ := e
    rw [List.find?_cons]
    by_cases hk : k = .text key
    · subst hk
      simp [find?]
    · rw [beq_false_of_ne hk, ← ih]
      cases k with
      | text s => rw [find?, if_neg fun hs => hk (congrArg Value.text hs)]
      | _ => rfl

theorem find?_cons (key : String) (k : Value) (v : α) (rest : List (Value × α)) :
    find? key ((k, v) :: rest) = if k = .text key then some v else find? key rest := by
  rw [find?_eq, find?_eq, List.find?_cons]
  by_cases hk : k = .text key
  · simp [hk]
  · simp [hk, beq_false_of_ne hk]

theorem find?_put_self (key : String) (v : α) (es : List (Value × α)) :
    find? key (put (.text key) v es) = some v := by
  induction es with
  | nil => simp [put, find?_cons]
  | cons e rest ih =>
    obtain ⟨k, w⟩ := e
    rw [put]
    by_cases hk : k = .text key
    · simp [hk, find?_cons]
    · simp [hk, find?_cons, ih]

theorem find?_put_of_ne (h : k ≠ .text key) (v : α) (es : List (Value × α)) :
    find? key (put k v es) = find? key es := by
  induction es with
  | nil => simp [put, find?_cons, h]
  | cons e rest ih =>
    obtain ⟨l, w⟩ := e
    rw [put]
    by_cases hl : l = k
    · simp [hl, find?_cons, h]
    · simp [hl, find?_cons, ih]

theorem mem_keys_put (l k : Value) (v : α) (es : List (Value × α)) :
    l ∈ (put k v es).map (·.1) ↔ l = k ∨ l ∈ es.map (·.1) := by
  induction es with
  | nil => simp [put]
  | cons e rest ih =>
    obtain ⟨m, w⟩ := e
    rw [put]
    by_cases hm : m = k
    · simp [hm]
    · simp only [beq_false_of_ne hm, Bool.false_eq_true, if_false, List.map_cons, List.mem_cons, ih]
      tauto

theorem put_eq_append (h : k ∉ es.map (·.1)) (v : α) : put k v es = es ++ [(k, v)] := by
  induction es with
  | nil => rfl
  | cons e rest ih =>
    obtain ⟨l, w⟩ := e
    rw [List.map_cons, List.mem_cons, not_or] at h
    rw [put, beq_false_of_ne (Ne.symm h.1), if_neg Bool.false_ne_true, ih h.2, List.cons_append]

theorem keys_put_of_find? (h : find? key es = some w) (v : α) :
    (put (.text key) v es).map (·.1) = es.map (·.1) := by
  induction es with
  | nil => cases h
  | cons e rest ih =>
    obtain ⟨k, u⟩ := e
    rw [find?_cons] at h
    rw [put]
    by_cases hk : k = .text key
    · simp [hk]
    · rw [if_neg hk] at h
      rw [beq_false_of_ne hk, if_neg Bool.false_ne_true, List.map_cons, List.map_cons, ih h]

theorem mem_put {e : Value × α}
    (h : e ∈ put k v es) : e = (k, v) ∨ e ∈ es := by
  induction es with
  | nil => exact .inl (List.mem_singleton.mp h)
  | cons other rest ih =>
    obtain ⟨l, w⟩ := other
    rw [put] at h
    by_cases hl : l = k
    · subst hl
      rw [beq_self_eq_true, if_pos rfl] at h
      rcases List.mem_cons.mp h with rfl | h
      · exact .inl rfl
      · exact .inr (List.mem_cons_of_mem _ h)
    · rw [beq_false_of_ne hl, if_neg Bool.false_ne_true] at h
      rcases List.mem_cons.mp h with rfl | h
      · exact .inr List.mem_cons_self
      · exact (ih h).imp id (List.mem_cons_of_mem _)

theorem nodup_keys_put (h : (es.map (·.1)).Nodup) (k : Value) (v : α) :
    ((put k v es).map (·.1)).Nodup := by
  induction es with
  | nil => simp [put]
  | cons e rest ih =>
    obtain ⟨m, w⟩ := e
    rw [List.map_cons, List.nodup_cons] at h
    rw [put]
    by_cases hm : m = k
    · simpa [hm] using h
    · rw [beq_false_of_ne hm, if_neg Bool.false_ne_true, List.map_cons, List.nodup_cons,
        mem_keys_put, not_or]
      exact ⟨⟨hm, h.1⟩, ih h.2⟩

theorem mem_of_find? (h : find? key es = some v) : (.text key, v) ∈ es := by
  induction es with
  | nil => cases h
  | cons e rest ih =>
    obtain ⟨k, w⟩ := e
    rw [find?_cons] at h
    split_ifs at h with hk
    · cases h
      rw [hk]
      exact List.mem_cons_self
    · exact List.mem_cons_of_mem _ (ih h)

theorem find?_eq_none (h : .text key ∉ es.map (·.1)) : find? key es = none := by
  induction es with
  | nil => rfl
  | cons e rest ih =>
    obtain ⟨k, v⟩ := e
    rw [List.map_cons, List.mem_cons, not_or] at h
    rw [find?_cons, if_neg (Ne.symm h.1), ih h.2]

theorem put_put (k : Value) (v w : α) (es : List (Value × α)) :
    put k w (put k v es) = put k w es := by
  induction es with
  | nil => simp [put]
  | cons e rest ih =>
    obtain ⟨l, u⟩ := e
    by_cases hl : l = k
    · simp [put, hl]
    · simp [put, beq_false_of_ne hl, ih]

theorem map_put (f : α → β) (k : Value) (v : α) (es : List (Value × α)) :
    (put k v es).map (fun e => (e.1, f e.2)) = put k (f v) (es.map fun e => (e.1, f e.2)) := by
  induction es with
  | nil => rfl
  | cons e rest ih =>
    rw [put, List.map_cons, put, ← ih]
    split <;> rfl

theorem find?_map (f : α → β) (key : String) (es : List (Value × α)) :
    find? key (es.map fun e => (e.1, f e.2)) = (find? key es).map f := by
  induction es with
  | nil => rfl
  | cons e rest ih =>
    rw [List.map_cons, find?_cons, find?_cons, ih]
    split <;> rfl

end Value

namespace Settings

/-- What a mapping says about a key, with other entries laid over it. -/
theorem find?_mergeEntries {key : String} {document : List (Value × Value)}
    (h : (document.map (·.1)).Nodup) (base : List (Value × Value)) :
    Value.find? key (mergeEntries base document) =
      match Value.find? key document with
      | some v => some (mergeValue (Value.find? key base) v)
      | none => Value.find? key base := by
  induction document generalizing base with
  | nil => rfl
  | cons e rest ih =>
    obtain ⟨k, v⟩ := e
    rw [List.map_cons, List.nodup_cons] at h
    rw [mergeEntries, ih h.2, Value.find?_cons]
    by_cases hk : k = .text key
    · subst hk
      rw [Value.find?_eq_none h.1, if_pos rfl, Value.find?_put_self, Value.find?_eq]
    · rw [if_neg hk, Value.find?_put_of_ne hk]

end Settings

end Ripple
