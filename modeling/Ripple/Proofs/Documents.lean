import Ripple.Proofs.Reading

/-! # Documents with shared parts

What a document shows after an entry of one of its mappings has been set, and how the places of a
document come out in its values.
-/
namespace Ripple.ValueGraph

variable {d : ValueGraph} {n : Nat} {c : Cell}

theorem entries?_put (d : ValueGraph) (n : Nat) (key : String) (v : Value) (c : Cell) :
    (d.put n key v).entries? c =
      if c = .part n then (d.entries? c).map (Value.put (.text key) (.atom v))
      else d.entries? c := by
  cases c with
  | atom w => simp [entries?]
  | part m =>
    by_cases hm : n = m
    · subst hm
      rw [if_pos rfl]
      simp only [entries?, put, List.getElem?_modify_eq]
      rcases d.parts[n]? with _ | ⟨items | members | es⟩ <;> rfl
    · rw [if_neg (by simpa using Ne.symm hm)]
      simp [entries?, put, hm]

theorem getElem?_put_of_ne {m : Nat} (h : m ≠ n) (key : String) (v : Value) :
    (d.put n key v).parts[m]? = d.parts[m]? := by
  simp [put, Ne.symm h]

theorem items?_eq_some {items : List Cell} (h : d.items? c = some items) :
    ∃ n, c = .part n ∧ d.parts[n]? = some (.list items) := by
  cases c with
  | atom v => cases h
  | part n =>
    rw [items?] at h
    split at h
    · next hn =>
      cases h
      exact ⟨n, rfl, hn⟩
    · cases h

theorem entries?_eq_some {es : List (Value × Cell)} (h : d.entries? c = some es) :
    ∃ n, c = .part n ∧ d.parts[n]? = some (.map es) := by
  cases c with
  | atom v => cases h
  | part n =>
    rw [entries?] at h
    split at h
    · next hn =>
      cases h
      exact ⟨n, rfl, hn⟩
    · cases h

theorem get?_eq_some_iff {key : String} {v : Cell} :
    d.get? c key = some v ↔ ∃ es, d.entries? c = some es ∧ Value.find? key es = some v := by
  rw [get?, Option.bind_eq_some_iff]

theorem Tidy.items (hd : d.Tidy) {items : List Cell} (h : d.items? c = some items) :
    ∀ item ∈ items, item.Tidy := by
  obtain ⟨n, -, hn⟩ := items?_eq_some h
  cases hd.parts _ (List.mem_of_getElem? hn) with
  | list hitems => exact hitems

theorem value_part (d : ValueGraph) (depth n : Nat) : d.value (depth + 1) (.part n) =
    match d.parts[n]? with
    | some (.list items) => .list (items.map (d.value depth))
    | some (.set members) => .set members
    | some (.map es) => .map (es.map fun e => (e.1, d.value depth e.2))
    | none => .null :=
  rfl

theorem value_of_items? {items : List Cell} (h : d.items? c = some items) (depth : Nat) :
    d.value (depth + 1) c = .list (items.map (d.value depth)) := by
  obtain ⟨n, rfl, hn⟩ := items?_eq_some h
  rw [value_part, hn]

theorem value_of_entries? {es : List (Value × Cell)} (h : d.entries? c = some es) (depth : Nat) :
    d.value (depth + 1) c = .map (es.map fun e => (e.1, d.value depth e.2)) := by
  obtain ⟨n, rfl, hn⟩ := entries?_eq_some h
  rw [value_part, hn]

/-- What a mapping holds under a key is found in its value. -/
theorem get?_value (hc : c.Tidy) (depth : Nat) (key : String) :
    (d.value (depth + 1) c).get? key = (d.get? c key).map (d.value depth) := by
  cases c with
  | atom v =>
    have hv := hc v rfl
    cases v <;> first | rfl | cases hv
  | part n =>
    rw [value_part, get?, entries?]
    rcases d.parts[n]? with _ | ⟨items | members | es⟩
    case some.map => exact Value.find?_map (d.value depth) key es
    all_goals rfl

theorem find?_values (d : ValueGraph) (depth : Nat) (key : String) :
    Value.find? key (d.values depth) = (Value.find? key d.entries).map (d.value depth) :=
  Value.find?_map (d.value depth) key d.entries

theorem keys_values (d : ValueGraph) (depth : Nat) :
    (d.values depth).map (·.1) = d.entries.map (·.1) := by
  rw [values, List.map_map]
  rfl

end Ripple.ValueGraph
