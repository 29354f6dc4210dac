import Mathlib.Data.List.Basic

/-! # Lists of steps that may fail

A traversal ends with a fault exactly if one of its steps does, and otherwise its answer is that of
the traversal with the answers of the steps.
-/
namespace Ripple.Outcome

variable {α β ε : Type}

theorem isOk_iff {x : Except ε α} : x.isOk = true ↔ ∃ a, x = .ok a := by
  cases x <;> simp [Except.isOk, Except.toBool]

theorem bind_eq_ok_iff {x : Except ε α} {f : α → Except ε β} {b : β} :
    x >>= f = .ok b ↔ ∃ a, x = .ok a ∧ f a = .ok b := by
  cases x <;> simp [bind, Except.bind]

theorem bind_eq_error_iff {x : Except ε α} {f : α → Except ε β} {e : ε} :
    x >>= f = .error e ↔ x = .error e ∨ ∃ a, x = .ok a ∧ f a = .error e := by
  cases x <;> simp [bind, Except.bind]

theorem map_eq_ok_iff {x : Except ε α} {f : α → β} {b : β} :
    x.map f = .ok b ↔ ∃ a, x = .ok a ∧ f a = b := by
  cases x <;> simp [Except.map]

theorem map_eq_error_iff {x : Except ε α} {f : α → β} {e : ε} :
    x.map f = .error e ↔ x = .error e := by
  cases x <;> simp [Except.map]

theorem mapError_eq_ok_iff {δ : Type} {x : Except ε α} {f : ε → δ} {a : α} :
    x.mapError f = .ok a ↔ x = .ok a := by
  cases x <;> simp [Except.mapError]

theorem filterAuxM_eq_ok {p : α → Except ε Bool} {q : α → Bool} {l : List α}
    (h : ∀ a ∈ l, p a = .ok (q a)) (done : List α) :
    l.filterAuxM p done = .ok ((l.filter q).reverse ++ done) := by
  induction l generalizing done with
  | nil => rfl
  | cons a rest ih =>
    have hrest : ∀ b ∈ rest, p b = .ok (q b) := fun b hb => h b (List.mem_cons_of_mem a hb)
    rw [List.filterAuxM, h a List.mem_cons_self]
    change rest.filterAuxM p (cond (q a) (a :: done) done) = _
    rw [ih hrest]
    cases ha : q a <;> simp [ha]

theorem filterM_eq_ok {p : α → Except ε Bool} {q : α → Bool} {l : List α}
    (h : ∀ a ∈ l, p a = .ok (q a)) : l.filterM p = .ok (l.filter q) := by
  rw [List.filterM, filterAuxM_eq_ok h]
  change Except.ok ((l.filter q).reverse ++ []).reverse = _
  rw [List.append_nil, List.reverse_reverse]

theorem filterAuxM_fails {p : α → Except ε Bool} {l : List α}
    (h : ∃ a ∈ l, ∃ e, p a = .error e) (done : List α) :
    ∃ e, l.filterAuxM p done = .error e := by
  induction l generalizing done with
  | nil => simp at h
  | cons a rest ih =>
    rw [List.filterAuxM]
    cases ha : p a with
    | error e => exact ⟨e, rfl⟩
    | ok b =>
      obtain ⟨c, hc, e, he⟩ := h
      rcases List.mem_cons.mp hc with rfl | hc
      · simp [ha] at he
      · exact ih ⟨c, hc, e, he⟩ _

theorem filterM_fails {p : α → Except ε Bool} {l : List α}
    (h : ∃ a ∈ l, ∃ e, p a = .error e) : ∃ e, l.filterM p = .error e := by
  obtain ⟨e, he⟩ := filterAuxM_fails h []
  exact ⟨e, by rw [List.filterM, he]; rfl⟩

theorem exists_of_filterAuxM_error {p : α → Except ε Bool} {l : List α} {done : List α} {e : ε}
    (h : l.filterAuxM p done = .error e) : ∃ a ∈ l, p a = .error e := by
  induction l generalizing done with
  | nil => cases h
  | cons a rest ih =>
    rw [List.filterAuxM] at h
    rw [List.exists_mem_cons_iff]
    rcases bind_eq_error_iff.mp h with ha | ⟨b, -, h⟩
    · exact .inl ha
    · exact .inr (ih h)

/-- The fault of a selection is the fault of a question that it asks. -/
theorem exists_of_filterM_error {p : α → Except ε Bool} {l : List α} {e : ε}
    (h : l.filterM p = .error e) : ∃ a ∈ l, p a = .error e := by
  rw [List.filterM] at h
  rcases bind_eq_error_iff.mp h with h | ⟨chosen, -, h⟩
  · exact exists_of_filterAuxM_error h
  · cases h

theorem mapM_eq_ok {f : α → Except ε β} {g : α → β} {l : List α}
    (h : ∀ a ∈ l, f a = .ok (g a)) : l.mapM f = .ok (l.map g) := by
  induction l with
  | nil => rfl
  | cons a rest ih =>
    rw [List.mapM_cons, h a List.mem_cons_self, ih fun b hb => h b (List.mem_cons_of_mem a hb)]
    rfl

theorem mapM_fails_iff {f : α → Except ε β} {l : List α} :
    (∃ e, l.mapM f = .error e) ↔ ∃ a ∈ l, ∃ e, f a = .error e := by
  induction l with
  | nil => simp [pure, Except.pure]
  | cons a rest ih =>
    rw [List.mapM_cons, List.exists_mem_cons_iff, ← ih]
    cases f a with
    | error e => simp [bind, Except.bind]
    | ok b => cases rest.mapM f <;> simp [bind, Except.bind, pure, Except.pure]

/-- A fold fails if one of its elements makes every step fail. -/
theorem foldlM_fails {σ : Type} {f : σ → α → Except ε σ} {l : List α}
    (h : ∃ a ∈ l, ∀ s, ∃ e, f s a = .error e) (s : σ) : ∃ e, l.foldlM f s = .error e := by
  induction l generalizing s with
  | nil => simp at h
  | cons a rest ih =>
    rw [List.foldlM_cons]
    cases ha : f s a with
    | error e => exact ⟨e, rfl⟩
    | ok next =>
      obtain ⟨b, hb, hfails⟩ := h
      rcases List.mem_cons.mp hb with rfl | hb
      · obtain ⟨e, he⟩ := hfails s
        simp [ha] at he
      · exact ih ⟨b, hb, hfails⟩ next

/-- A traversal answers with the answers of its steps, one for each element. -/
theorem forall₂_of_mapM {f : α → Except ε β} {l : List α} {bs : List β} (h : l.mapM f = .ok bs) :
    List.Forall₂ (fun a b => f a = .ok b) l bs := by
  induction l generalizing bs with
  | nil =>
    cases h
    exact .nil
  | cons a rest ih =>
    rw [List.mapM_cons] at h
    obtain ⟨b, hb, h⟩ := bind_eq_ok_iff.mp h
    obtain ⟨others, hothers, h⟩ := bind_eq_ok_iff.mp h
    cases h
    exact .cons hb (ih hothers)

theorem exists_of_mem_forall₂ {R : α → β → Prop} {l : List α} {m : List β}
    (h : List.Forall₂ R l m) {b : β} (hb : b ∈ m) : ∃ a ∈ l, R a b := by
  induction h with
  | nil => cases hb
  | cons hab _ ih =>
    rw [List.exists_mem_cons_iff]
    rcases List.mem_cons.mp hb with rfl | hb
    · exact .inl hab
    · exact .inr (ih hb)

theorem exists_forall₂ {R : α → β → Prop} {l : List α} (h : ∀ a ∈ l, ∃ b, R a b) :
    ∃ m, List.Forall₂ R l m := by
  induction l with
  | nil => exact ⟨[], .nil⟩
  | cons a rest ih =>
    obtain ⟨⟨b, hb⟩, hrest⟩ := List.forall_mem_cons.mp h
    obtain ⟨m, hm⟩ := ih hrest
    exact ⟨b :: m, .cons hb hm⟩

/-- A fold ends with the fault of the first step that fails. -/
theorem foldlM_eq_error_iff {σ : Type} {f : σ → α → Except ε σ} {l : List α} {s : σ} {e : ε} :
    l.foldlM f s = .error e ↔ ∃ before a after next, l = before ++ a :: after ∧
      before.foldlM f s = .ok next ∧ f next a = .error e := by
  induction l generalizing s with
  | nil => simp [pure, Except.pure]
  | cons b rest ih =>
    rw [List.foldlM_cons]
    constructor
    · intro h
      rcases bind_eq_error_iff.mp h with hb | ⟨t, hb, h⟩
      · exact ⟨[], b, rest, s, rfl, rfl, hb⟩
      · obtain ⟨before, a, after, next, rfl, hbefore, ha⟩ := ih.mp h
        refine ⟨b :: before, a, after, next, rfl, ?_, ha⟩
        rw [List.foldlM_cons, hb]
        exact hbefore
    · rintro ⟨before, a, after, next, hl, hbefore, ha⟩
      cases before with
      | nil =>
        obtain ⟨rfl, rfl⟩ := List.cons.inj hl
        cases hbefore
        rw [ha]
        rfl
      | cons c before =>
        obtain ⟨rfl, rfl⟩ := List.cons.inj hl
        obtain ⟨t, ht, hbefore⟩ := bind_eq_ok_iff.mp (List.foldlM_cons.symm.trans hbefore)
        rw [ht]
        exact ih.mpr ⟨before, a, after, next, rfl, hbefore, ha⟩

theorem toOption_bind (x : Except ε α) (f : α → Except ε β) :
    (x >>= f).toOption = x.toOption.bind fun a => (f a).toOption := by
  cases x <;> rfl

theorem eq_ok_iff_toOption (x : Except ε α) (a : α) : x = .ok a ↔ x.toOption = some a := by
  cases x <;> simp [Except.toOption]

/-- Both end with the same fault, or both answer and the answers are related. -/
inductive Alike (Related : α → β → Prop) : Except ε α → Except ε β → Prop
  | error (e : ε) : Alike Related (.error e) (.error e)
  | ok {a : α} {b : β} (h : Related a b) : Alike Related (.ok a) (.ok b)

theorem Alike.bind {γ δ : Type} {Related : α → β → Prop} {Next : γ → δ → Prop} {x : Except ε α}
    {y : Except ε β} {f : α → Except ε γ} {g : β → Except ε δ} (h : Alike Related x y)
    (hnext : ∀ a b, Related a b → Alike Next (f a) (g b)) : Alike Next (x >>= f) (y >>= g) := by
  cases h with
  | error e => exact .error e
  | ok h => exact hnext _ _ h

theorem Alike.bind_eq {γ : Type} {Related : α → β → Prop} {x : Except ε α} {y : Except ε β}
    {f : α → Except ε γ} {g : β → Except ε γ} (h : Alike Related x y)
    (hnext : ∀ a b, Related a b → f a = g b) : (x >>= f) = (y >>= g) := by
  cases h with
  | error e => rfl
  | ok h => exact hnext _ _ h

theorem Alike.map {γ δ : Type} {Related : α → β → Prop} {Next : γ → δ → Prop} {x : Except ε α}
    {y : Except ε β} {f : α → γ} {g : β → δ} (h : Alike Related x y)
    (hnext : ∀ a b, Related a b → Next (f a) (g b)) : Alike Next (x.map f) (y.map g) := by
  cases h with
  | error e => exact .error e
  | ok h => exact .ok (hnext _ _ h)

theorem Alike.foldlM {γ : Type} {Related : α → β → Prop} {f : α → γ → Except ε α}
    {g : β → γ → Except ε β} (hstep : ∀ a b c, Related a b → Alike Related (f a c) (g b c))
    (l : List γ) {a : α} {b : β} (h : Related a b) :
    Alike Related (l.foldlM f a) (l.foldlM g b) := by
  induction l generalizing a b with
  | nil => exact .ok h
  | cons c rest ih =>
    rw [List.foldlM_cons, List.foldlM_cons]
    exact (hstep a b c h).bind fun _ _ => ih

end Ripple.Outcome
