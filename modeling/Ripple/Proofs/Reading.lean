import Ripple.Proofs.Entries
import Ripple.Proofs.Outcome

/-! # What the readers return

Both readers set the entries of a mapping one after the other, so no key of a mapping occurs twice.
Only values without parts are keys and members of sets. A part of a document has this from the time
when it is empty, and it keeps it when its content is put in.
-/
namespace Ripple

open Outcome

namespace Value

def isAtom : Value → Bool
  | .list _ | .set _ | .map _ => false
  | _ => true

/-- No key of a mapping occurs twice, and keys and the members of sets have no parts. -/
inductive Tidy : Value → Prop
  | atom {v : Value} (h : v.isAtom = true) : Tidy v
  | list {vs : List Value} (h : ∀ v ∈ vs, Tidy v) : Tidy (.list vs)
  | set {vs : List Value} (h : ∀ v ∈ vs, v.isAtom = true) : Tidy (.set vs)
  | map {es : List (Value × Value)} (hnodup : (es.map (·.1)).Nodup)
    (hkeys : ∀ e ∈ es, e.1.isAtom = true) (hvalues : ∀ e ∈ es, Tidy e.2) : Tidy (.map es)

theorem get?_of_isAtom {v : Value} (h : v.isAtom = true) (key : String) : v.get? key = none := by
  cases v <;> first | rfl | cases h

end Value

/-- What makes a mapping of these entries tidy. -/
structure TidyEntries {α : Type} (TidyValue : α → Prop) (es : List (Value × α)) : Prop where
  nodup : (es.map (·.1)).Nodup
  keys : ∀ e ∈ es, e.1.isAtom = true
  values : ∀ e ∈ es, TidyValue e.2

namespace TidyEntries

variable {α : Type} {TidyValue : α → Prop} {es : List (Value × α)}

theorem nil : TidyEntries TidyValue [] := ⟨List.nodup_nil, by simp, by simp⟩

theorem put (h : TidyEntries TidyValue es) {k : Value} {v : α} (hk : k.isAtom = true)
    (hv : TidyValue v) : TidyEntries TidyValue (Value.put k v es) where
  nodup := Value.nodup_keys_put h.nodup k v
  keys e he := by
    rcases Value.mem_put he with rfl | he
    · exact hk
    · exact h.keys e he
  values e he := by
    rcases Value.mem_put he with rfl | he
    · exact hv
    · exact h.values e he

theorem tidy {es : List (Value × Value)} (h : TidyEntries Value.Tidy es) : Value.Tidy (.map es) :=
  .map h.nodup h.keys h.values

theorem of_tidy {es : List (Value × Value)} (h : Value.Tidy (.map es)) :
    TidyEntries Value.Tidy es := by
  cases h with
  | atom h => cases h
  | map hnodup hkeys hvalues => exact ⟨hnodup, hkeys, hvalues⟩

end TidyEntries

namespace ValueGraph

/-- What is not a part by its number has no parts. -/
def Cell.Tidy (c : Cell) : Prop := ∀ v, c = .atom v → v.isAtom = true

theorem Cell.tidy_part (n : Nat) : Cell.Tidy (.part n) := fun _ h => nomatch h

theorem Cell.tidy_atom {v : Value} (h : v.isAtom = true) : Cell.Tidy (.atom v) := by
  rintro _ ⟨⟩
  exact h

inductive Part.Tidy : Part → Prop
  | list {items : List Cell} (h : ∀ c ∈ items, c.Tidy) : Tidy (.list items)
  | set {members : List Value} (h : ∀ v ∈ members, v.isAtom = true) : Tidy (.set members)
  | map {es : List (Value × Cell)} (h : TidyEntries Cell.Tidy es) : Tidy (.map es)

structure Tidy (d : ValueGraph) : Prop where
  root : d.root.Tidy
  parts : ∀ part ∈ d.parts, part.Tidy

theorem Tidy.entries {d : ValueGraph} (h : d.Tidy) : TidyEntries Cell.Tidy d.entries := by
  rw [ValueGraph.entries, entries?.eq_def]
  split
  · exact .nil
  · split
    · next es hn =>
      cases h.parts _ (List.mem_of_getElem? hn) with
      | map h => exact h
    · exact .nil

theorem keys_addEntries (parts : List Part) (es : List (Value × Value)) :
    (addEntries parts es).2.map (·.1) = es.map (·.1) := by
  induction es generalizing parts with
  | nil => rfl
  | cons e rest ih => exact congrArg (e.1 :: ·) (ih _)

mutual

theorem tidy_addValue : ∀ {v : Value} {parts : List Part}, v.Tidy →
    (∀ part ∈ parts, part.Tidy) →
    (∀ part ∈ (addValue parts v).1, part.Tidy) ∧ (addValue parts v).2.Tidy
  | .list vs, parts, h, hparts => by
    have hvs : ∀ v ∈ vs, v.Tidy := by
      cases h with
      | atom h => cases h
      | list h => exact h
    obtain ⟨hrest, hitems⟩ := tidy_addValues hvs hparts
    exact ⟨List.forall_mem_append.mpr ⟨hrest, List.forall_mem_singleton.mpr (.list hitems)⟩,
      Cell.tidy_part _⟩
  | .set vs, parts, h, hparts => by
    have hvs : ∀ v ∈ vs, v.isAtom = true := by
      cases h with
      | atom h => cases h
      | set h => exact h
    exact ⟨List.forall_mem_append.mpr ⟨hparts, List.forall_mem_singleton.mpr (.set hvs)⟩,
      Cell.tidy_part _⟩
  | .map es, parts, h, hparts => by
    have hes := TidyEntries.of_tidy h
    obtain ⟨hrest, hcells⟩ := tidy_addEntries hes.values hparts
    have hkeys := keys_addEntries parts es
    refine ⟨List.forall_mem_append.mpr ⟨hrest, List.forall_mem_singleton.mpr
      (.map ⟨hkeys ▸ hes.nodup, fun e he => ?_, hcells⟩)⟩, Cell.tidy_part _⟩
    have hkey := List.mem_map_of_mem (f := Prod.fst) he
    rw [hkeys] at hkey
    obtain ⟨own, hown, heq⟩ := List.mem_map.mp hkey
    exact heq ▸ hes.keys own hown
  | .null, _, _, hparts | .bool _, _, _, hparts | .int _, _, _, hparts | .float _, _, _, hparts
  | .text _, _, _, hparts | .brokenText, _, _, hparts | .bytes _, _, _, hparts
  | .date _, _, _, hparts | .stamp _, _, _, hparts => ⟨hparts, Cell.tidy_atom rfl⟩

theorem tidy_addValues : ∀ {vs : List Value} {parts : List Part}, (∀ v ∈ vs, v.Tidy) →
    (∀ part ∈ parts, part.Tidy) →
    (∀ part ∈ (addValues parts vs).1, part.Tidy) ∧ ∀ c ∈ (addValues parts vs).2, c.Tidy
  | [], _, _, hparts => ⟨hparts, by simp [addValues]⟩
  | v :: rest, parts, h, hparts => by
    obtain ⟨hv, hrest⟩ := List.forall_mem_cons.mp h
    obtain ⟨hnext, hc⟩ := tidy_addValue hv hparts
    obtain ⟨hlast, hcells⟩ := tidy_addValues hrest hnext
    exact ⟨hlast, List.forall_mem_cons.mpr ⟨hc, hcells⟩⟩

theorem tidy_addEntries : ∀ {es : List (Value × Value)} {parts : List Part},
    (∀ e ∈ es, e.2.Tidy) → (∀ part ∈ parts, part.Tidy) →
    (∀ part ∈ (addEntries parts es).1, part.Tidy) ∧ ∀ e ∈ (addEntries parts es).2, e.2.Tidy
  | [], _, _, hparts => ⟨hparts, by simp [addEntries]⟩
  | (k, v) :: rest, parts, h, hparts => by
    obtain ⟨hv, hrest⟩ := List.forall_mem_cons.mp h
    obtain ⟨hnext, hc⟩ := tidy_addValue hv hparts
    obtain ⟨hlast, hcells⟩ := tidy_addEntries hrest hnext
    exact ⟨hlast, List.forall_mem_cons.mpr ⟨hc, hcells⟩⟩

end

theorem tidy_ofValue {v : Value} (h : v.Tidy) : (ofValue v).Tidy :=
  have hadded := tidy_addValue h (by simp)
  ⟨hadded.2, hadded.1⟩

end ValueGraph

namespace Yaml

open ValueGraph (Cell Part)

theorem Scalar.isAtom_of_value {tag : Tag} {content : Content} {v : Value}
    (h : Scalar.value tag content = .ok v) : v.isAtom = true := by
  cases content with
  | none =>
    rw [Scalar.value] at h
    split at h <;> cases h
    rfl
  | some s =>
    cases tag with
    | bool =>
      rw [Scalar.value, truth] at h
      split at h <;> cases h
      rfl
    | int =>
      obtain ⟨i, -, rfl⟩ := map_eq_ok_iff.mp h
      rfl
    | float =>
      obtain ⟨x, -, rfl⟩ := map_eq_ok_iff.mp h
      rfl
    | binary =>
      rw [Scalar.value, bytes] at h
      split at h
      · cases h
      · split at h <;> cases h
        rfl
    | timestamp =>
      rw [Scalar.value, instant] at h
      split at h
      · cases h
      · split at h <;> cases h <;> rfl
    | null | str =>
      cases h
      rfl
    | _ => cases h

namespace Draft

/-- What holds of a draft at every time. -/
structure Tidy (s : Draft) : Prop where
  met : ∀ e ∈ s.met, e.2.Tidy
  parts : ∀ part ∈ s.parts, part.Tidy

theorem tidy_blank {tag : Tag} {part : Part} (h : blank? tag = some part) : part.Tidy := by
  cases tag <;> cases h
  all_goals first
    | exact .list (by simp)
    | exact .map .nil
    | exact .set (by simp)

variable {s next : Draft}

theorem Tidy.build (hs : s.Tidy) {n : Nat} {c : Cell} (h : s.build n = .ok (c, next)) :
    next.Tidy ∧ c.Tidy := by
  rw [Draft.build] at h
  split at h
  · next hc =>
    cases h
    obtain ⟨before, after, hmet, -⟩ := List.lookup_eq_some_iff.mp hc
    exact ⟨hs, hs.met (n, c) (by simp [hmet])⟩
  · dsimp only at h
    split at h
    · next part hpart =>
      cases h
      have hblank := List.forall_mem_singleton.mpr (tidy_blank hpart)
      exact ⟨⟨List.forall_mem_cons.mpr ⟨Cell.tidy_part _, hs.met⟩,
        List.forall_mem_append.mpr ⟨hs.parts, hblank⟩⟩, Cell.tidy_part _⟩
    · split at h
      · cases h
      · obtain ⟨content, -, h⟩ := bind_eq_ok_iff.mp h
        obtain ⟨v, hv, h⟩ := bind_eq_ok_iff.mp h
        cases h
        have hc := Cell.tidy_atom (Scalar.isAtom_of_value hv)
        exact ⟨⟨List.forall_mem_cons.mpr ⟨hc, hs.met⟩, hs.parts⟩, hc⟩

theorem Tidy.buildAll (hs : s.Tidy) {ns : List Nat} {cells : List Cell}
    (h : s.buildAll ns = .ok (cells, next)) : next.Tidy ∧ ∀ c ∈ cells, c.Tidy := by
  induction ns generalizing s cells with
  | nil =>
    cases h
    exact ⟨hs, by simp⟩
  | cons n rest ih =>
    obtain ⟨⟨c, s⟩, hc, h⟩ := bind_eq_ok_iff.mp h
    obtain ⟨⟨cells, s⟩, hcells, h⟩ := bind_eq_ok_iff.mp h
    cases h
    obtain ⟨hs, hc⟩ := hs.build hc
    obtain ⟨hs, hcells⟩ := ih hs hcells
    exact ⟨hs, List.forall_mem_cons.mpr ⟨hc, hcells⟩⟩

theorem Tidy.buildPairs (hs : s.Tidy) {ns : List Nat} {cells : List Cell}
    (h : s.buildPairs ns = .ok (cells, next)) : next.Tidy ∧ ∀ c ∈ cells, c.Tidy := by
  induction ns generalizing s cells with
  | nil =>
    cases h
    exact ⟨hs, by simp⟩
  | cons n rest ih =>
    rw [Draft.buildPairs] at h
    split at h
    · obtain ⟨⟨pair, s⟩, hpair, h⟩ := bind_eq_ok_iff.mp h
      obtain ⟨⟨cells, s⟩, hcells, h⟩ := bind_eq_ok_iff.mp h
      cases h
      obtain ⟨hs, hpair⟩ := hs.buildAll hpair
      have hadded : Tidy { s with parts := s.parts ++ [.list pair] } := ⟨hs.met,
        List.forall_mem_append.mpr ⟨hs.parts, List.forall_mem_singleton.mpr (.list hpair)⟩⟩
      obtain ⟨hs, hcells⟩ := ih hadded hcells
      exact ⟨hs, List.forall_mem_cons.mpr ⟨Cell.tidy_part _, hcells⟩⟩
    · cases h

theorem Tidy.buildEntries (hs : s.Tidy) {done es : List (Value × Cell)} {ns : List (Nat × Nat)}
    (hdone : TidyEntries Cell.Tidy done) (h : s.buildEntries done ns = .ok (es, next)) :
    next.Tidy ∧ TidyEntries Cell.Tidy es := by
  induction ns generalizing s done with
  | nil =>
    cases h
    exact ⟨hs, hdone⟩
  | cons e rest ih =>
    obtain ⟨⟨key, s⟩, hkey, h⟩ := bind_eq_ok_iff.mp h
    obtain ⟨hs, hkey⟩ := hs.build hkey
    cases key with
    | part n => cases h
    | atom key =>
      obtain ⟨⟨c, s⟩, hc, h⟩ := bind_eq_ok_iff.mp h
      obtain ⟨hs, hc⟩ := hs.build hc
      exact ih hs (hdone.put (hkey key rfl) hc) h

theorem Tidy.buildMapping (hs : s.Tidy) {n : Nat} {es : List (Value × Cell)}
    (h : s.buildMapping n = .ok (es, next)) : next.Tidy ∧ TidyEntries Cell.Tidy es := by
  obtain ⟨nodes, -, h⟩ := bind_eq_ok_iff.mp h
  have hs : Tidy { s with nodes } := ⟨hs.met, hs.parts⟩
  exact hs.buildEntries .nil h

theorem Tidy.buildPart (hs : s.Tidy) {n : Nat} {part : Part}
    (h : s.buildPart n = .ok (part, next)) : next.Tidy ∧ part.Tidy := by
  rw [Draft.buildPart] at h
  split at h
  · obtain ⟨⟨cells, s⟩, hcells, h⟩ := bind_eq_ok_iff.mp h
    cases h
    exact (hs.buildAll hcells).imp id .list
  · obtain ⟨⟨cells, s⟩, hcells, h⟩ := bind_eq_ok_iff.mp h
    cases h
    exact (hs.buildPairs hcells).imp id .list
  · obtain ⟨⟨cells, s⟩, hcells, h⟩ := bind_eq_ok_iff.mp h
    cases h
    exact (hs.buildPairs hcells).imp id .list
  · obtain ⟨⟨es, s⟩, hes, h⟩ := bind_eq_ok_iff.mp h
    cases h
    exact (hs.buildMapping hes).imp id .map
  · obtain ⟨⟨es, s⟩, hes, h⟩ := bind_eq_ok_iff.mp h
    cases h
    obtain ⟨hs, hes⟩ := hs.buildMapping hes
    exact ⟨hs, .set (List.forall_mem_map.mpr hes.keys)⟩
  · cases h

theorem Tidy.fill (hs : s.Tidy) {fuel : Nat} (h : s.fill fuel = .ok next) : next.Tidy := by
  induction fuel generalizing s with
  | zero =>
    cases h
    exact hs
  | succ fuel ih =>
    rw [Draft.fill] at h
    split at h
    · cases h
      exact hs
    · next n place rest _ =>
      obtain ⟨⟨part, filled⟩, hpart, h⟩ := bind_eq_ok_iff.mp h
      have hs : Tidy { s with pending := rest } := ⟨hs.met, hs.parts⟩
      obtain ⟨hfilled, hpart⟩ := hs.buildPart hpart
      have hset : Tidy { filled with parts := filled.parts.set place part } :=
        ⟨hfilled.met, fun other hother =>
          (List.mem_or_eq_of_mem_set hother).elim (hfilled.parts other) fun h => h ▸ hpart⟩
      exact ih hset h

end Draft

/-- A document in YAML is tidy. -/
theorem tidy_of_parse {s : List Char} {d : ValueGraph} (h : parse s = .ok d) : d.Tidy := by
  obtain ⟨⟨root?, nodes⟩, -, h⟩ := bind_eq_ok_iff.mp h
  cases root? with
  | none =>
    cases h
    exact ⟨Cell.tidy_atom rfl, by simp⟩
  | some n =>
    obtain ⟨⟨root, s⟩, hroot, h⟩ := bind_eq_ok_iff.mp h
    obtain ⟨next, hnext, h⟩ := bind_eq_ok_iff.mp h
    cases h
    obtain ⟨hs, hroot⟩ := Draft.Tidy.build ⟨by simp, by simp⟩ hroot
    exact ⟨hroot, (hs.fill hnext).parts⟩

end Yaml

namespace Json

theorem isAtom_of_readString {opening s rest : List Char} {fuel : Nat} {draft : Draft} {v : Value}
    (h : readString opening fuel draft s = .ok (v, rest)) : v.isAtom = true := by
  induction fuel generalizing draft s with
  | zero => cases h
  | succ fuel ih =>
    rw [readString.eq_def] at h
    dsimp only at h
    split at h
    · cases h
    · cases h
      cases draft <;> rfl
    · cases h
    · obtain ⟨⟨c, tail⟩, -, h⟩ := bind_eq_ok_iff.mp h
      exact ih h
    · split at h
      · exact ih h
      · cases h
    · split at h
      · cases h
      · exact ih h

theorem isAtom_of_readNumber {s rest : List Char} {v : Value}
    (h : readNumber s = .ok (v, rest)) : v.isAtom = true := by
  unfold readNumber at h
  split at h
  extract_lets whole at h
  split at h
  · cases h
  · split at h
    split at h
    · split at h <;> cases h
      rfl
    · split at h
      cases h
      rfl

theorem isAtom_of_mem_words : ∀ w ∈ words, w.2.isAtom = true := by decide

mutual

theorem tidy_of_readValue : ∀ {fuel : Nat} {s rest : List Char} {v : Value},
    readValue fuel s = .ok (v, rest) → v.Tidy
  | 0, _, _, _, h => nomatch h
  | fuel + 1, s, rest, v, h => by
    rw [readValue.eq_def] at h
    dsimp only at h
    split at h
    · exact .atom (isAtom_of_readString h)
    · split at h
      · cases h
        exact .list (by simp)
      · exact tidy_of_readItems (by simp) h
    · split at h
      · cases h
        exact TidyEntries.nil.tidy
      · exact tidy_of_readMembers .nil h
    · split at h
      · next w value hfind =>
        cases h
        exact .atom (isAtom_of_mem_words _ (List.mem_of_find?_eq_some hfind))
      · exact .atom (isAtom_of_readNumber h)

theorem tidy_of_readItems : ∀ {fuel : Nat} {items : List Value} {s rest : List Char} {v : Value},
    (∀ item ∈ items, item.Tidy) → readItems fuel items s = .ok (v, rest) → v.Tidy
  | 0, _, _, _, _, _, h => nomatch h
  | fuel + 1, items, s, rest, v, hitems, h => by
    rw [readItems.eq_def] at h
    obtain ⟨⟨item, tail⟩, hitem, h⟩ := bind_eq_ok_iff.mp h
    have hnext := List.forall_mem_cons.mpr ⟨tidy_of_readValue hitem, hitems⟩
    dsimp only at h
    split at h
    · cases h
      exact .list fun v hv => hnext v (List.mem_reverse.mp hv)
    · exact tidy_of_readItems hnext h
    · cases h

theorem tidy_of_readMembers : ∀ {fuel : Nat} {es : List (Value × Value)} {s rest : List Char}
    {v : Value}, TidyEntries Value.Tidy es → readMembers fuel es s = .ok (v, rest) → v.Tidy
  | 0, _, _, _, _, _, h => nomatch h
  | fuel + 1, es, s, rest, v, hes, h => by
    rw [readMembers.eq_def] at h
    dsimp only at h
    split at h
    · obtain ⟨⟨name, tail⟩, hname, h⟩ := bind_eq_ok_iff.mp h
      dsimp only at h
      split at h
      · obtain ⟨⟨value, tail⟩, hvalue, h⟩ := bind_eq_ok_iff.mp h
        have hnext := hes.put (isAtom_of_readString hname) (tidy_of_readValue hvalue)
        dsimp only at h
        split at h
        · cases h
          exact hnext.tidy
        · exact tidy_of_readMembers hnext h
        · cases h
      · cases h
    · cases h

end

/-- A document in JSON is tidy. -/
theorem tidy_of_parse {s : List Char} {v : Value} (h : parse s = .ok v) : v.Tidy := by
  rw [parse.eq_def] at h
  split at h
  · cases h
  · obtain ⟨⟨w, rest⟩, hw, h⟩ := bind_eq_ok_iff.mp h
    dsimp only at h
    split at h
    · cases h
      exact tidy_of_readValue hw
    · cases h

end Json

end Ripple
