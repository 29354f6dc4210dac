import Mathlib.Data.List.Forall2
import Mathlib.Data.Option.Basic
import Ripple.Proofs.RepositoryPaths

/-! # How deep a configuration is looked into

A part of a document may hold itself, and then its value has no end; values are given down to a
depth. The check of a configuration looks at lists of mappings with lists, and at what kind of thing
these hold, so a value that goes deeper is checked like one that ends there. Nor does it look at
what mappings other than repositories hold under `path`.
-/
namespace Ripple

namespace Value

/-- The same keys in the same order, with the same values but for some of the keys. -/
def EqualBut {α : Type} (skipped : Value → Prop) (es fs : List (Value × α)) : Prop :=
  List.Forall₂ (fun e f => e.1 = f.1 ∧ (¬ skipped e.1 → e.2 = f.2)) es fs

theorem EqualBut.refl {α : Type} (skipped : Value → Prop) (es : List (Value × α)) :
    EqualBut skipped es es :=
  List.forall₂_same.mpr fun _ _ => ⟨rfl, fun _ => rfl⟩

theorem equalBut_put {α : Type} {skipped : Value → Prop} {key : String} {v w : α}
    {es : List (Value × α)} (hkey : skipped (.text key)) (h : find? key es = some v) :
    EqualBut skipped es (put (.text key) w es) := by
  induction es with
  | nil => cases h
  | cons e rest ih =>
    obtain ⟨k, u⟩ := e
    rw [find?_cons] at h
    rw [put]
    by_cases hk : k = .text key
    · rw [hk, beq_self_eq_true, if_pos rfl]
      exact .cons ⟨rfl, fun hne => absurd hkey hne⟩ (EqualBut.refl skipped rest)
    · rw [if_neg hk] at h
      rw [beq_false_of_ne hk, if_neg Bool.false_ne_true]
      exact .cons ⟨rfl, fun _ => rfl⟩ (ih h)

/-- Two values are the same down to a depth, but for what mappings hold under some of the keys. -/
def SameTo (skipped : Value → Prop) : Nat → Value → Value → Prop
  | 0, _, _ => True
  | depth + 1, .list vs, .list ws => List.Forall₂ (SameTo skipped depth) vs ws
  | depth + 1, .map es, .map fs =>
    List.Forall₂ (fun e f => e.1 = f.1 ∧ (¬ skipped e.1 → SameTo skipped depth e.2 f.2)) es fs
  | _ + 1, v, w => v = w

/-- Two mappings have the same keys and under these the same values down to a depth. -/
def SameEntriesTo (skipped : Value → Prop) (depth : Nat) (es fs : List (Value × Value)) : Prop :=
  List.Forall₂ (fun e f => e.1 = f.1 ∧ (¬ skipped e.1 → SameTo skipped depth e.2 f.2)) es fs

variable {skipped : Value → Prop} {depth : Nat} {v w : Value} {es fs : List (Value × Value)}

theorem SameTo.refl (skipped : Value → Prop) (depth : Nat) (v : Value) :
    SameTo skipped depth v v := by
  induction depth generalizing v with
  | zero => trivial
  | succ depth ih =>
    cases v with
    | list vs => exact List.forall₂_same.mpr fun v _ => ih v
    | map es => exact List.forall₂_same.mpr fun e _ => ⟨rfl, fun _ => ih e.2⟩
    | _ => rfl

theorem SameTo.cases (h : SameTo skipped (depth + 1) v w) :
    (v = w ∧ (∀ vs, v ≠ .list vs) ∧ ∀ es, v ≠ .map es) ∨
      (∃ vs ws, v = .list vs ∧ w = .list ws ∧ List.Forall₂ (SameTo skipped depth) vs ws) ∨
      ∃ es fs, v = .map es ∧ w = .map fs ∧ SameEntriesTo skipped depth es fs := by
  cases v <;> cases w <;> simp_all [SameTo, SameEntriesTo]

namespace SameEntriesTo

theorem refl (skipped : Value → Prop) (depth : Nat) (es : List (Value × Value)) :
    SameEntriesTo skipped depth es es :=
  List.forall₂_same.mpr fun e _ => ⟨rfl, fun _ => .refl skipped depth e.2⟩

theorem find? (h : SameEntriesTo skipped depth es fs) (k : Value) (hk : ¬ skipped k) :
    Option.Rel (SameTo skipped depth) ((es.find? (·.1 == k)).map (·.2))
      ((fs.find? (·.1 == k)).map (·.2)) := by
  induction h with
  | nil => exact .none
  | @cons e f _ _ hef _ ih =>
    rw [List.find?_cons, List.find?_cons, ← hef.1]
    by_cases he : e.1 = k
    · rw [he, beq_self_eq_true]
      exact .some (hef.2 (he ▸ hk))
    · rw [beq_false_of_ne he]
      exact ih

theorem put (h : SameEntriesTo skipped depth es fs) {k : Value}
    (hvw : ¬ skipped k → SameTo skipped depth v w) :
    SameEntriesTo skipped depth (Value.put k v es) (Value.put k w fs) := by
  induction h with
  | nil => exact .cons ⟨rfl, hvw⟩ .nil
  | @cons e f es fs hef hrest ih =>
    obtain ⟨l, x⟩ := e
    obtain ⟨l', y⟩ := f
    obtain ⟨rfl, hxy⟩ := hef
    rw [Value.put, Value.put]
    split
    · exact .cons ⟨rfl, by simp_all⟩ hrest
    · exact .cons ⟨rfl, hxy⟩ ih

/-- What a mapping holds under a key that is skipped does not matter. -/
theorem put_left (h : SameEntriesTo skipped depth es fs) {k : Value} (hk : skipped k)
    (hmem : k ∈ es.map (·.1)) : SameEntriesTo skipped depth (Value.put k v es) fs := by
  induction h with
  | nil => simp at hmem
  | @cons e f es fs hef hrest ih =>
    obtain ⟨l, x⟩ := e
    rw [Value.put]
    by_cases hl : l = k
    · rw [hl, beq_self_eq_true, if_pos rfl]
      exact .cons ⟨hl ▸ hef.1, fun hnot => absurd hk hnot⟩ hrest
    · rw [beq_false_of_ne hl, if_neg Bool.false_ne_true]
      exact .cons hef (ih ((List.mem_cons.mp hmem).resolve_left (Ne.symm hl)))

end SameEntriesTo

theorem SameTo.isHollow_eq (h : SameTo skipped (depth + 1) v w) : v.isHollow = w.isHollow := by
  rcases h.cases with ⟨rfl, -⟩ | ⟨vs, ws, rfl, rfl, hall⟩ | ⟨es, fs, rfl, rfl, hall⟩
  · rfl
  · cases hall <;> rfl
  · cases hall <;> rfl

end Value

open Value (SameTo SameEntriesTo)

namespace ValueGraph

variable {skipped : Value → Prop} {d e : ValueGraph}

/-- Two documents are the same but for what their mappings hold under some of the keys. -/
def SameBut (skipped : Value → Prop) (d e : ValueGraph) : Prop :=
  ∀ n : Nat, d.parts[n]? = e.parts[n]? ∨
    ∃ es fs, d.parts[n]? = some (Part.map es) ∧ e.parts[n]? = some (Part.map fs) ∧
      Value.EqualBut skipped es fs

theorem SameBut.refl (skipped : Value → Prop) (d : ValueGraph) : SameBut skipped d d :=
  fun _ => .inl rfl

theorem sameEntriesTo_map {depth m n : Nat}
    (hvalue : ∀ c, SameTo skipped depth (d.value m c) (e.value n c)) {es fs : List (Value × Cell)}
    (h : Value.EqualBut skipped es fs) :
    SameEntriesTo skipped depth (es.map fun x => (x.1, d.value m x.2))
      (fs.map fun y => (y.1, e.value n y.2)) := by
  rw [SameEntriesTo, List.forall₂_map_left_iff, List.forall₂_map_right_iff]
  exact h.imp fun x y hxy => ⟨hxy.1, fun hx => hxy.2 hx ▸ hvalue x.2⟩

/-- However far the values of a place go down, they are the same as far as both of them go. -/
theorem sameTo_value (h : SameBut skipped d e) {depth m n : Nat} (hm : depth ≤ m) (hn : depth ≤ n)
    (c : Cell) : SameTo skipped depth (d.value m c) (e.value n c) := by
  induction depth generalizing m n c with
  | zero => trivial
  | succ depth ih =>
    obtain ⟨m, rfl⟩ := Nat.exists_eq_succ_of_ne_zero (Nat.ne_zero_of_lt hm)
    obtain ⟨n, rfl⟩ := Nat.exists_eq_succ_of_ne_zero (Nat.ne_zero_of_lt hn)
    have hrest := fun c => ih (Nat.le_of_succ_le_succ hm) (Nat.le_of_succ_le_succ hn) c
    cases c with
    | atom v => exact .refl skipped _ v
    | part i =>
      rw [value_part, value_part]
      rcases h i with hsame | ⟨es, fs, hes, hfs, hall⟩
      · rw [hsame]
        rcases e.parts[i]? with _ | ⟨items | members | es⟩
        · rfl
        · exact List.forall₂_map_left_iff.mpr (List.forall₂_map_right_iff.mpr
            (List.forall₂_same.mpr fun c _ => hrest c))
        · rfl
        · exact sameEntriesTo_map hrest (.refl skipped es)
      · rw [hes, hfs]
        exact sameEntriesTo_map hrest hall

end ValueGraph

namespace Settings

variable {skipped : Value → Prop} {depth : Nat}

theorem sameEntriesTo_mergeEntries
    (hvalue : ∀ old old' v v', Option.Rel (SameTo skipped depth) old old' →
      SameTo skipped depth v v' →
      SameTo skipped depth (mergeValue old v) (mergeValue old' v'))
    {base base' es fs : List (Value × Value)} (hbase : SameEntriesTo skipped depth base base')
    (h : SameEntriesTo skipped depth es fs) :
    SameEntriesTo skipped depth (mergeEntries base es) (mergeEntries base' fs) := by
  induction h generalizing base base' with
  | nil => exact hbase
  | @cons e f _ _ hef _ ih =>
    obtain ⟨k, v⟩ := e
    obtain ⟨k', w⟩ := f
    obtain ⟨rfl, hvw⟩ := hef
    exact ih (hbase.put fun hk => hvalue _ _ v w (hbase.find? k hk) (hvw hk))

theorem sameTo_mergeValue {old old' : Option Value} {v v' : Value}
    (hold : Option.Rel (SameTo skipped depth) old old') (h : SameTo skipped depth v v') :
    SameTo skipped depth (mergeValue old v) (mergeValue old' v') := by
  induction depth generalizing old old' v v' with
  | zero => trivial
  | succ depth ih =>
    rcases h.cases with ⟨rfl, -, hmap⟩ | ⟨vs, ws, rfl, rfl, -⟩ | ⟨es, fs, rfl, rfl, hes⟩
    · have hkept : ∀ old, mergeValue old v = v := by
        cases v with
        | map es => exact absurd rfl (hmap es)
        | _ => exact fun _ => rfl
      rwa [hkept, hkept]
    · exact h
    · cases hold with
      | none => exact h
      | @some x y hxy =>
        rcases hxy.cases with ⟨rfl, -, hmap⟩ | ⟨vs, ws, rfl, rfl, -⟩ | ⟨bs, cs, rfl, rfl, hbs⟩
        · cases x with
          | map es => exact absurd rfl (hmap es)
          | _ => exact h
        · exact h
        · exact sameEntriesTo_mergeEntries (fun _ _ _ _ => ih) hbs hes

end Settings

namespace Checker

variable {α : Type} {skipped : Value → Prop} {depth : Nat} {es fs : List (Value × Value)}

/-- The check looks no deeper, and not at what mappings hold under the keys that are skipped. -/
def LooksTo (skipped : Value → Prop) (depth : Nat) (check : Checker α) : Prop :=
  ∀ v w, SameTo skipped depth v w → check v = check w

/-- A check that takes neither lists nor mappings looks at the kind of a value. -/
theorem looksTo_of_kind {check : Checker α} (hlist : ∀ vs ws, check (.list vs) = check (.list ws))
    (hmap : ∀ es fs, check (.map es) = check (.map fs)) : LooksTo skipped (depth + 1) check := by
  intro v w h
  rcases h.cases with ⟨rfl, -⟩ | ⟨vs, ws, rfl, rfl, -⟩ | ⟨es, fs, rfl, rfl, -⟩
  · rfl
  · exact hlist vs ws
  · exact hmap es fs

theorem looksTo_text : LooksTo skipped (depth + 1) text :=
  looksTo_of_kind (fun _ _ => rfl) fun _ _ => rfl

theorem looksTo_sizedText (least : Nat) (most : Option Nat) :
    LooksTo skipped (depth + 1) (sizedText least most) :=
  looksTo_of_kind (fun _ _ => rfl) fun _ _ => rfl

theorem looksTo_member (choices : List (String × α)) :
    LooksTo skipped (depth + 1) (member choices) :=
  looksTo_of_kind (fun _ _ => rfl) fun _ _ => rfl

theorem looksTo_literal (choices : List (String × α)) :
    LooksTo skipped (depth + 1) (literal choices) :=
  looksTo_of_kind (fun _ _ => rfl) fun _ _ => rfl

theorem looksTo_path : LooksTo skipped (depth + 1) path :=
  looksTo_of_kind (fun _ _ => rfl) fun _ _ => rfl

theorem looksTo_repositoryPath (homes : Homes) :
    LooksTo skipped (depth + 1) (repositoryPath homes) :=
  looksTo_of_kind (fun _ _ => rfl) fun _ _ => rfl

theorem LooksTo.optional {check : Checker α} (h : LooksTo skipped (depth + 1) check) :
    LooksTo skipped (depth + 1) (optional check) := by
  intro v w hvw
  have hcheck := h v w hvw
  rcases hvw.cases with ⟨rfl, -⟩ | ⟨vs, ws, rfl, rfl, -⟩ | ⟨es, fs, rfl, rfl, -⟩
  · rfl
  · exact congrArg (Check.map some) hcheck
  · exact congrArg (Check.map some) hcheck

theorem LooksTo.atLeast {check : Checker (List α)} (h : LooksTo skipped depth check) (least : Nat) :
    LooksTo skipped depth (atLeast least check) := fun v w hvw => by
  rw [Checker.atLeast, Checker.atLeast, h v w hvw]

theorem LooksTo.items {check : Checker α} {vs ws : List Value}
    (h : List.Forall₂ (fun v w => check v = check w) vs ws) (n : Nat) :
    Check.items check n vs = Check.items check n ws := by
  induction h generalizing n with
  | nil => rfl
  | cons hvw _ ih => rw [Check.items, Check.items, hvw, ih]

theorem LooksTo.list {check : Checker α} (h : LooksTo skipped depth check) :
    LooksTo skipped (depth + 1) (list check) := by
  intro v w hvw
  rcases hvw.cases with ⟨rfl, -⟩ | ⟨vs, ws, rfl, rfl, hall⟩ | ⟨es, fs, rfl, rfl, -⟩
  · rfl
  · exact LooksTo.items (hall.imp h) 0
  · rfl

theorem looksTo_record {name : String} {fields : List (Value × Value) → Check α}
    (h : ∀ es fs, SameEntriesTo skipped depth es fs → fields es = fields fs) :
    LooksTo skipped (depth + 1) (record name fields) := by
  intro v w hvw
  rcases hvw.cases with ⟨rfl, -⟩ | ⟨vs, ws, rfl, rfl, -⟩ | ⟨es, fs, rfl, rfl, hes⟩
  · rfl
  · rfl
  · exact h es fs hes

theorem required_congr {name : String} {check : Checker α}
    (h : Option.Rel (fun v w => check v = check w) (Value.find? name es) (Value.find? name fs)) :
    required name check es = required name check fs := by
  rw [required, required]
  generalize Value.find? name es = found, Value.find? name fs = found' at h
  cases h with
  | none => rfl
  | some hvw => exact congrArg (Check.under (.key name)) hvw

theorem defaulted_congr {name : String} {check : Checker α} (default : α)
    (h : Option.Rel (fun v w => check v = check w) (Value.find? name es) (Value.find? name fs)) :
    defaulted name check default es = defaulted name check default fs := by
  rw [defaulted, defaulted]
  generalize Value.find? name es = found, Value.find? name fs = found' at h
  cases h with
  | none => rfl
  | some hvw => exact congrArg (Check.under (.key name)) hvw

/-- What two mappings hold under a key is checked alike. -/
theorem LooksTo.find? {check : Checker α} (hcheck : LooksTo skipped depth check)
    (h : SameEntriesTo skipped depth es fs) {name : String} (hname : ¬ skipped (.text name)) :
    Option.Rel (fun v w => check v = check w) (Value.find? name es) (Value.find? name fs) := by
  have hfound := h.find? (.text name) hname
  rw [← Value.find?_eq, ← Value.find?_eq] at hfound
  generalize Value.find? name es = found, Value.find? name fs = found' at hfound
  cases hfound with
  | none => exact .none
  | some hvw => exact .some (hcheck _ _ hvw)

theorem LooksTo.required {check : Checker α} (hcheck : LooksTo skipped depth check)
    (h : SameEntriesTo skipped depth es fs) {name : String} (hname : ¬ skipped (.text name)) :
    required name check es = required name check fs :=
  required_congr (hcheck.find? h hname)

theorem LooksTo.defaulted {check : Checker α} (hcheck : LooksTo skipped depth check)
    (h : SameEntriesTo skipped depth es fs) {name : String} (hname : ¬ skipped (.text name))
    (default : α) : defaulted name check default es = defaulted name check default fs :=
  defaulted_congr default (hcheck.find? h hname)

end Checker

open Checker

variable {skipped : Value → Prop} {depth : Nat} {es fs : List (Value × Value)}

/-- Nothing but paths and the repositories is skipped. -/
def SkipsPaths (skipped : Value → Prop) : Prop :=
  ∀ k, skipped k → k = .text "path" ∨ k = .text "repos"

theorem SkipsPaths.not_skipped (h : SkipsPaths skipped) (name : String)
    (hname : name ≠ "path" ∧ name ≠ "repos") : ¬ skipped (.text name) := fun hskipped =>
  (h _ hskipped).elim (fun heq => hname.1 (Value.text.inj heq))
    fun heq => hname.2 (Value.text.inj heq)

variable (hskip : SkipsPaths skipped)

include hskip

theorem Repository.check_eq (homes : Homes) (h : SameEntriesTo skipped (depth + 2) es fs)
    (hpath : Option.Rel (fun v w => repositoryPath homes v = repositoryPath homes w)
      (Value.find? "path" es) (Value.find? "path" fs)) :
    Repository.check homes (.map es) = Repository.check homes (.map fs) := by
  have htexts : LooksTo skipped (depth + 2) (optional (list text)) := looksTo_text.list.optional
  have hkind : LooksTo skipped (depth + 2) RepoKind.check := looksTo_member _
  have hanalyzers : LooksTo skipped (depth + 2) (atLeast 1 (list AnalyzerKind.check)) :=
    (looksTo_member _).list.atLeast 1
  simp only [Repository.check, record, required_congr hpath,
    (looksTo_sizedText 1 (some 100)).required h (hskip.not_skipped "name" (by decide)),
    hkind.required h (hskip.not_skipped "type" (by decide)),
    hanalyzers.required h (hskip.not_skipped "analyzers" (by decide)),
    htexts.defaulted h (hskip.not_skipped "include_paths" (by decide)),
    htexts.defaulted h (hskip.not_skipped "exclude_paths" (by decide))]

theorem Repository.looksTo_check (homes : Homes) (hpath : ¬ skipped (.text "path")) :
    LooksTo skipped (depth + 3) (Repository.check homes) := by
  intro v w hvw
  rcases hvw.cases with ⟨rfl, -⟩ | ⟨vs, ws, rfl, rfl, -⟩ | ⟨es, fs, rfl, rfl, hes⟩
  · rfl
  · rfl
  · exact Repository.check_eq hskip homes hes ((looksTo_repositoryPath homes).find? hes hpath)

theorem Relation.sourceKey_eq (h : SameEntriesTo skipped depth es fs) :
    Relation.sourceKey es = Relation.sourceKey fs := by
  have hsome : ∀ name, name ≠ "path" ∧ name ≠ "repos" →
      (Value.find? name es).isSome = (Value.find? name fs).isSome := by
    intro name hname
    have hfound := h.find? (.text name) (hskip.not_skipped name hname)
    rw [← Value.find?_eq, ← Value.find?_eq] at hfound
    generalize Value.find? name es = found, Value.find? name fs = found' at hfound
    cases hfound <;> rfl
  simp only [Relation.sourceKey, ← Option.not_isSome, hsome "from" (by decide),
    hsome "from_" (by decide)]

theorem Relation.looksTo_check : LooksTo skipped (depth + 3) Relation.check := by
  refine looksTo_record fun es fs h => ?_
  have hsource : ¬ skipped (.text (Relation.sourceKey fs)) := by
    rw [Relation.sourceKey]
    split
    · exact hskip.not_skipped "from_" (by decide)
    · exact hskip.not_skipped "from" (by decide)
  have hend : LooksTo skipped (depth + 2) (sizedText 1 none) := looksTo_sizedText 1 none
  have hkind : LooksTo skipped (depth + 2) RelationKind.check := looksTo_member _
  have htexts : LooksTo skipped (depth + 2) (optional (list text)) := looksTo_text.list.optional
  simp only [Relation.sourceKey_eq hskip h, hend.required h hsource,
    hend.required h (hskip.not_skipped "to" (by decide)),
    hkind.required h (hskip.not_skipped "via" (by decide)),
    htexts.defaulted h (hskip.not_skipped "patterns" (by decide))]

theorem OutputConfig.looksTo_check : LooksTo skipped (depth + 3) OutputConfig.check := by
  refine looksTo_record fun es fs h => ?_
  have hformats : LooksTo skipped (depth + 2) (list ReportFormat.check) := (looksTo_literal _).list
  simp only [looksTo_path.defaulted h (hskip.not_skipped "directory" (by decide)),
    hformats.defaulted h (hskip.not_skipped "formats" (by decide))]

theorem LoggingConfig.looksTo_check : LooksTo skipped (depth + 3) LoggingConfig.check := by
  refine looksTo_record fun es fs h => ?_
  have hlevel : LooksTo skipped (depth + 2) LogLevel.check := looksTo_literal _
  have hformat : LooksTo skipped (depth + 2) LogFormat.check := looksTo_literal _
  have hfile : LooksTo skipped (depth + 2) (optional path) := looksTo_path.optional
  simp only [hlevel.defaulted h (hskip.not_skipped "level" (by decide)),
    hformat.defaulted h (hskip.not_skipped "format" (by decide)),
    hfile.defaulted h (hskip.not_skipped "file" (by decide)),
    looksTo_text.defaulted h (hskip.not_skipped "rotation" (by decide)),
    looksTo_text.defaulted h (hskip.not_skipped "retention" (by decide))]

omit hskip in
theorem Config.checkSurplus_eq (h : SameEntriesTo skipped depth es fs) :
    Config.checkSurplus es = Config.checkSurplus fs := by
  induction h with
  | nil => rfl
  | @cons e f _ _ hef _ ih =>
    obtain ⟨k, v⟩ := e
    obtain ⟨k', w⟩ := f
    obtain ⟨rfl, -⟩ := hef
    cases k with
    | text k => rw [Config.checkSurplus, Config.checkSurplus, ih]
    | _ => exact ih

/-- Two mappings whose repositories are checked alike are checked alike, if they are the same as far
as a configuration is looked into. -/
theorem Config.check_eq (homes : Homes) (h : SameEntriesTo skipped (depth + 4) es fs)
    (hrepos : Option.Rel
      (fun v w => list (Repository.check homes) v = list (Repository.check homes) w)
      (Value.find? "repos" es) (Value.find? "repos" fs)) :
    Config.check homes es = Config.check homes fs := by
  have hrelations : LooksTo skipped (depth + 4) (list Relation.check) :=
    (Relation.looksTo_check hskip).list
  simp only [Config.check, defaulted_congr [] hrepos, Config.checkSurplus_eq h,
    hrelations.defaulted h (hskip.not_skipped "relations" (by decide)),
    (OutputConfig.looksTo_check hskip).defaulted h (hskip.not_skipped "output" (by decide)),
    (LoggingConfig.looksTo_check hskip).defaulted h (hskip.not_skipped "logging" (by decide))]

omit hskip

namespace Config

variable {d e : ValueGraph} {m n : Nat}

theorem sameEntriesTo_mergeEntries_values (hde : ValueGraph.SameBut skipped d e)
    (hentries : Value.EqualBut skipped d.entries e.entries) (hm : depth ≤ m) (hn : depth ≤ n)
    (base : List (Value × Value)) :
    SameEntriesTo skipped depth (Settings.mergeEntries base (d.values m))
      (Settings.mergeEntries base (e.values n)) :=
  Settings.sameEntriesTo_mergeEntries (fun _ _ _ _ => Settings.sameTo_mergeValue)
    (.refl skipped depth base)
    (ValueGraph.sameEntriesTo_map (ValueGraph.sameTo_value hde hm hn) hentries)

/-- It does not matter how deep a document is looked into, if it is deep enough. -/
theorem check_values_eq (homes : Homes) (d : ValueGraph) (base : List (Value × Value))
    (hm : Config.depth ≤ m) (hn : Config.depth ≤ n) :
    Config.check homes (Settings.mergeEntries base (d.values m)) =
      Config.check homes (Settings.mergeEntries base (d.values n)) := by
  have hskip : SkipsPaths fun _ => False := fun _ h => h.elim
  have h := sameEntriesTo_mergeEntries_values (.refl (fun _ => False) d)
    (.refl (fun _ => False) d.entries) hm hn base
  have hrepository : LooksTo (fun _ => False) 4 (list (Repository.check homes)) :=
    (Repository.looksTo_check hskip homes id).list
  exact Config.check_eq hskip homes h (hrepository.find? h id)

end Config

end Ripple
