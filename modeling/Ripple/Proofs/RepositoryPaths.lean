import Ripple.Config.File
import Ripple.Proofs.Documents

/-! # Repository paths seen from a directory

The mappings of the repositories of a document are changed in place, one after the other. A path
that has been seen from the directory is absolute and is left alone from then on, so a mapping that
stands for several repositories is changed only once, and every other part of the document stays as
it was.
-/
namespace Ripple

open Outcome

namespace Homes

theorem expand_cases (homes : Homes) (p : Path) :
    (∃ q, homes.expand p = .valid q) ∨ homes.expand p = .broken .unknownHome := by
  rw [expand.eq_def]
  split
  · split
    · dsimp only
      split
      · exact .inl ⟨_, rfl⟩
      · exact .inr rfl
    · exact .inl ⟨_, rfl⟩
  · exact .inl ⟨_, rfl⟩

theorem expand_of_isAbsolute (homes : Homes) {p : Path} (h : p.isAbsolute = true) :
    homes.expand p = .valid p := by
  rw [expand.eq_def]
  split
  · next hroot _ =>
    rw [Path.isAbsolute, hroot] at h
    simp at h
  · rfl

end Homes

namespace Path

theorem isAbsolute_ofString {s : String} (h : Text.startsWith s "/" = true) :
    (ofString s).isAbsolute = true := by
  simp only [isAbsolute, ofString, h]
  split_ifs <;> decide

theorem startsWith_toString (names : List String) :
    Text.startsWith (toString ⟨"/", names⟩) "/" = true := by
  simp only [toString, Text.startsWith]
  split_ifs with hnames hroot
  · simp at hroot
  · decide
  · rw [String.toList_append]
    exact List.isPrefixOf_iff_prefix.mpr (List.prefix_append _ _)

end Path

namespace Config

open ValueGraph (Cell)

variable {homes : Homes} {t : LinkedTree} {directory : Path} {d seen next : ValueGraph}
  {items done : List Cell} {item : Cell} {s resolved : String}

theorem isAbsolute_resolve (t : LinkedTree) (p : Path) :
    (Path.ofString (t.resolve p).toString).isAbsolute = true :=
  Path.isAbsolute_ofString (Path.startsWith_toString _)

/-- A path that is absolute once its home directory is filled in stays as it is written, and so does
an empty one. -/
theorem resolvePath_cases (h : resolvePath homes t directory s = .ok resolved) :
    ∃ q, homes.expand (Path.ofString s) = .valid q ∧
      ((s = "" ∨ q.isAbsolute = true) ∧ resolved = s ∨
        s ≠ "" ∧ q.isAbsolute = false ∧ resolved = (t.resolve (directory.join q)).toString) := by
  rw [resolvePath] at h
  rcases homes.expand_cases (Path.ofString s) with ⟨q, hq⟩ | hq
  · rw [hq] at h
    dsimp only at h
    refine ⟨q, hq, ?_⟩
    split_ifs at h with hkept hnul
    · cases h
      exact .inl ⟨by simpa using hkept, rfl⟩
    · cases h
      rw [not_or] at hkept
      exact .inr ⟨by simpa using hkept.1, by simpa using hkept.2, rfl⟩
  · rw [hq] at h
    cases h

/-- A path that has been seen from the directory stays as it is. -/
theorem resolvePath_of_resolvePath (h : resolvePath homes t directory s = .ok resolved) :
    resolvePath homes t directory resolved = .ok resolved := by
  obtain ⟨q, -, ⟨-, rfl⟩ | ⟨-, -, rfl⟩⟩ := resolvePath_cases h
  · exact h
  · have habsolute := isAbsolute_resolve t (directory.join q)
    rw [resolvePath, homes.expand_of_isAbsolute habsolute]
    exact if_pos (.inr habsolute)

/-- A repository has a path that is a text, a path that is a broken text, or neither. -/
theorem resolveRepository_cases (homes : Homes) (t : LinkedTree) (directory : Path) (d : ValueGraph)
    (item : Cell) :
    (∃ n es s, item = .part n ∧ d.entries? item = some es ∧
      Value.find? "path" es = some (.atom (.text s)) ∧
      resolveRepository homes t directory d item =
        (resolvePath homes t directory s).map fun resolved => d.put n "path" (.text resolved)) ∨
    (d.get? item "path" = some (.atom .brokenText) ∧
      resolveRepository homes t directory d item = .error (.brokenOff .unencodable)) ∨
    (∀ c, d.get? item "path" = some c → ∀ v, c = .atom v → isTextKey v = false) ∧
      resolveRepository homes t directory d item = .ok d := by
  rw [resolveRepository.eq_def]
  split
  · next n s hpath =>
    obtain ⟨es, hes, hs⟩ := ValueGraph.get?_eq_some_iff.mp hpath
    exact .inl ⟨n, es, s, rfl, hes, hs, rfl⟩
  · next hpath => exact .inr (.inl ⟨hpath, rfl⟩)
  · next hbroken htext =>
    refine .inr (.inr ⟨?_, rfl⟩)
    rintro c hc v rfl
    cases v with
    | text s =>
      obtain ⟨es, hes, -⟩ := ValueGraph.get?_eq_some_iff.mp hc
      obtain ⟨n, rfl, -⟩ := ValueGraph.entries?_eq_some hes
      exact absurd hc (htext n s rfl)
    | brokenText => exact absurd hc hbroken
    | _ => rfl

/-- The repository's path can be seen from the directory. -/
def Resolves (homes : Homes) (t : LinkedTree) (directory : Path) (d : ValueGraph) (item : Cell) :
    Prop :=
  ∃ seen, resolveRepository homes t directory d item = .ok seen

theorem resolves_iff : Resolves homes t directory d item ↔
    d.get? item "path" ≠ some (.atom .brokenText) ∧
      ∀ s, d.get? item "path" = some (.atom (.text s)) →
        ∃ resolved, resolvePath homes t directory s = .ok resolved := by
  rw [Resolves]
  rcases resolveRepository_cases homes t directory d item with
    ⟨n, es, s, rfl, hes, hs, h⟩ | ⟨hpath, h⟩ | ⟨hpath, h⟩
  · rw [h, ValueGraph.get?_eq_some_iff.mpr ⟨es, hes, hs⟩]
    simp [map_eq_ok_iff]
  · simp [h, hpath]
  · rw [h]
    refine iff_of_true ⟨d, rfl⟩ ⟨fun hbroken => ?_, fun s hs => ?_⟩
    · cases hpath _ hbroken _ rfl
    · cases hpath _ hs _ rfl

/-- A document in which some of the mappings have had their paths seen from a directory. Wherever
it has not been changed in this way, it is as it was. -/
structure Seen (homes : Homes) (t : LinkedTree) (directory : Path) (items : List Cell)
    (d seen : ValueGraph) : Prop where
  root : seen.root = d.root
  repository : ∀ item ∈ items, ∀ es s, d.entries? item = some es →
    Value.find? "path" es = some (.atom (.text s)) →
    ∃ resolved, resolvePath homes t directory s = .ok resolved ∧
      seen.entries? item = some (Value.put (.text "path") (.atom (.text resolved)) es)
  other : ∀ n, (.part n ∈ items → ∀ s, d.get? (.part n) "path" ≠ some (.atom (.text s))) →
    seen.parts[n]? = d.parts[n]?

namespace Seen

theorem refl (homes : Homes) (t : LinkedTree) (directory : Path) (d : ValueGraph) :
    Seen homes t directory [] d d :=
  ⟨rfl, by simp, fun _ _ => rfl⟩

/-- A place is as it was, or it is a repository whose path has been seen. -/
theorem kept_or_seen (h : Seen homes t directory items d seen) (c : Cell) :
    (∀ n, c = .part n → seen.parts[n]? = d.parts[n]?) ∨
      c ∈ items ∧ ∃ es s resolved, d.entries? c = some es ∧
        Value.find? "path" es = some (.atom (.text s)) ∧
        resolvePath homes t directory s = .ok resolved ∧
        seen.entries? c = some (Value.put (.text "path") (.atom (.text resolved)) es) := by
  by_cases hchanged : c ∈ items ∧ ∃ s, d.get? c "path" = some (.atom (.text s))
  · obtain ⟨hmem, s, hs⟩ := hchanged
    obtain ⟨es, hes, hs⟩ := ValueGraph.get?_eq_some_iff.mp hs
    obtain ⟨resolved, hresolved, hseen⟩ := h.repository c hmem es s hes hs
    exact .inr ⟨hmem, es, s, resolved, hes, hs, hresolved, hseen⟩
  · rw [not_and, not_exists] at hchanged
    refine .inl ?_
    rintro n rfl
    exact h.other n hchanged

theorem entries?_of_parts (h : ∀ n, c = .part n → seen.parts[n]? = d.parts[n]?) :
    seen.entries? c = d.entries? c := by
  cases c with
  | atom v => rfl
  | part n => rw [ValueGraph.entries?, ValueGraph.entries?, h n rfl]

theorem items?_eq (h : Seen homes t directory items d seen) (c : Cell) :
    seen.items? c = d.items? c := by
  rcases h.kept_or_seen c with hsame | ⟨-, es, s, resolved, hes, -, -, hseen⟩
  · cases c with
    | atom v => rfl
    | part n => rw [ValueGraph.items?, ValueGraph.items?, hsame n rfl]
  · obtain ⟨n, rfl, hn⟩ := ValueGraph.entries?_eq_some hes
    obtain ⟨m, hm, hseen⟩ := ValueGraph.entries?_eq_some hseen
    cases hm
    rw [ValueGraph.items?, ValueGraph.items?, hn, hseen]

/-- The path of a repository has been seen or is as it was. -/
theorem get?_path (h : Seen homes t directory items d seen) (c : Cell) :
    seen.get? c "path" = d.get? c "path" ∨
      ∃ s resolved, d.get? c "path" = some (.atom (.text s)) ∧
        resolvePath homes t directory s = .ok resolved ∧
        seen.get? c "path" = some (.atom (.text resolved)) := by
  rcases h.kept_or_seen c with hsame | ⟨-, es, s, resolved, hes, hs, hresolved, hseen⟩
  · exact .inl (by rw [ValueGraph.get?, ValueGraph.get?, entries?_of_parts hsame])
  · exact .inr ⟨s, resolved, ValueGraph.get?_eq_some_iff.mpr ⟨es, hes, hs⟩, hresolved,
      ValueGraph.get?_eq_some_iff.mpr ⟨_, hseen, Value.find?_put_self ..⟩⟩

theorem resolves_iff (h : Seen homes t directory done d next) :
    Resolves homes t directory next item ↔ Resolves homes t directory d item := by
  rw [Config.resolves_iff, Config.resolves_iff]
  rcases h.get?_path item with hsame | ⟨s, resolved, hs, hresolved, hseen⟩
  · rw [hsame]
  · rw [hs, hseen]
    have hagain := resolvePath_of_resolvePath hresolved
    simp [hresolved, hagain]

/-- A mapping that has been changed before has the path that it would get now. -/
theorem exists_origin (h : Seen homes t directory done d next) {fs : List (Value × Cell)}
    (hfs : next.entries? c = some fs) (hs : Value.find? "path" fs = some (.atom (.text s)))
    (hresolved : resolvePath homes t directory s = .ok resolved) :
    ∃ es s₀, d.entries? c = some es ∧ Value.find? "path" es = some (.atom (.text s₀)) ∧
      resolvePath homes t directory s₀ = .ok resolved ∧
      Value.put (.text "path") (.atom (.text resolved)) fs =
        Value.put (.text "path") (.atom (.text resolved)) es := by
  rcases h.kept_or_seen c with hkept | ⟨-, es, s₀, r, hes, hs₀, hr, hseen⟩
  · exact ⟨fs, s, (entries?_of_parts hkept).symm.trans hfs, hs, hresolved, rfl⟩
  · rw [hfs, Option.some.injEq] at hseen
    rw [hseen, Value.find?_put_self, Option.some.injEq, Cell.atom.injEq, Value.text.injEq] at hs
    rw [← hs, resolvePath_of_resolvePath hr] at hresolved
    cases hresolved
    exact ⟨es, s₀, hes, hs₀, hr, by rw [hseen, Value.put_put]⟩

theorem put (h : Seen homes t directory done d next) {n : Nat} {fs : List (Value × Cell)}
    (hfs : next.entries? (.part n) = some fs)
    (hs : Value.find? "path" fs = some (.atom (.text s)))
    (hresolved : resolvePath homes t directory s = .ok resolved) :
    Seen homes t directory (done ++ [.part n]) d (next.put n "path" (.text resolved)) := by
  obtain ⟨es, s₀, hes, hs₀, hresolved, hput⟩ := h.exists_origin hfs hs hresolved
  refine ⟨h.root, fun item hitem es' s' hes' hs' => ?_, fun m hm => ?_⟩
  · rw [ValueGraph.entries?_put]
    by_cases hn : item = .part n
    · subst hn
      rw [hes, Option.some.injEq] at hes'
      subst hes'
      rw [hs₀] at hs'
      cases hs'
      exact ⟨resolved, hresolved, by rw [if_pos rfl, hfs, Option.map_some, hput]⟩
    · rw [if_neg hn]
      exact h.repository item ((List.mem_append.mp hitem).resolve_right (by simpa using hn)) es' s'
        hes' hs'
  · by_cases hn : m = n
    · subst hn
      exact absurd (ValueGraph.get?_eq_some_iff.mpr ⟨es, hes, hs₀⟩) (hm (by simp) s₀)
    · rw [ValueGraph.getElem?_put_of_ne hn]
      exact h.other m fun hmem => hm (List.mem_append_left _ hmem)

/-- A repository without a path that is a text stays as it is. -/
theorem concat (h : Seen homes t directory done d next)
    (hpath : ∀ s, next.get? item "path" ≠ some (.atom (.text s))) :
    Seen homes t directory (done ++ [item]) d next := by
  refine ⟨h.root, fun other hother es s hes hs => ?_, fun m hm =>
    h.other m fun hmem => hm (List.mem_append_left _ hmem)⟩
  by_cases hmem : other ∈ done
  · exact h.repository other hmem es s hes hs
  · obtain rfl := List.mem_singleton.mp ((List.mem_append.mp hother).resolve_left hmem)
    rcases h.kept_or_seen other with hkept | ⟨hdone, -⟩
    · exact absurd (ValueGraph.get?_eq_some_iff.mpr
        ⟨es, (entries?_of_parts hkept).trans hes, hs⟩) (hpath s)
    · exact absurd hdone hmem

/-- One more repository is seen. -/
theorem step (h : Seen homes t directory done d next)
    (hstep : resolveRepository homes t directory next item = .ok seen) :
    Seen homes t directory (done ++ [item]) d seen := by
  rcases resolveRepository_cases homes t directory next item with
    ⟨n, fs, s, rfl, hfs, hs, heq⟩ | ⟨-, heq⟩ | ⟨hkind, heq⟩
  · rw [heq] at hstep
    obtain ⟨resolved, hresolved, rfl⟩ := map_eq_ok_iff.mp hstep
    exact h.put hfs hs hresolved
  · rw [heq] at hstep
    cases hstep
  · rw [heq] at hstep
    cases hstep
    exact h.concat fun s hs => nomatch hkind _ hs _ rfl

/-- All repositories are seen, one after the other. -/
theorem of_foldlM (h : Seen homes t directory done d next)
    (hfold : items.foldlM (resolveRepository homes t directory) next = .ok seen) :
    Seen homes t directory (done ++ items) d seen := by
  induction items generalizing done next with
  | nil =>
    cases hfold
    rwa [List.append_nil]
  | cons item rest ih =>
    obtain ⟨later, hlater, hfold⟩ := bind_eq_ok_iff.mp (List.foldlM_cons.symm.trans hfold)
    have hrest := ih (h.step hlater) hfold
    rwa [List.append_assoc] at hrest

theorem exists_foldlM_iff (h : Seen homes t directory done d next) :
    (∃ seen, items.foldlM (resolveRepository homes t directory) next = .ok seen) ↔
      ∀ item ∈ items, Resolves homes t directory d item := by
  induction items generalizing done next with
  | nil => exact iff_of_true ⟨next, rfl⟩ (by simp)
  | cons item rest ih =>
    rw [List.forall_mem_cons, List.foldlM_cons]
    simp only [bind_eq_ok_iff]
    constructor
    · rintro ⟨seen, later, hlater, hseen⟩
      exact ⟨h.resolves_iff.mp ⟨later, hlater⟩, (ih (h.step hlater)).mp ⟨seen, hseen⟩⟩
    · rintro ⟨hitem, hrest⟩
      obtain ⟨later, hlater⟩ := h.resolves_iff.mpr hitem
      obtain ⟨seen, hseen⟩ := (ih (h.step hlater)).mpr hrest
      exact ⟨seen, later, hlater, hseen⟩

theorem keys_entries (h : Seen homes t directory items d seen) :
    seen.entries.map (·.1) = d.entries.map (·.1) := by
  rw [ValueGraph.entries, ValueGraph.entries, h.root]
  rcases h.kept_or_seen d.root with hkept | ⟨-, es, s, resolved, hes, hs, -, hseen⟩
  · rw [entries?_of_parts hkept]
  · rw [hes, hseen]
    exact Value.keys_put_of_find? hs _

theorem find?_entries (h : Seen homes t directory items d seen) {key : String}
    (hkey : key ≠ "path") : Value.find? key seen.entries = Value.find? key d.entries := by
  rw [ValueGraph.entries, ValueGraph.entries, h.root]
  rcases h.kept_or_seen d.root with hkept | ⟨-, es, s, resolved, hes, -, -, hseen⟩
  · rw [entries?_of_parts hkept]
  · rw [hes, hseen]
    exact Value.find?_put_of_ne (by simpa using Ne.symm hkey) _ _

theorem tidy (h : Seen homes t directory items d seen) (hd : d.Tidy) : seen.Tidy := by
  refine ⟨h.root ▸ hd.root, fun part hpart => ?_⟩
  obtain ⟨n, hn⟩ := List.mem_iff_getElem?.mp hpart
  rcases h.kept_or_seen (.part n) with hkept | ⟨-, es, s, resolved, hes, -, -, hseen⟩
  · rw [hkept n rfl] at hn
    exact hd.parts part (List.mem_of_getElem? hn)
  · obtain ⟨_, hm, hold⟩ := ValueGraph.entries?_eq_some hes
    cases hm
    obtain ⟨_, hm, hnew⟩ := ValueGraph.entries?_eq_some hseen
    cases hm
    rw [hn] at hnew
    cases hnew
    cases hd.parts _ (List.mem_of_getElem? hold) with
    | map hes => exact .map (hes.put rfl (ValueGraph.Cell.tidy_atom rfl))

end Seen

theorem seen_of_resolveRepositories (h : resolveRepositories homes t directory d = .ok seen) :
    Seen homes t directory (repositories d) d seen :=
  (Seen.refl homes t directory d).of_foldlM h

theorem exists_resolveRepositories_iff :
    (∃ seen, resolveRepositories homes t directory d = .ok seen) ↔
      ∀ item ∈ repositories d, Resolves homes t directory d item :=
  (Seen.refl homes t directory d).exists_foldlM_iff

end Config

end Ripple
