import Ripple.Command.Run
import Ripple.Proofs.Checking
import Ripple.Proofs.RepositoryPaths

/-! # Loading a configuration

A command announces a missing file, a document that cannot be read and content that breaks the
rules. Stage by stage this module finds the faults of loading that no command announces: paths that
cannot be looked up, directories, scalars without a value, homes of unknown users, keys and
repository paths that are no texts.
-/
namespace Ripple

open Outcome

/-- The faults of scalars that a command does not announce. -/
def Yaml.Fault.Escapes : Yaml.Fault → Prop
  | .endless | .emptyNumber | .badBoolean _ | .badTimestamp => True
  | .escapeTooLarge n => Nat.pow 2 31 ≤ n
  | _ => False

namespace Config

/-- A fault that a command announces. -/
def LoadFault.Announced (f : LoadFault) : Prop :=
  Command.isContentFault f = true ∨ ∃ p complaints, f = .invalid p complaints

variable {α β : Type}

/-- The step ends with a fault that no command announces. -/
def Slips (x : Except LoadFault α) : Prop := ∃ f, x = .error f ∧ ¬ f.Announced

@[simp] theorem slips_ok (a : α) : ¬ Slips (.ok a : Except LoadFault α) := by
  rintro ⟨f, hf, -⟩
  cases hf

@[simp] theorem slips_error (f : LoadFault) :
    Slips (.error f : Except LoadFault α) ↔ ¬ f.Announced := by
  simp [Slips]

theorem slips_bind {x : Except LoadFault α} {g : α → Except LoadFault β} :
    Slips (x >>= g) ↔ Slips x ∨ ∃ a, x = .ok a ∧ Slips (g a) := by
  constructor
  · rintro ⟨fault, h, hfault⟩
    rcases bind_eq_error_iff.mp h with hx | ⟨a, ha, hg⟩
    · exact .inl ⟨fault, hx, hfault⟩
    · exact .inr ⟨a, ha, fault, hg, hfault⟩
  · rintro (⟨fault, hx, hfault⟩ | ⟨a, ha, fault, hg, hfault⟩)
    · exact ⟨fault, bind_eq_error_iff.mpr (.inl hx), hfault⟩
    · exact ⟨fault, bind_eq_error_iff.mpr (.inr ⟨a, ha, hg⟩), hfault⟩

theorem slips_mapError {ε : Type} {x : Except ε α} {fault : ε → LoadFault} :
    Slips (x.mapError fault) ↔ ∃ e, x = .error e ∧ ¬ (fault e).Announced := by
  cases x <;> simp [Except.mapError]

theorem slips_map {x : Except LoadFault α} {g : α → β} : Slips (x.map g) ↔ Slips x := by
  cases x <;> simp [Except.map]

theorem slips_yaml (f : Yaml.Fault) : ¬ (LoadFault.yaml f).Announced ↔ f.Escapes := by
  cases f <;> simp [LoadFault.Announced, Command.isContentFault, Yaml.Fault.Escapes]

theorem slips_parse {isYaml : Bool} {text : List Char} :
    Slips (if isYaml then (Yaml.parse text).mapError .yaml
      else ((Json.parse text).mapError (.json text)).map .ofValue) ↔
      isYaml = true ∧ ∃ fault, Yaml.parse text = .error fault ∧ fault.Escapes := by
  cases isYaml with
  | true => simp [slips_mapError, slips_yaml]
  | false => simp [slips_map, slips_mapError, LoadFault.Announced, Command.isContentFault]

theorem slips_readDocument_iff {t : LinkedTree} {p : Path} :
    Slips (readDocument t p) ↔
      (∃ fault, t.locate p = .error fault) ∨
      (∃ place, t.locate p = .ok (some (place, .directory))) ∨
      ∃ place octets text fault, t.locate p = .ok (some (place, .file octets)) ∧
        Text.Utf8.decode octets = .ok text ∧ [".yaml", ".yml"].contains p.suffix = true ∧
        Yaml.parse (Text.unifyNewlines text) = .error fault ∧ fault.Escapes := by
  cases hlocate : t.locate p with
  | error fault =>
    have hread : readDocument t p = .error (.nameTooLong fault) := by
      rw [readDocument, hlocate]
      rfl
    simp [hread, LoadFault.Announced, Command.isContentFault]
  | ok found =>
    rcases found with _ | ⟨place, octets | _⟩
    · have hread : readDocument t p = .error (.missing p) := by
        rw [readDocument, hlocate]
        rfl
      simp [hread, LoadFault.Announced, Command.isContentFault]
    · have hread : readDocument t p = ((Text.Utf8.decode octets).mapError .undecodable >>=
          fun text =>
            let text := Text.unifyNewlines text
            if [".yaml", ".yml"].contains p.suffix then (Yaml.parse text).mapError .yaml
            else ((Json.parse text).mapError (.json text)).map .ofValue) := by
        rw [readDocument, hlocate]
        rfl
      have hdecode : ∀ fault, (LoadFault.undecodable fault).Announced := fun _ => .inl rfl
      simp only [hread, slips_bind, slips_mapError, hdecode, slips_parse]
      cases htext : Text.Utf8.decode octets with
      | error fault => simp [Except.mapError, htext]
      | ok text => simp [Except.mapError, htext]
    · have hread : readDocument t p = .error (.directory p) := by
        rw [readDocument, hlocate]
        rfl
      simp [hread, LoadFault.Announced, Command.isContentFault]

open ValueGraph (Cell)

variable {homes : Homes} {t : LinkedTree} {directory : Path} {d seen : ValueGraph} {item : Cell}

theorem slips_resolvePath_iff {s : String} :
    Slips (resolvePath homes t directory s) ↔
      homes.expand (Path.ofString s) = .broken .unknownHome := by
  rw [resolvePath]
  rcases homes.expand_cases (Path.ofString s) with ⟨q, hq⟩ | hq
  · rw [hq]
    simp only [reduceCtorEq, iff_false]
    split_ifs <;> simp [LoadFault.Announced, Command.isContentFault]
  · simp [hq, LoadFault.Announced, Command.isContentFault]

theorem slips_resolveRepository_iff :
    Slips (resolveRepository homes t directory d item) ↔
      ∃ s, d.get? item "path" = some (.atom (.text s)) ∧
        homes.expand (Path.ofString s) = .broken .unknownHome := by
  rcases resolveRepository_cases homes t directory d item with
    ⟨n, es, s, rfl, hes, hs, h⟩ | ⟨hpath, h⟩ | ⟨hkind, h⟩
  · rw [h, slips_map, slips_resolvePath_iff, ValueGraph.get?_eq_some_iff.mpr ⟨es, hes, hs⟩]
    simp
  · simp [h, hpath, LoadFault.Announced, Command.isContentFault]
  · rw [h]
    simp only [slips_ok, false_iff, not_exists, not_and]
    intro s hs
    cases hkind _ hs _ rfl

/-- What has been seen before does not matter for the faults of a repository. -/
theorem Seen.slips_iff {done : List Cell} (h : Seen homes t directory done d seen) :
    Slips (resolveRepository homes t directory seen item) ↔
      Slips (resolveRepository homes t directory d item) := by
  rw [slips_resolveRepository_iff, slips_resolveRepository_iff]
  rcases h.get?_path item with hsame | ⟨s, resolved, hs, hresolved, hseen⟩
  · rw [hsame]
  · -- a path that has been seen has no unknown home, neither before nor behind
    have hknown : ∀ s r, resolvePath homes t directory s = .ok r →
        homes.expand (Path.ofString s) ≠ .broken .unknownHome := fun s r hr hhome => by
      have hslips : Slips (resolvePath homes t directory s) := slips_resolvePath_iff.mpr hhome
      rw [hr] at hslips
      exact slips_ok r hslips
    simp [hs, hseen, hknown s resolved hresolved,
      hknown resolved resolved (resolvePath_of_resolvePath hresolved)]

theorem slips_resolveRepositories_iff :
    Slips (resolveRepositories homes t directory d) ↔
      ∃ before item after s, repositories d = before ++ item :: after ∧
        (∀ other ∈ before, Resolves homes t directory d other) ∧
        d.get? item "path" = some (.atom (.text s)) ∧
        homes.expand (Path.ofString s) = .broken .unknownHome := by
  have hrefl := Seen.refl homes t directory d
  constructor
  · rintro ⟨fault, h, hfault⟩
    obtain ⟨before, item, after, next, hitems, hbefore, hitem⟩ := foldlM_eq_error_iff.mp h
    have hslips := (hrefl.of_foldlM hbefore).slips_iff.mp ⟨fault, hitem, hfault⟩
    obtain ⟨s, hpath, hhome⟩ := slips_resolveRepository_iff.mp hslips
    exact ⟨before, item, after, s, hitems, hrefl.exists_foldlM_iff.mp ⟨next, hbefore⟩, hpath, hhome⟩
  · rintro ⟨before, item, after, s, hitems, hbefore, hpath, hhome⟩
    obtain ⟨next, hnext⟩ := hrefl.exists_foldlM_iff.mpr hbefore
    obtain ⟨fault, hitem, hfault⟩ := (hrefl.of_foldlM hnext).slips_iff.mpr
      (slips_resolveRepository_iff.mpr ⟨s, hpath, hhome⟩)
    exact ⟨fault, foldlM_eq_error_iff.mpr ⟨before, item, after, next, hitems, hnext, hitem⟩, hfault⟩

/-- What has been seen from the directory can be expanded. -/
theorem break?_repositoryPath_of_resolvePath {s resolved : String}
    (h : resolvePath homes t directory s = .ok resolved) :
    (Checker.repositoryPath homes (.text resolved)).break? = none := by
  rw [Checker.break?_repositoryPath]
  dsimp only
  obtain ⟨q, hq, ⟨-, rfl⟩ | ⟨-, -, rfl⟩⟩ := resolvePath_cases h
  · simp [hq]
  · rw [homes.expand_of_isAbsolute (isAbsolute_resolve t (directory.join q))]
    simp

theorem break?_repositoryPath_of_not_text {v : Value} (h : isTextKey v = false) :
    (Checker.repositoryPath homes v).break? = some (.notPathLike v.qualifiedKindName) := by
  rw [Checker.break?_repositoryPath]
  cases v <;> first | rfl | cases h

/-- The repository has no path, or its path is a text. -/
def PathIsText (d : ValueGraph) (item : Cell) : Prop :=
  ∀ c, d.get? item "path" = some c → isTextKey (d.value 1 c) = true

theorem isTextKey_value_part (d : ValueGraph) (depth n : Nat) :
    isTextKey (d.value depth (.part n)) = false := by
  cases depth with
  | zero => rfl
  | succ depth =>
    rw [ValueGraph.value_part]
    split <;> rfl

/-- After the paths have been seen, a repository breaks its check off if and only if its path is no
text. -/
theorem break?_check_of_seen {items : List Cell} (hseen : Seen homes t directory items d seen)
    (hitem : item ∈ items) (htidy : item.Tidy) (hresolves : Resolves homes t directory d item)
    (depth : Nat) :
    PathIsText d item ∧ (Repository.check homes (seen.value (depth + 2) item)).break? = none ∨
      ¬ PathIsText d item ∧ ∃ kind,
        (Repository.check homes (seen.value (depth + 2) item)).break? =
          some (.notPathLike kind) := by
  rw [Repository.break?_check, ValueGraph.get?_value htidy]
  obtain ⟨hbroken, -⟩ := resolves_iff.mp hresolves
  have hkept : (∀ s, d.get? item "path" ≠ some (.atom (.text s))) →
      seen.get? item "path" = d.get? item "path" := fun hnot =>
    (hseen.get?_path item).resolve_right fun ⟨s, _, hs, _⟩ => hnot s hs
  cases hpath : d.get? item "path" with
  | none =>
    rw [hkept (by simp [hpath]), hpath]
    exact .inl ⟨fun c hc => by simp [hpath] at hc, rfl⟩
  | some c =>
    have htext : PathIsText d item ↔ isTextKey (d.value 1 c) = true := by simp [PathIsText, hpath]
    by_cases hc : ∃ s, c = .atom (.text s)
    · obtain ⟨s, rfl⟩ := hc
      obtain ⟨es, hes, hs⟩ := ValueGraph.get?_eq_some_iff.mp hpath
      obtain ⟨resolved, hresolved, hput⟩ := hseen.repository item hitem es s hes hs
      rw [ValueGraph.get?_eq_some_iff.mpr ⟨_, hput, Value.find?_put_self ..⟩]
      exact .inl ⟨htext.mpr rfl, break?_repositoryPath_of_resolvePath hresolved⟩
    · have hnot : ∀ depth, ∀ e : ValueGraph, isTextKey (e.value depth c) = false := by
        intro depth e
        cases c with
        | part n => exact isTextKey_value_part e depth n
        | atom v =>
          cases v with
          | text s => exact absurd ⟨s, rfl⟩ hc
          | brokenText => exact absurd hpath hbroken
          | _ => cases depth <;> rfl
      rw [hkept (by simpa [hpath] using hc), hpath, htext, hnot 1 d]
      exact .inr ⟨Bool.false_ne_true, _, break?_repositoryPath_of_not_text (hnot (depth + 1) seen)⟩

/-- What is no list of repositories breaks no check off. -/
theorem break?_check_of_items?_eq_none {repos : Cell} (hseen : seen.Tidy) (htidy : repos.Tidy)
    (hrepos : seen.items? repos = none) (base? : Option Value) (depth : Nat) :
    (match some (Settings.mergeValue base? (seen.value (depth + 1) repos)) with
      | some (.list items) | some (.set items) =>
        items.findSome? fun item => (Repository.check homes item).break?
      | _ => none) = none := by
  cases repos with
  | atom v =>
    have hv := htidy v rfl
    cases v <;> first | rfl | cases hv
  | part n =>
    rw [ValueGraph.items?] at hrepos
    rw [ValueGraph.value_part]
    rcases hn : seen.parts[n]? with _ | ⟨items | members | es⟩
    · rfl
    · rw [hn] at hrepos
      cases hrepos
    · -- a set is accepted for a list, but none of its members is a mapping
      have hmembers : ∀ v ∈ members, v.isAtom = true := by
        cases hseen.parts _ (List.mem_of_getElem? hn) with
        | set hmembers => exact hmembers
      exact List.findSome?_eq_none_iff.mpr fun item hitem => by
        rw [Repository.break?_check, Value.get?_of_isAtom (hmembers item hitem)]
        rfl
    · -- what the environment says is merged into a mapping, which stays one and is no list
      rcases base? with _ | base
      · rfl
      · cases base <;> rfl

/-- A search that comes upon faults of one kind only, and of these where a condition fails. -/
theorem findSome?_cases {γ : Type} {f : α → Option β} {P : α → Prop} {fault : γ → β} {xs : List α}
    (h : ∀ x ∈ xs, P x ∧ f x = none ∨ ¬ P x ∧ ∃ kind, f x = some (fault kind)) :
    (∀ x ∈ xs, P x) ∧ xs.findSome? f = none ∨
      (∃ x ∈ xs, ¬ P x) ∧ ∃ kind, xs.findSome? f = some (fault kind) := by
  induction xs with
  | nil => exact .inl ⟨by simp, rfl⟩
  | cons x rest ih =>
    obtain ⟨hx, hrest⟩ := List.forall_mem_cons.mp h
    rw [List.findSome?_cons, List.forall_mem_cons, List.exists_mem_cons_iff]
    rcases hx with ⟨hx, hnone⟩ | ⟨hx, kind, hkind⟩
    · rw [hnone]
      rcases ih hrest with ⟨hall, hfound⟩ | ⟨hnot, hfound⟩
      · exact .inl ⟨⟨hx, hall⟩, hfound⟩
      · exact .inr ⟨.inr hnot, hfound⟩
    · rw [hkind]
      exact .inr ⟨.inl hx, kind, rfl⟩

/-- The same for the whole configuration, whatever the environment says. -/
theorem break?_check_of_resolveRepositories (hd : d.Tidy) {repos : Cell}
    (hrepos : Value.find? "repos" d.entries = some repos)
    (h : resolveRepositories homes t directory d = .ok seen) (base : List (Value × Value))
    (depth : Nat) :
    (∀ item ∈ repositories d, PathIsText d item) ∧
        (Config.check homes (Settings.mergeEntries base (seen.values (depth + 3)))).break? = none ∨
      (∃ item ∈ repositories d, ¬ PathIsText d item) ∧ ∃ kind,
        (Config.check homes (Settings.mergeEntries base (seen.values (depth + 3)))).break? =
          some (.notPathLike kind) := by
  have hseen := seen_of_resolveRepositories h
  have hresolves := exists_resolveRepositories_iff.mp ⟨seen, h⟩
  have hnodup : ((seen.values (depth + 3)).map (·.1)).Nodup := by
    rw [ValueGraph.keys_values, hseen.keys_entries]
    exact hd.entries.nodup
  rw [Config.break?_check, Settings.find?_mergeEntries hnodup, ValueGraph.find?_values,
    hseen.find?_entries (by decide), hrepos]
  dsimp only [Option.map_some]
  rw [repositories, hrepos, Option.bind_some] at hresolves ⊢
  cases hitems : d.items? repos with
  | none =>
    have hrepos := hd.entries.values _ (Value.mem_of_find? hrepos)
    exact .inl ⟨by simp, break?_check_of_items?_eq_none (hseen.tidy hd) hrepos
      ((hseen.items?_eq repos).trans hitems) _ _⟩
  | some items =>
    rw [repositories, hrepos, Option.bind_some, hitems, Option.getD_some] at hseen
    rw [hitems, Option.getD_some] at hresolves
    rw [ValueGraph.value_of_items? ((hseen.items?_eq repos).trans hitems)]
    have hcheck := findSome?_cases fun item hitem => break?_check_of_seen hseen hitem
      (hd.items hitems item hitem) (hresolves item hitem) depth
    change _ ∧ (items.map _).findSome? _ = _ ∨ _ ∧ ∃ kind, (items.map _).findSome? _ = _
    rw [List.findSome?_map]
    exact hcheck

variable {environment : List (String × String)} {p : Path}

/-- The document has something for its repositories. -/
def HasRepositories (d : ValueGraph) : Prop :=
  ((Value.find? "repos" (d.values depth)).getD .null).isHollow = false

/-- The ways in which loading ends with a fault that no command announces. That a document is nested
deeper than a stack allows is none of them, and neither is a path that is refused for its length as
a whole, for permissions or for links in a circle: these are outside the model. -/
inductive Escapes (homes : Homes) (environment : List (String × String)) (t : LinkedTree)
    (p : Path) : Prop
  /-- The path of the file cannot be looked up. -/
  | lookup {fault : NameTooLong} (h : t.locate p = .error fault)
  /-- A directory stands where the file should be. -/
  | directory {place : List String} (h : t.locate p = .ok (some (place, .directory)))
  /-- A scalar of a YAML document has no value. -/
  | scalar {place : List String} {octets : List UInt8} {text : List Char} {fault : Yaml.Fault}
    (hfile : t.locate p = .ok (some (place, .file octets)))
    (htext : Text.Utf8.decode octets = .ok text)
    (hsuffix : [".yaml", ".yml"].contains p.suffix = true)
    (hparse : Yaml.parse (Text.unifyNewlines text) = .error fault) (hfault : fault.Escapes)
  /-- A repository's path starts in the home of an unknown user, and the paths before it can be
  seen from the directory. -/
  | home {d : ValueGraph} {before after : List Cell} {item : Cell} {s : String}
    (hread : readDocument t p = .ok d) (hrepos : repositories d = before ++ item :: after)
    (hbefore : ∀ other ∈ before, Resolves homes t p.parent d other)
    (hpath : d.get? item "path" = some (.atom (.text s)))
    (hhome : homes.expand (Path.ofString s) = .broken .unknownHome)
  /-- A key of the document is no text. -/
  | key {d : ValueGraph} (hread : readDocument t p = .ok d) (hfull : HasRepositories d)
    (hresolve : ∀ item ∈ repositories d, Resolves homes t p.parent d item)
    (hkey : ∃ e ∈ d.entries, isTextKey e.1 = false)
  /-- A repository's path is no text. -/
  | path {d : ValueGraph} {item : Cell} (hread : readDocument t p = .ok d)
    (hresolve : ∀ other ∈ repositories d, Resolves homes t p.parent d other)
    (hkeys : ∀ e ∈ d.entries, isTextKey e.1 = true)
    (hsettings : ∃ base, Settings.read environment = .ok base) (hitem : item ∈ repositories d)
    (hpath : ¬ PathIsText d item)

theorem tidy_of_readDocument (h : readDocument t p = .ok d) : d.Tidy := by
  rw [readDocument] at h
  obtain ⟨found, -, h⟩ := bind_eq_ok_iff.mp h
  rcases found with _ | ⟨place, octets | _⟩
  · cases h
  · obtain ⟨text, -, h⟩ := bind_eq_ok_iff.mp h
    dsimp only at h
    split at h
    · exact Yaml.tidy_of_parse (mapError_eq_ok_iff.mp h)
    · obtain ⟨v, hv, rfl⟩ := map_eq_ok_iff.mp h
      exact ValueGraph.tidy_ofValue (Json.tidy_of_parse (mapError_eq_ok_iff.mp hv))
  · cases h

/-- What the check of a configuration comes to. -/
def conclude (p : Path) : Check Config → Except LoadFault Config
  | .valid c => .ok c
  | .flawed complaints => .error (.invalid p (complaints.map complaintLine))
  | .broken why => .error (.brokenOff why)

/-- The steps of loading once the repository paths have been seen from the directory. -/
def settle (homes : Homes) (environment : List (String × String)) (p : Path)
    (es : List (Value × Value)) : Except LoadFault Config :=
  if !es.all fun e => isTextKey e.1 then .error .keyKind
  else (Settings.overlay environment es).mapError .settings >>= fun all =>
    conclude p (Config.check homes all)

theorem load_of_readDocument (hread : readDocument t p = .ok d) :
    load homes environment t p = checkKind d >>= fun _ =>
      if ((Value.find? "repos" (d.values depth)).getD .null).isHollow then
        .error (.invalid p [noRepositories])
      else resolveRepositories homes t p.parent d >>= fun seen =>
        settle homes environment p (seen.values depth) := by
  rw [load, hread]
  rfl

/-- A document that has repositories is a mapping. -/
theorem checkKind_of_hasRepositories (h : HasRepositories d) : checkKind d = .ok () := by
  rw [HasRepositories, ValueGraph.values, ValueGraph.entries] at h
  cases hes : d.entries? d.root with
  | none =>
    rw [hes] at h
    cases h
  | some es => rw [checkKind, ValueGraph.value_of_entries? hes]

theorem exists_repos_of_hasRepositories (h : HasRepositories d) :
    ∃ repos, Value.find? "repos" d.entries = some repos := by
  rw [HasRepositories, ValueGraph.find?_values] at h
  cases hrepos : Value.find? "repos" d.entries with
  | none =>
    rw [hrepos] at h
    cases h
  | some repos => exact ⟨repos, rfl⟩

theorem load_of_hasRepositories (hread : readDocument t p = .ok d) (hfull : HasRepositories d) :
    load homes environment t p = resolveRepositories homes t p.parent d >>= fun seen =>
      settle homes environment p (seen.values depth) := by
  rw [load_of_readDocument hread, checkKind_of_hasRepositories hfull]
  rw [HasRepositories] at hfull
  exact if_neg (by simp [hfull])

/-- A document of another kind or without repositories is announced. -/
theorem load_of_not_hasRepositories (hread : readDocument t p = .ok d)
    (hhollow : ¬ HasRepositories d) :
    ∃ fault : LoadFault, load homes environment t p = .error fault ∧ fault.Announced := by
  rw [HasRepositories, Bool.not_eq_false] at hhollow
  rw [load_of_readDocument hread, checkKind, if_pos hhollow]
  split
  · exact ⟨_, rfl, .inr ⟨_, _, rfl⟩⟩
  · exact ⟨_, rfl, .inr ⟨_, _, rfl⟩⟩
  · exact ⟨_, rfl, .inl rfl⟩

theorem slips_conclude_iff (x : Check Config) :
    Slips (conclude p x) ↔ ∃ why, x.break? = some why ∧ why ≠ .unencodable := by
  cases x with
  | valid c => simp [conclude, Check.break?]
  | flawed complaints => simp [conclude, Check.break?, LoadFault.Announced]
  | broken why =>
    cases why <;> simp [conclude, Check.break?, LoadFault.Announced, Command.isContentFault]

theorem slips_settle_iff (hd : d.Tidy) {repos : Cell}
    (hrepos : Value.find? "repos" d.entries = some repos)
    (h : resolveRepositories homes t directory d = .ok seen) :
    Slips (settle homes environment p (seen.values depth)) ↔
      (∃ e ∈ d.entries, isTextKey e.1 = false) ∨
        (∀ e ∈ d.entries, isTextKey e.1 = true) ∧ (∃ base, Settings.read environment = .ok base) ∧
          ∃ item ∈ repositories d, ¬ PathIsText d item := by
  have hkeys : ((seen.values depth).all fun e => isTextKey e.1) =
      d.entries.all fun e => isTextKey e.1 := by
    have hmap := congrArg (List.all · isTextKey) (seen_of_resolveRepositories h).keys_entries
    rw [← ValueGraph.keys_values seen depth] at hmap
    rwa [List.all_map, List.all_map] at hmap
  rw [settle, hkeys]
  by_cases hall : ∀ e ∈ d.entries, isTextKey e.1 = true
  · have hsettings : ∀ fault, (LoadFault.settings fault).Announced := fun _ => .inl rfl
    rw [List.all_eq_true.mpr hall, Bool.not_true, if_neg Bool.false_ne_true, slips_bind,
      slips_mapError]
    simp only [hsettings, slips_conclude_iff, mapError_eq_ok_iff, Settings.overlay, map_eq_ok_iff]
    constructor
    · rintro (⟨fault, -, hfault⟩ | ⟨_, ⟨base, hbase, rfl⟩, why, hwhy, -⟩)
      · exact absurd trivial hfault
      · rcases break?_check_of_resolveRepositories hd hrepos h base 1 with ⟨-, hnone⟩ | ⟨hitem, -⟩
        · rw [depth, hnone] at hwhy
          cases hwhy
        · exact .inr ⟨hall, ⟨base, hbase⟩, hitem⟩
    · rintro (⟨e, he, hfalse⟩ | ⟨-, ⟨base, hbase⟩, item, hitem, hpath⟩)
      · rw [hall e he] at hfalse
        cases hfalse
      · rcases break?_check_of_resolveRepositories hd hrepos h base 1 with
          ⟨htext, -⟩ | ⟨-, kind, hkind⟩
        · exact absurd (htext item hitem) hpath
        · exact .inr ⟨_, ⟨base, hbase, rfl⟩, _, hkind, by simp⟩
  · have hkey : ∃ e ∈ d.entries, isTextKey e.1 = false := by simpa using hall
    have hsome : (d.entries.all fun e => isTextKey e.1) = false := by simpa using hkey
    rw [hsome, Bool.not_false, if_pos rfl, slips_error]
    simp [LoadFault.Announced, Command.isContentFault, hkey]

theorem escapes_of_slips_readDocument (h : Slips (readDocument t p)) :
    Escapes homes environment t p := by
  rcases slips_readDocument_iff.mp h with
    ⟨fault, h⟩ | ⟨place, h⟩ | ⟨place, octets, text, fault, hfile, htext, hsuffix, hparse, hfault⟩
  · exact .lookup h
  · exact .directory h
  · exact .scalar hfile htext hsuffix hparse hfault

theorem slips_load_of_slips_readDocument (h : Slips (readDocument t p)) :
    Slips (load homes environment t p) := by
  rw [load, slips_bind]
  exact .inl h

theorem slips_load_of_hasRepositories (hread : readDocument t p = .ok d)
    (hfull : HasRepositories d) :
    Slips (load homes environment t p) ↔
      Slips (resolveRepositories homes t p.parent d) ∨
      (∀ item ∈ repositories d, Resolves homes t p.parent d item) ∧
        ((∃ e ∈ d.entries, isTextKey e.1 = false) ∨
          (∀ e ∈ d.entries, isTextKey e.1 = true) ∧
            (∃ base, Settings.read environment = .ok base) ∧
              ∃ item ∈ repositories d, ¬ PathIsText d item) := by
  have hd := tidy_of_readDocument hread
  obtain ⟨repos, hrepos⟩ := exists_repos_of_hasRepositories hfull
  rw [load_of_hasRepositories hread hfull, slips_bind, ← exists_resolveRepositories_iff]
  refine or_congr Iff.rfl ⟨?_, ?_⟩
  · rintro ⟨seen, h, hslips⟩
    exact ⟨⟨seen, h⟩, (slips_settle_iff hd hrepos h).mp hslips⟩
  · rintro ⟨⟨seen, h⟩, hsettle⟩
    exact ⟨seen, h, (slips_settle_iff hd hrepos h).mpr hsettle⟩

theorem escapes_of_slips_load (h : Slips (load homes environment t p)) :
    Escapes homes environment t p := by
  cases hread : readDocument t p with
  | error fault =>
    rw [load, slips_bind, hread] at h
    refine escapes_of_slips_readDocument ?_
    rw [hread]
    simpa using h
  | ok d =>
    by_cases hfull : HasRepositories d
    · rcases (slips_load_of_hasRepositories hread hfull).mp h with
        h | ⟨hresolve, hkey | ⟨hkeys, hsettings, item, hitem, hpath⟩⟩
      · obtain ⟨before, item, after, s, hrepos, hbefore, hpath, hhome⟩ :=
          slips_resolveRepositories_iff.mp h
        exact .home hread hrepos hbefore hpath hhome
      · exact .key hread hfull hresolve hkey
      · exact .path hread hresolve hkeys hsettings hitem hpath
    · obtain ⟨announced, hload, hannounced⟩ : ∃ fault : LoadFault,
          load homes environment t p = .error fault ∧ fault.Announced :=
        load_of_not_hasRepositories hread hfull
      rw [hload, slips_error] at h
      exact absurd hannounced h

/-- A repository is a repository among others. -/
theorem hasRepositories_of_mem (h : item ∈ repositories d) : HasRepositories d := by
  rw [repositories] at h
  cases hrepos : Value.find? "repos" d.entries with
  | none =>
    rw [hrepos] at h
    cases h
  | some c =>
    rw [hrepos, Option.bind_some] at h
    cases hitems : d.items? c with
    | none =>
      rw [hitems] at h
      cases h
    | some items =>
      rw [hitems, Option.getD_some] at h
      rw [HasRepositories, ValueGraph.find?_values, hrepos, Option.map_some, Option.getD_some,
        depth, ValueGraph.value_of_items? hitems, Value.isHollow, List.isEmpty_eq_false_iff]
      exact List.ne_nil_of_mem (List.mem_map_of_mem h)

theorem slips_load_of_escapes (h : Escapes homes environment t p) :
    Slips (load homes environment t p) := by
  cases h with
  | lookup h =>
    exact slips_load_of_slips_readDocument (slips_readDocument_iff.mpr (.inl ⟨_, h⟩))
  | directory h =>
    exact slips_load_of_slips_readDocument (slips_readDocument_iff.mpr (.inr (.inl ⟨_, h⟩)))
  | scalar hfile htext hsuffix hparse hfault =>
    exact slips_load_of_slips_readDocument (slips_readDocument_iff.mpr
      (.inr (.inr ⟨_, _, _, _, hfile, htext, hsuffix, hparse, hfault⟩)))
  | @home _ _ _ item _ hread hrepos hbefore hpath hhome =>
    have hitem : item ∈ repositories _ := hrepos ▸ List.mem_append_right _ List.mem_cons_self
    have hfull := hasRepositories_of_mem hitem
    exact (slips_load_of_hasRepositories hread hfull).mpr
      (.inl (slips_resolveRepositories_iff.mpr ⟨_, _, _, _, hrepos, hbefore, hpath, hhome⟩))
  | key hread hfull hresolve hkey =>
    exact (slips_load_of_hasRepositories hread hfull).mpr (.inr ⟨hresolve, .inl hkey⟩)
  | path hread hresolve hkeys hsettings hitem hpath =>
    exact (slips_load_of_hasRepositories hread (hasRepositories_of_mem hitem)).mpr
      (.inr ⟨hresolve, .inr ⟨hkeys, hsettings, _, hitem, hpath⟩⟩)

/-- Loading ends with a fault that no command announces in these ways, and in no other. -/
theorem slips_load_iff :
    Slips (load homes environment t p) ↔ Escapes homes environment t p :=
  ⟨escapes_of_slips_load, slips_load_of_escapes⟩

/-- A repository with nothing for a path. -/
def nullPathFile : List UInt8 :=
  "\x7b\"repos\": [\x7b\"path\": null\x7d]\x7d".toList.map fun c => c.toNat.toUInt8

def nullPathTree : FileTree := ⟨[(["c.json"], .file nullPathFile)], []⟩

example : Slips (load homes [] nullPathTree ⟨"", ["c.json"]⟩) := by
  have hread : (readDocument nullPathTree ⟨"", ["c.json"]⟩).toOption =
      some ⟨[.map [(.text "path", .atom .null)], .list [.part 0], .map [(.text "repos", .part 1)]],
        .part 2⟩ := by
    decide +kernel
  rw [← eq_ok_iff_toOption] at hread
  refine slips_load_iff.mpr (.path hread ?_ (by decide) ⟨_, rfl⟩ (List.mem_singleton_self _) ?_)
  · exact List.forall_mem_singleton.mpr ⟨_, rfl⟩
  · intro htext
    cases htext (.atom .null) rfl

end Config

end Ripple
