import Mathlib.Algebra.Order.BigOperators.Group.List
import Mathlib.Algebra.Order.Group.Int
import Ripple.Config.Document
import Ripple.Git.Snapshot
import Ripple.Outline.ScriptFile
import Ripple.Proofs.Accounting
import Ripple.Regex.Names
import Ripple.Report.Comment

/-! # References are never dangling

A valid configuration names each repository once and relates only repositories that it names. A run
keeps these names, so whatever its records say about repositories and components is there to be seen
in its result. Without impacts there are no records, so the short comment leaves none of them out.
-/
namespace Ripple

namespace Config

/-- Each repository has a name of its own, and relations lead from name to name. -/
structure RefersWell (c : Config) : Prop where
  nodup_names : (c.repos.map (·.name)).Nodup
  source_mem : ∀ r ∈ c.relations, r.source ∈ c.repos.map (·.name)
  target_mem : ∀ r ∈ c.relations, r.target ∈ c.repos.map (·.name)

theorem duplicateNames_eq_nil_iff (names : List String) :
    duplicateNames names = [] ↔ names.Nodup := by
  rw [← List.length_eq_zero_iff, duplicateNames, List.length_mergeSort, List.length_eq_zero_iff,
    List.eq_nil_iff_forall_not_mem, List.nodup_iff_count_le_one]
  simp only [mem_distinct, List.mem_filter, decide_eq_true_eq, not_and, not_lt]
  constructor
  · intro h a
    by_cases ha : a ∈ names
    · exact h a ha
    · rw [List.count_eq_zero_of_not_mem ha]
      exact Nat.zero_le 1
  · exact fun h a _ => h a

theorem brokenRule?_eq_none_iff (c : Config) : c.brokenRule? = none ↔ c.RefersWell := by
  rw [brokenRule?]
  constructor
  · intro h
    split at h
    · cases h
    · rename_i hduplicates
      split at h
      · cases h
      · rename_i hunknown
        have hknown : ∀ r ∈ c.relations, r.source ∈ c.repos.map (·.name) ∧
            r.target ∈ c.repos.map (·.name) := by
          simpa [-List.mem_map] using hunknown
        refine ⟨(duplicateNames_eq_nil_iff _).mp ?_, fun r hr => (hknown r hr).1,
          fun r hr => (hknown r hr).2⟩
        simpa using hduplicates
  · rintro ⟨hnodup, hsource, htarget⟩
    have hknown : c.relations.any (fun r => !(c.repos.map (·.name)).contains r.source ||
        !(c.repos.map (·.name)).contains r.target) = false := by
      rw [List.any_eq_false]
      intro r hr
      simp [-List.mem_map, hsource r hr, htarget r hr]
    simp only [(duplicateNames_eq_nil_iff _).mpr hnodup, hknown, List.isEmpty_nil, Bool.not_true,
      Bool.false_eq_true, if_false]

theorem refersWell_of_check {homes : Homes} {entries : List (Value × Value)} {c : Config}
    (h : Config.check homes entries = .valid c) : c.RefersWell := by
  rw [check] at h
  simp only [Check.andThen] at h
  split at h
  · rename_i found _
    split at h
    · cases h
    · rename_i hrule
      cases h
      exact (brokenRule?_eq_none_iff c).mp hrule
  · cases h
  · cases h

end Config

def Result.seen (result : Result) : List RepoImpacts :=
  result.repos.map fun repo => ⟨repo.name, repo.impacts⟩

/-- The record goes by a relation of the configuration from a component that is affected in one
repository of the result to components that are affected in another one, or in the same. -/
structure Record.Grounded (c : Config) (result : Result) (x : Record) : Prop where
  relation : ∃ r ∈ c.relations, r.Joins x.sourceRepo x.targetRepo x.relation
  source : ∃ repo ∈ result.repos, repo.name = x.sourceRepo ∧
    ∃ i ∈ repo.impacts, i.component = x.sourceComponent
  target : ∃ repo ∈ result.repos, repo.name = x.targetRepo ∧
    ∀ t ∈ x.targets, ∃ i ∈ repo.impacts, i.component = t
  targets_ne_nil : x.targets ≠ []
  nodup_targets : x.targets.Nodup

namespace Analysis.Run

variable {r : Run} {c : Config} {result : Result}

theorem exists_findRepo?_seen {name : String} (h : name ∈ result.repos.map (·.name)) :
    ∃ found, Correlation.findRepo? result.seen name = some found := by
  obtain ⟨repo, hrepo, hname⟩ := List.mem_map.mp h
  cases hf : Correlation.findRepo? result.seen name with
  | some found => exact ⟨found, rfl⟩
  | none =>
    rw [Correlation.findRepo?, List.find?_eq_none] at hf
    exact absurd hname (by simpa using hf _ (List.mem_map_of_mem hrepo))

theorem exists_of_findRepo?_seen {name : String} {found : RepoImpacts}
    (h : Correlation.findRepo? result.seen name = some found) :
    ∃ repo ∈ result.repos, repo.name = name ∧ repo.impacts = found.impacts := by
  obtain ⟨repo, hrepo, rfl⟩ := List.mem_map.mp (List.mem_of_find?_eq_some h)
  exact ⟨repo, hrepo, Correlation.findRepo?_name h, rfl⟩

theorem findRepo?_seen_of_mem (hnodup : (result.repos.map (·.name)).Nodup) {repo : RepoResult}
    (hrepo : repo ∈ result.repos) :
    Correlation.findRepo? result.seen repo.name = some ⟨repo.name, repo.impacts⟩ := by
  obtain ⟨found, hfound⟩ := exists_findRepo?_seen (List.mem_map_of_mem hrepo)
  obtain ⟨other, hother, hname, himpacts⟩ := exists_of_findRepo?_seen hfound
  obtain rfl := List.inj_on_of_nodup_map hnodup hother hrepo hname
  rw [hfound, himpacts, ← Correlation.findRepo?_name hfound]

variable [Regex.Names]

theorem Accounts.seen_eq (h : r.Accounts c result) : result.seen = r.found c.repos := by
  rw [Result.seen, h.repos, map_account]

theorem Accounts.names_eq (h : r.Accounts c result) :
    result.repos.map (·.name) = c.repos.map (·.name) := by
  rw [h.repos, List.map_map]
  exact List.map_congr_left fun repo _ => r.name_account repo

theorem Accounts.grounded (h : r.Accounts c result) {x : Record} (hx : x ∈ result.crossImpacts) :
    x.Grounded c result := by
  have hanswers := h.crossImpacts
  rw [← h.seen_eq] at hanswers
  have hne := hanswers.targets_ne_nil x hx
  have hleads := hanswers.mem_targets x hx
  obtain ⟨t, ht⟩ := List.exists_mem_of_ne_nil _ hne
  obtain ⟨relation, hrelation, hjoins, m, source, target, hserves, ⟨i, hi, hcomponent, _⟩, _⟩ :=
    (hleads t).mp ht
  have hsource := hjoins.1
  have htarget := hjoins.2.1
  obtain ⟨repo, hrepo, hname, himpacts⟩ := exists_of_findRepo?_seen hserves.source
  obtain ⟨repo', hrepo', hname', himpacts'⟩ := exists_of_findRepo?_seen hserves.target
  refine ⟨⟨relation, hrelation, hjoins⟩, ⟨repo, hrepo, hname.trans hsource, i, himpacts ▸ hi,
    hcomponent⟩, ⟨repo', hrepo', hname'.trans htarget, fun u hu => ?_⟩, hne,
    hanswers.nodup_targets x hx⟩
  -- another relation of the same kind may lead to another target, but in the same repository
  obtain ⟨other, _, hjoins', m', source', target', hserves', _, j, hj, hcomponent', _⟩ :=
    (hleads u).mp hu
  have hsame := hserves'.target
  rw [hjoins'.2.1, ← htarget, hserves.target] at hsame
  obtain rfl := Option.some.inj hsame
  exact ⟨j, himpacts' ▸ hj, hcomponent'⟩

theorem Accounts.exists_repos (h : r.Accounts c result) (hrefers : c.RefersWell)
    {relation : Relation} (hrelation : relation ∈ c.relations) :
    ∃ source target, Correlation.findRepo? result.seen relation.source = some source ∧
      Correlation.findRepo? result.seen relation.target = some target := by
  have hsource := hrefers.source_mem relation hrelation
  have htarget := hrefers.target_mem relation hrelation
  rw [← h.names_eq] at hsource htarget
  obtain ⟨source, hs⟩ := exists_findRepo?_seen hsource
  obtain ⟨target, ht⟩ := exists_findRepo?_seen htarget
  exact ⟨source, target, hs, ht⟩

/-- A component that triggers has a record with all components that consume, if there are any. -/
theorem Accounts.exists_record (h : r.Accounts c result)
    (hnodup : (result.repos.map (·.name)).Nodup) {relation : Relation}
    (hrelation : relation ∈ c.relations) {m : Matcher}
    (hmatcher : r.matchers.find? relation.via.text = some m) {a b : RepoResult}
    (ha : a ∈ result.repos) (hsource : a.name = relation.source) (hb : b ∈ result.repos)
    (htarget : b.name = relation.target) {component : String}
    (htriggers : m.Triggers ⟨a.name, a.impacts⟩ component)
    (hconsumes : ∃ t, m.Consumes ⟨b.name, b.impacts⟩ relation t) :
    ∃ x ∈ result.crossImpacts,
      x.key = (relation.source, component, relation.target, relation.via) ∧
        ∀ t, m.Consumes ⟨b.name, b.impacts⟩ relation t → t ∈ x.targets := by
  have hanswers := h.crossImpacts
  rw [← h.seen_eq] at hanswers
  have hserves : Correlation.Serves r.matchers result.seen relation m ⟨a.name, a.impacts⟩
      ⟨b.name, b.impacts⟩ :=
    ⟨hmatcher, hsource ▸ findRepo?_seen_of_mem hnodup ha,
      htarget ▸ findRepo?_seen_of_mem hnodup hb⟩
  have hleads : ∀ t, m.Consumes ⟨b.name, b.impacts⟩ relation t →
      Correlation.Leads r.matchers result.seen relation component t :=
    fun t ht => ⟨m, _, _, hserves, htriggers, ht⟩
  obtain ⟨t, ht⟩ := hconsumes
  obtain ⟨x, hx, hkey⟩ := (hanswers.exists_key _ _ _ _).mpr
    ⟨relation, hrelation, ⟨rfl, rfl, rfl⟩, t, hleads t ht⟩
  refine ⟨x, hx, hkey, fun u hu => (hanswers.mem_targets x hx u).mpr ⟨relation, hrelation, ?_⟩⟩
  obtain ⟨hsourceRepo, hcomponent, htargetRepo, hvia⟩ :
      x.sourceRepo = relation.source ∧ x.sourceComponent = component ∧
        x.targetRepo = relation.target ∧ x.relation = relation.via := by
    simpa [Record.key] using hkey
  exact ⟨⟨hsourceRepo.symm, htargetRepo.symm, hvia.symm⟩, hcomponent ▸ hleads u hu⟩

/-- Without impacts there is nothing that could be related. -/
theorem Accounts.crossImpacts_eq_nil (h : r.Accounts c result)
    (htotal : result.summary.totalImpactedComponents = 0) : result.crossImpacts = [] := by
  rw [h.totalImpactedComponents] at htotal
  have hnone : ∀ repo ∈ result.repos, repo.impacts = [] := by
    intro repo hrepo
    have hlength : (repo.impacts.length : Int) = 0 :=
      List.all_zero_of_le_zero_le_of_sum_eq_zero (by simp) htotal (List.mem_map_of_mem hrepo)
    exact List.length_eq_zero_iff.mp (Int.natCast_eq_zero.mp hlength)
  rw [List.eq_nil_iff_forall_not_mem]
  intro x hx
  obtain ⟨repo, hrepo, _, i, hi, _⟩ := (h.grounded hx).source
  rw [hnone repo hrepo] at hi
  cases hi

end Analysis.Run

namespace Report.Comment

/-- Of a result that counts impacts, the comment shows every record. -/
theorem crossLines_infix_lines {result : Result}
    (htotal : result.summary.totalImpactedComponents ≠ 0) {x : Record}
    (hx : x ∈ result.crossImpacts) : crossLines x <:+: lines result := by
  have hsome : result.crossImpacts.isEmpty = false :=
    List.isEmpty_eq_false_iff_exists_mem.mpr ⟨x, hx⟩
  have hpart : crossLines x <:+: result.crossImpacts.flatMap crossLines := by
    obtain ⟨before, after, hsplit⟩ := List.append_of_mem hx
    refine ⟨before.flatMap crossLines, after.flatMap crossLines, ?_⟩
    rw [hsplit, List.flatMap_append, List.flatMap_cons, List.append_assoc]
  rw [lines, if_neg htotal, hsome]
  apply List.infix_append_of_infix_right
  apply List.infix_append_of_infix_left
  apply List.infix_append_of_infix_right
  exact hpart.trans (List.infix_append _ _ _)

end Report.Comment

namespace Analysis.Run

section

variable [Regex.Names]

/-- In a result for a valid configuration each repository has a name of its own, both repositories
of every relation are found, and every record is about impacts of the result. So a result that
counts no impacts has no records, and the comment shows all records of every other one. -/
theorem resultUnder_refersWell {homes : Homes} {entries : List (Value × Value)} {c : Config}
    (hvalid : Config.check homes entries = .valid c) (r : Run) (schedule : List Nat)
    {result : Result} (hresult : r.resultUnder schedule c = .ok result) :
    (result.repos.map (·.name)).Nodup ∧
    (∀ relation ∈ c.relations, ∃ source target,
      Correlation.findRepo? result.seen relation.source = some source ∧
        Correlation.findRepo? result.seen relation.target = some target) ∧
    (∀ x ∈ result.crossImpacts, x.Grounded c result) ∧
    (result.summary.totalImpactedComponents = 0 → result.crossImpacts = []) ∧
    ∀ x ∈ result.crossImpacts,
      Report.Comment.crossLines x <:+: Report.Comment.lines result := by
  have hrefers := Config.refersWell_of_check hvalid
  have haccounts := r.accounts_of_resultUnder hresult
  refine ⟨?_, fun relation => haccounts.exists_repos hrefers, fun x => haccounts.grounded,
    haccounts.crossImpacts_eq_nil, fun x hx => ?_⟩
  · rw [haccounts.names_eq]
    exact hrefers.nodup_names
  · refine Report.Comment.crossLines_infix_lines (fun htotal => ?_) hx
    rw [haccounts.crossImpacts_eq_nil htotal] at hx
    cases hx

end

/-- Two services with common packages. -/
def packagesDocument : List (Value × Value) :=
  [(.text "repos", .list [
      .record [("name", .text "api"), ("path", .text "/api"), ("type", .text "go"),
        ("analyzers", .list [.text "go-ast"])],
      .record [("name", .text "web"), ("path", .text "/web"), ("type", .text "go"),
        ("analyzers", .list [.text "go-ast"])]]),
    (.text "relations", .list [
      .record [("from", .text "api"), ("to", .text "web"), ("via", .text "npm-package")]])]

def packagesConfig : Config where
  repos := [⟨"api", ⟨"/", ["api"]⟩, .go, [.goAst], none, none⟩,
    ⟨"web", ⟨"/", ["web"]⟩, .go, [.goAst], none, none⟩]
  relations := [⟨"api", "web", .npmPackage, none⟩]
  output := .standard
  logging := .standard

def packagesRun : Run where
  registry := .standard
  matchers := .standard
  host := ⟨⟨[(["api"], .directory), (["web"], .directory)], []⟩,
    fun _ => Git.Snapshot.answer ⟨.ok ["go.mod"], [], []⟩⟩
  versions := ⟨"main", "HEAD"⟩
  pullRequest := none
  now := ⟨⟨2024, 1, 2⟩, 0, 0, 0, 0, none⟩

def packagesRecord : Record :=
  .ofTargets "api" "Go Dependencies" "web" ["Go Dependencies"] .npmPackage

theorem resultUnder_refersWell_packages :
    Config.check ⟨"/", []⟩ packagesDocument = .valid packagesConfig ∧
      ∃ result, packagesRun.resultUnder [] packagesConfig = .ok result ∧
        result.crossImpacts = [packagesRecord] ∧ packagesRecord.Grounded packagesConfig result := by
  have hvalid : Config.check ⟨"/", []⟩ packagesDocument = .valid packagesConfig := by
    decide +kernel
  have hrecords : (packagesRun.resultUnder [] packagesConfig).toOption.map (·.crossImpacts) =
      some [packagesRecord] := by
    decide +kernel
  obtain ⟨result, hresult, hcross⟩ := Option.map_eq_some_iff.mp hrecords
  rw [← Outcome.eq_ok_iff_toOption] at hresult
  have hx : packagesRecord ∈ result.crossImpacts := hcross ▸ List.mem_singleton_self _
  exact ⟨hvalid, result, hresult, hcross,
    (resultUnder_refersWell hvalid packagesRun [] hresult).2.2.1 _ hx⟩

end Analysis.Run

end Ripple
