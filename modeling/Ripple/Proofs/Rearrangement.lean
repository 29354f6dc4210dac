import Ripple.Proofs.Integrity

/-! # The order of a configuration does not matter

Repositories are found by their names and relations are all followed, so nothing that a run says
depends on the order in which a valid configuration lists them. The order of what it says may: the
results for repositories follow the repositories, records and their targets follow the relations.
Where only repositories change places, the records stay in place.
-/
namespace Ripple

/-- The records lead from the same keys to the same targets, in whatever order. -/
structure Record.Agree (records' records : List Record) : Prop where
  keys : (records'.map Record.key).Perm (records.map Record.key)
  targets : ∀ x' ∈ records', ∀ x ∈ records, x'.key = x.key → x'.targets.Perm x.targets

/-- The results say the same of each repository, in sum and across repositories, in whatever
order. -/
structure Result.Agree (result' result : Result) : Prop where
  about : result'.about = result.about
  repos : result'.repos.Perm result.repos
  repo : ∀ name : String,
    result'.repos.find? (·.name = name) = result.repos.find? (·.name = name)
  totalChangedFiles : result'.summary.totalChangedFiles = result.summary.totalChangedFiles
  totalImpactedComponents :
    result'.summary.totalImpactedComponents = result.summary.totalImpactedComponents
  hasBreakingChanges : result'.summary.hasBreakingChanges = result.summary.hasBreakingChanges
  rows : result'.summary.repos.Perm result.summary.repos
  records : Record.Agree result'.crossImpacts result.crossImpacts

namespace Summary

variable {repos' repos : List RepoResult}

theorem totalChangedFiles_of_perm (h : repos'.Perm repos) :
    (Summary.of repos').totalChangedFiles = (Summary.of repos).totalChangedFiles :=
  (h.map _).sum_eq

theorem totalImpactedComponents_of_perm (h : repos'.Perm repos) :
    (Summary.of repos').totalImpactedComponents = (Summary.of repos).totalImpactedComponents :=
  (h.map _).sum_eq

theorem hasBreakingChanges_of_perm (h : repos'.Perm repos) :
    (Summary.of repos').hasBreakingChanges = (Summary.of repos).hasBreakingChanges :=
  (h.flatMap_right _).any_eq

end Summary

namespace Correlation

variable [Regex.Names] {registry : MatcherRegistry} {repos repos' : List RepoImpacts}
  {relations relations' : List Relation}

theorem Answers.exists_key_of_subset {records records' : List Record}
    (h : Answers registry repos relations records) (h' : Answers registry repos relations' records')
    (hsubset : relations ⊆ relations') : records.map Record.key ⊆ records'.map Record.key := by
  intro k hk
  obtain ⟨x, hx, rfl⟩ := List.mem_map.mp hk
  obtain ⟨r, hr, hjoins⟩ := (h.exists_key _ _ _ _).mp ⟨x, hx, rfl⟩
  exact List.mem_map.mpr ((h'.exists_key _ _ _ _).mpr ⟨r, hsubset hr, hjoins⟩)

/-- The same relations lead to the same records. -/
theorem Answers.agree {records records' : List Record}
    (h : Answers registry repos relations records) (h' : Answers registry repos relations' records')
    (hsame : ∀ r, r ∈ relations' ↔ r ∈ relations) : Record.Agree records' records where
  keys := by
    -- each key occurs once in either list, so only which keys there are counts
    rw [List.perm_ext_iff_of_nodup h'.nodup_keys h.nodup_keys]
    exact fun k => ⟨fun hk => h'.exists_key_of_subset h (fun r => (hsame r).mp) hk,
      fun hk => h.exists_key_of_subset h' (fun r => (hsame r).mpr) hk⟩
  targets := by
    intro x' hx' x hx hkey
    obtain ⟨hsource, hcomponent, htarget, hvia⟩ :
        x'.sourceRepo = x.sourceRepo ∧ x'.sourceComponent = x.sourceComponent ∧
          x'.targetRepo = x.targetRepo ∧ x'.relation = x.relation := by
      simpa [Record.key] using hkey
    rw [List.perm_ext_iff_of_nodup (h'.nodup_targets x' hx') (h.nodup_targets x hx)]
    intro t
    rw [h'.mem_targets x' hx', h.mem_targets x hx, hsource, hcomponent, htarget, hvia]
    simp only [hsame]

theorem correlate_of_same {records : List Record}
    (h : correlate registry repos relations = .ok records)
    (hsame : ∀ r, r ∈ relations' ↔ r ∈ relations) :
    ∃ records', correlate registry repos relations' = .ok records' ∧
      Record.Agree records' records := by
  have hstalls : ∀ r ∈ relations', ¬ Stalls registry repos r := fun r hr =>
    (correlate_ok_iff relations).mp ⟨records, h⟩ r ((hsame r).mp hr)
  obtain ⟨records', hrecords', hanswers⟩ := correlate_eq_ok hstalls
  exact ⟨records', hrecords', (answers_of_correlate h).agree hanswers hsame⟩

/-- Of the repositories, correlation sees what is found under each name. -/
theorem correlate_congr (registry : MatcherRegistry) (relations : List Relation)
    (h : ∀ name, findRepo? repos' name = findRepo? repos name) :
    correlate registry repos' relations = correlate registry repos relations := by
  have hrelate : ∀ r, relate registry repos' r = relate registry repos r := fun r => by
    rw [relate, relate, h, h]
  have hall : relateAll registry repos' relations = relateAll registry repos relations := by
    induction relations with
    | nil => rfl
    | cons r rest ih => rw [relateAll, relateAll, hrelate, ih]
  rw [correlate, correlate, hall]

end Correlation

namespace Analysis.Run

variable {r : Run}

theorem findRepo?_found_of_perm {repos repos' : List Repository} (h : repos'.Perm repos)
    (hn : (repos.map (·.name)).Nodup) (name : String) :
    Correlation.findRepo? (r.found repos') name = Correlation.findRepo? (r.found repos) name := by
  refine find?_key_of_perm RepoImpacts.name (h.map _) ?_ name
  rwa [List.map_map]

theorem agree_assemble {repos repos' : List RepoResult} {records records' : List Record}
    (h : repos'.Perm repos) (hn : (repos.map (·.name)).Nodup)
    (hrecords : Record.Agree records' records) :
    (r.assemble repos' records').Agree (r.assemble repos records) where
  about := rfl
  repos := h
  repo := find?_key_of_perm RepoResult.name h hn
  totalChangedFiles := Summary.totalChangedFiles_of_perm h
  totalImpactedComponents := Summary.totalImpactedComponents_of_perm h
  hasBreakingChanges := Summary.hasBreakingChanges_of_perm h
  rows := h.map _
  records := hrecords

section

variable [Regex.Names]

/-- If a run on a valid configuration ends with a result, so does every run on the same repositories
and relations in another order. The results agree, and they have the same records in the same order
if the relations are in the same order. -/
theorem resultUnder_rearranged {homes : Homes} {entries : List (Value × Value)} {c : Config}
    (hvalid : Config.check homes entries = .valid c) {repos : List Repository}
    (hrepos : repos.Perm c.repos) {relations : List Relation}
    (hrelations : relations.Perm c.relations) (r : Run) (schedule schedule' : List Nat)
    {result : Result} (hresult : r.resultUnder schedule c = .ok result) :
    ∃ result', r.resultUnder schedule' { c with repos := repos, relations := relations } =
        .ok result' ∧
      result'.Agree result ∧
      (relations = c.relations → result'.crossImpacts = result.crossImpacts) := by
  have hnames := (Config.refersWell_of_check hvalid).nodup_names
  have hstops : ∀ repo ∈ repos, ¬ r.Stops repo := fun repo hrepo =>
    r.not_stops_of_resultUnder hresult repo (hrepos.subset hrepo)
  -- the relations find the same repositories, whose accounts come from the same analyses
  have hfound := Correlation.correlate_congr r.matchers relations
    (findRepo?_found_of_perm (r := r) hrepos hnames)
  obtain ⟨records, hrecords, rfl⟩ := r.exists_of_resultUnder hresult
  obtain ⟨records', hrecords', hagree⟩ :=
    Correlation.correlate_of_same hrecords fun relation => hrelations.mem_iff
  refine ⟨r.assemble (repos.map r.account) records', ?_, agree_assemble (hrepos.map _) ?_ hagree,
    fun hsame => ?_⟩
  · rw [r.resultUnder_of_not_stops hstops, hfound, hrecords']
    rfl
  · rw [List.map_map]
    simpa only [Function.comp_def, name_account] using hnames
  · rw [hsame, hrecords] at hrecords'
    exact (Except.ok.inj hrecords').symm

end

/-- Two services, each of which uses the packages of the other. -/
def mutualDocument : List (Value × Value) :=
  [(.text "repos", .list [
      .record [("name", .text "api"), ("path", .text "/api"), ("type", .text "go"),
        ("analyzers", .list [.text "go-ast"])],
      .record [("name", .text "web"), ("path", .text "/web"), ("type", .text "go"),
        ("analyzers", .list [.text "go-ast"])]]),
    (.text "relations", .list [
      .record [("from", .text "api"), ("to", .text "web"), ("via", .text "npm-package")],
      .record [("from", .text "web"), ("to", .text "api"), ("via", .text "npm-package")]])]

def mutualConfig : Config :=
  { packagesConfig with
    relations := [⟨"api", "web", .npmPackage, none⟩, ⟨"web", "api", .npmPackage, none⟩] }

def mutualReversed : Config :=
  { mutualConfig with
    repos := mutualConfig.repos.reverse
    relations := mutualConfig.relations.reverse }

theorem resultUnder_rearranged_mutual :
    Config.check ⟨"/", []⟩ mutualDocument = .valid mutualConfig ∧
      ∃ result result', packagesRun.resultUnder [] mutualConfig = .ok result ∧
        packagesRun.resultUnder [1, 0] mutualReversed = .ok result' ∧
        result'.Agree result ∧ result.crossImpacts.length = 2 := by
  have hvalid : Config.check ⟨"/", []⟩ mutualDocument = .valid mutualConfig := by
    decide +kernel
  have hlength : (packagesRun.resultUnder [] mutualConfig).toOption.map (·.crossImpacts.length) =
      some 2 := by
    decide +kernel
  obtain ⟨result, hresult, htwo⟩ := Option.map_eq_some_iff.mp hlength
  rw [← Outcome.eq_ok_iff_toOption] at hresult
  obtain ⟨result', hresult', hagree, _⟩ := resultUnder_rearranged hvalid
    (List.reverse_perm mutualConfig.repos) (List.reverse_perm mutualConfig.relations) packagesRun []
    [1, 0] hresult
  exact ⟨hvalid, result, result', hresult, hresult', hagree, htwo⟩

end Analysis.Run

end Ripple
