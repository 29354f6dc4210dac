import Ripple.Outline.ScriptFile
import Ripple.Proofs.Accounting
import Ripple.Proofs.Provenance
import Ripple.Regex.Names

/-! # Merging in portions

To merge portions of a list of impacts and then the whole is to merge the whole at once. So it makes
no difference to a run whether its analyzers merge what they find, which is why the built-in ones
may: step by step, the findings of the two runs merge to the same. And of what the analyzers of a
repository find, only the impacts in a row count, not how they are divided among the analyzers.
-/
namespace Ripple

namespace Impact

theorem merge_flatMap_merge (portions : List (List Impact)) :
    merge (portions.flatMap merge) = merge portions.flatten :=
  gathering.gather_flatMap_gather portions

theorem merge_merge (items : List Impact) : merge (merge items) = merge items :=
  gathering.gather_gather items

theorem merge_append_merge (items others : List Impact) :
    merge (items ++ merge others) = merge (items ++ others) :=
  gathering.gather_append_gather items others

theorem merge_append_congr {items items' : List Impact} (h : merge items = merge items')
    (others : List Impact) : merge (items ++ others) = merge (items' ++ others) := by
  have hfirst : ∀ l : List Impact, merge (merge l ++ others) = merge (l ++ others) := fun l =>
    gathering.gather_gather_append l others
  rw [← hfirst, h, hfirst]

end Impact

namespace Analysis

open Outcome

def Analyzer.merging (a : Analyzer) : Analyzer :=
  { a with run := fun h => (a.run h).map Impact.merge }

def AnalyzerClass.merging (c : AnalyzerClass) : AnalyzerClass :=
  { c with make := fun h repo versions => (c.make h repo versions).map Analyzer.merging }

def Registry.merging (registry : Registry) : Registry :=
  registry.map fun (name, c) => (name, c.merging)

def Run.merging (r : Run) : Run := { r with registry := r.registry.merging }

theorem Registry.lookup_merging (registry : Registry) (name : String) :
    registry.merging.lookup name = (registry.lookup name).map AnalyzerClass.merging := by
  induction registry with
  | nil => rfl
  | cons entry rest ih =>
    obtain ⟨other, c⟩ := entry
    rw [merging, List.map_cons, List.lookup_cons, List.lookup_cons]
    cases name == other with
    | true => rfl
    | false => exact ih

theorem Registry.create_merging (registry : Registry) (name : String) (h : Host)
    (repo : Repository) (versions : Versions) :
    registry.merging.create name h repo versions =
      (registry.create name h repo versions).map (Option.map Analyzer.merging) := by
  rw [create, create, lookup_merging]
  cases registry.lookup name with
  | none => rfl
  | some c =>
    simp only [Option.map_some, AnalyzerClass.merging]
    split
    · cases c.make h repo versions <;> rfl
    · rfl

/-- Merging the answer changes nothing. -/
def Merged (answer : Except Fault (List Impact)) : Prop := answer.map Impact.merge = answer

theorem merged_merge (items : List Impact) : Merged (.ok (Impact.merge items)) :=
  congrArg Except.ok (Impact.merge_merge items)

theorem Merged.bind {α : Type} {f : α → Except Fault (List Impact)} (h : ∀ a, Merged (f a))
    (x : Except Fault α) : Merged (x >>= f) := by
  cases x with
  | error fault => rfl
  | ok a => exact h a

theorem GoService.merged_analyze (s : Setting) (h : Host) : Merged (analyze s h) := by
  refine Merged.bind (fun changed => ?_) _
  exact Merged.bind (fun contents => merged_merge _) _

theorem GraphqlApi.merged_analyze (s : Setting) (schemaPath : String) (h : Host) :
    Merged (analyze s schemaPath h) := by
  refine Merged.bind (fun changed => ?_) _
  simp only [impacts]
  split
  · exact merged_merge []
  · exact Merged.bind (fun operations => merged_merge _) _

section BuiltIn

variable [Outline.ScriptParser]

theorem AngularWorkspace.merged_analyze (s : Setting) (h : Host) : Merged (analyze s h) := by
  refine Merged.bind (fun changed => ?_) _
  split
  · exact merged_merge []
  · exact Merged.bind (fun project => merged_merge _) _

theorem merged_run (s : Setting) (schemaPath : String) (kind : AnalyzerKind) (h : Host) :
    Merged ((analyzerFor s schemaPath kind).run h) := by
  cases kind with
  | graphqlInspector => exact GraphqlApi.merged_analyze s schemaPath h
  | tsMorph => exact AngularWorkspace.merged_analyze s h
  | _ => exact GoService.merged_analyze s h

theorem merging_analyzerFor (s : Setting) (schemaPath : String) (kind : AnalyzerKind) :
    (analyzerFor s schemaPath kind).merging = analyzerFor s schemaPath kind := by
  have hrun : (fun h => ((analyzerFor s schemaPath kind).run h).map Impact.merge) =
      (analyzerFor s schemaPath kind).run := by
    ext h : 1
    exact merged_run s schemaPath kind h
  rw [Analyzer.merging, hrun]

theorem merging_classFor (kind : AnalyzerKind) : (classFor kind).merging = classFor kind := by
  have hmake : (fun h repo versions =>
      ((classFor kind).make h repo versions).map Analyzer.merging) = (classFor kind).make := by
    ext h repo versions : 3
    cases hmade : (classFor kind).make h repo versions with
    | error f => rfl
    | ok analyzer =>
      obtain ⟨s, schemaPath, -, rfl⟩ := eq_analyzerFor_of_make hmade
      exact congrArg Except.ok (merging_analyzerFor s schemaPath kind)
  rw [AnalyzerClass.merging, hmake]

/-- The built-in analyzers merge what they find. -/
theorem Registry.merging_standard : Registry.standard.merging = Registry.standard := by
  rw [merging, standard, List.map_map]
  apply List.map_congr_left
  rintro ⟨kind, c⟩ hbuiltIn
  rw [classFor_of_builtIn hbuiltIn]
  exact congrArg (Prod.mk kind.text) (merging_classFor kind)

end BuiltIn

/-- The findings differ at most in that impacts are merged. -/
structure Findings.Matches (found found' : Findings) : Prop where
  impacts : Impact.merge found.impacts = Impact.merge found'.impacts
  errors : found.errors = found'.errors

variable {found found' : Findings}

theorem Findings.Matches.result_eq (h : found.Matches found') (repo : Repository) :
    found.result repo = found'.result repo := by
  rw [result, result, h.impacts, h.errors]

theorem Findings.Matches.add (h : found.Matches found') (kind : AnalyzerKind)
    (answer : Except Fault (List Impact)) :
    Alike Matches (found.add kind (answer.map Impact.merge)) (found'.add kind answer) := by
  cases answer with
  | ok impacts =>
    refine .ok ⟨?_, h.errors⟩
    exact (Impact.merge_append_merge _ _).trans (Impact.merge_append_congr h.impacts impacts)
  | error f =>
    have hentry : ({ found with errors := found.errors ++ [kind.text ++ ": " ++ f.message] } :
        Findings).Matches
          { found' with errors := found'.errors ++ [kind.text ++ ": " ++ f.message] } :=
      ⟨h.impacts, by rw [h.errors]⟩
    cases f with
    | gaveUp message analyzer recoverable =>
      cases recoverable with
      | false => exact .error _
      | true => exact .ok hentry
    | nameTooLong f => exact .ok hentry
    | crashed message => exact .ok hentry

variable (r : Run)

theorem Run.runKind_merging (h : found.Matches found') (repo : Repository) (kind : AnalyzerKind) :
    Alike Findings.Matches (r.merging.runKind repo found kind) (r.runKind repo found' kind) := by
  have hcreate : r.merging.registry.create kind.text r.merging.host repo r.merging.versions =
      (r.registry.create kind.text r.host repo r.versions).map (Option.map Analyzer.merging) :=
    r.registry.create_merging kind.text r.host repo r.versions
  rw [runKind, runKind, hcreate]
  cases r.registry.create kind.text r.host repo r.versions with
  | error f => exact .error (RunFault.setup f)
  | ok made =>
    cases made with
    | none => exact .ok h
    | some analyzer => exact h.add kind (analyzer.run r.host)

inductive Stage.Matches : Stage → Stage → Prop
  | waiting : Matches .waiting .waiting
  | running {found found' : Findings} (h : found.Matches found') (left : List AnalyzerKind) :
      Matches (.running found left) (.running found' left)
  | done (result : RepoResult) : Matches (.done result) (.done result)

structure Job.Matches (job job' : Job) : Prop where
  repo : job.repo = job'.repo
  stage : job.stage.Matches job'.stage

theorem Job.matches_start (repo : Repository) : (start repo).Matches (start repo) :=
  ⟨rfl, .waiting⟩

variable {job job' : Job}

/-- A step keeps the analyses equally far. -/
theorem Job.Matches.step (h : job.Matches job') :
    Alike Job.Matches (job.step r.merging) (job'.step r) := by
  obtain ⟨repo, stage⟩ := job
  obtain ⟨repo', stage'⟩ := job'
  obtain ⟨rfl, hstage⟩ := h
  cases hstage with
  | waiting =>
    change Alike _ (r.isPresent repo >>= _) (r.isPresent repo >>= _)
    cases r.isPresent repo with
    | error f => exact .error f
    | ok there =>
      cases there with
      | false => exact .ok ⟨rfl, .done _⟩
      | true => exact .ok ⟨rfl, .running ⟨rfl, rfl⟩ repo.analyzers⟩
  | @running found found' hfound left =>
    cases left with
    | nil =>
      refine .ok ⟨rfl, ?_⟩
      rw [hfound.result_eq]
      exact .done _
    | cons kind left =>
      exact (r.runKind_merging hfound repo kind).bind fun _ _ hnext =>
        .ok ⟨rfl, .running hnext left⟩
  | done result => exact .ok ⟨rfl, .done result⟩

theorem Job.remainder_merging (h : found.Matches found') (repo : Repository)
    (left : List AnalyzerKind) :
    remainder r.merging repo found left = remainder r repo found' left := by
  have hall : Alike Findings.Matches (left.foldlM (r.merging.runKind repo) found)
      (left.foldlM (r.runKind repo) found') :=
    Alike.foldlM (fun _ _ kind hnext => r.runKind_merging hnext repo kind) left h
  exact hall.bind_eq fun _ _ hfound => congrArg Except.ok (hfound.result_eq repo)

theorem Job.Matches.finish_eq (h : job.Matches job') : job.finish r.merging = job'.finish r := by
  obtain ⟨repo, stage⟩ := job
  obtain ⟨repo', stage'⟩ := job'
  obtain ⟨rfl, hstage⟩ := h
  cases hstage with
  | waiting =>
    change (r.isPresent repo >>= _) = (r.isPresent repo >>= _)
    cases r.isPresent repo with
    | error f => rfl
    | ok there =>
      cases there with
      | false => rfl
      | true => exact remainder_merging r ⟨rfl, rfl⟩ repo repo.analyzers
  | running hfound left => exact remainder_merging r hfound repo left
  | done result => rfl

theorem Run.advance_merging {jobs jobs' : List Job} (h : List.Forall₂ Job.Matches jobs jobs')
    (place : Nat) :
    Alike (List.Forall₂ Job.Matches) (r.merging.advance jobs place) (r.advance jobs' place) := by
  induction h generalizing place with
  | nil => exact .ok .nil
  | cons hjob hrest ih =>
    cases place with
    | zero => exact (hjob.step r).bind fun _ _ hnext => .ok (.cons hnext hrest)
    | succ place => exact (ih place).bind fun _ _ hnext => .ok (.cons hjob hnext)

theorem Run.finishAll_merging {jobs jobs' : List Job} (h : List.Forall₂ Job.Matches jobs jobs') :
    jobs.mapM (Job.finish r.merging) = jobs'.mapM (Job.finish r) := by
  induction h with
  | nil => rfl
  | cons hjob _ ih => rw [List.mapM_cons, List.mapM_cons, hjob.finish_eq r, ih]

theorem Run.analyses_merging (schedule : List Nat) (repos : List Repository) :
    r.merging.analyses schedule repos = r.analyses schedule repos := by
  have hstart : List.Forall₂ Job.Matches (repos.map Job.start) (repos.map Job.start) :=
    List.forall₂_same.mpr fun job hjob => by
      obtain ⟨repo, _, rfl⟩ := List.mem_map.mp hjob
      exact Job.matches_start repo
  have hall : Alike (List.Forall₂ Job.Matches)
      (schedule.foldlM r.merging.advance (repos.map Job.start))
      (schedule.foldlM r.advance (repos.map Job.start)) :=
    Alike.foldlM (fun _ _ place h => r.advance_merging h place) schedule hstart
  exact hall.bind_eq fun _ _ => r.finishAll_merging

/-- Whether the analyzers merge what they find or not, a run ends the same under every schedule. -/
theorem Run.resultUnder_merging [Regex.Names] (schedule : List Nat) (c : Config) :
    r.merging.resultUnder schedule c = r.resultUnder schedule c := by
  rw [resultUnder, resultUnder, analyses_merging]
  rfl

/-- Two repositories under the same name and path where the analyzers of two runs find the same
impacts in a row and leave the same entries, however both are divided among the analyzers. -/
structure Run.FindSame (r r' : Run) (repo repo' : Repository) : Prop where
  name : repo.name = repo'.name
  path : repo.path = repo'.path
  there : r.host.files.exists? repo.path = r'.host.files.exists? repo'.path
  impacts : repo.analyzers.flatMap (r.impactsOf repo) =
    repo'.analyzers.flatMap (r'.impactsOf repo')
  errors : repo.analyzers.flatMap (r.errorsOf repo) = repo'.analyzers.flatMap (r'.errorsOf repo')

variable {r} {r' : Run} {repo repo' : Repository}

theorem Run.FindSame.account_eq (h : r.FindSame r' repo repo') :
    r.account repo = r'.account repo' := by
  rw [account, account, h.there, h.impacts, h.errors, h.name, h.path]

theorem Run.finish_merging (hstops : ¬ r.Stops repo) :
    (Job.start repo).finish r.merging = .ok (r.account repo) := by
  rw [(Job.matches_start repo).finish_eq r, r.finish_start_eq_ok hstops]

/-- Merging portions and then the whole is merging the whole at once, so to merge again changes
nothing. The built-in analyzers merge what they find, but no run would end otherwise if they did
not, and the result for a repository is the same for all ways to divide the impacts that its
analyzers find, in their order, among the analyzers. -/
theorem merge_divided [Regex.Names] [Outline.ScriptParser] :
    (∀ portions : List (List Impact),
      Impact.merge (portions.flatMap Impact.merge) = Impact.merge portions.flatten) ∧
    (∀ items : List Impact, Impact.merge (Impact.merge items) = Impact.merge items) ∧
    Registry.standard.merging = Registry.standard ∧
    (∀ (r : Run) (schedule : List Nat) (c : Config),
      r.merging.resultUnder schedule c = r.resultUnder schedule c) ∧
    ∀ (r r' : Run) (repo repo' : Repository), ¬ r.Stops repo → ¬ r'.Stops repo' →
      r.FindSame r' repo repo' →
      (Job.start repo).finish r.merging = .ok (r.account repo) ∧
        (Job.start repo').finish r'.merging = .ok (r.account repo) := by
  refine ⟨Impact.merge_flatMap_merge, Impact.merge_merge, Registry.merging_standard,
    fun r => r.resultUnder_merging, fun r r' repo repo' hstops hstops' hsame => ⟨?_, ?_⟩⟩
  · exact Run.finish_merging hstops
  · rw [hsame.account_eq]
    exact Run.finish_merging hstops'

def usersEdited : Impact := .single "api" "Users" "users.ts" .direct "users.ts" "edited" none

def ordersEdited : Impact := .single "api" "Orders" "orders.ts" .direct "orders.ts" "edited" none

def usersAgain : Impact :=
  { usersEdited with
    line := some 7
    reasons := [⟨.direct, "users.ts", "edited again"⟩, ⟨.schema, "schema-diff", "changed"⟩] }

/-- The class of analyzers that find the given impacts. -/
def finding (impacts : List Impact) : AnalyzerClass where
  handles _ := true
  make _ _ _ := .ok ⟨"finding", none, fun _ => .ok impacts⟩

def dividedRepository : Repository :=
  ⟨"api", ⟨"/", ["api"]⟩, .go, [.goAst, .graphqlInspector], none, none⟩

def dividedRun (first second : List Impact) : Run where
  registry := [("go-ast", finding first), ("graphql-inspector", finding second)]
  matchers := .standard
  host := ⟨⟨[(["api"], .directory)], []⟩, fun _ _ => .notStarted "no git"⟩
  versions := ⟨"main", "HEAD"⟩
  pullRequest := none
  now := ⟨⟨2024, 1, 2⟩, 0, 0, 0, 0, none⟩

def dividedResult : RepoResult :=
  let users := { usersEdited with
    reasons := [⟨.direct, "users.ts", "edited"⟩, ⟨.schema, "schema-diff", "changed"⟩] }
  ⟨"api", 2, [users, ordersEdited], []⟩

theorem not_stops_dividedRun (first second : List Impact) :
    ¬ (dividedRun first second).Stops dividedRepository := by
  have hmade : ∀ kind ∈ dividedRepository.analyzers, ∃ impacts,
      (dividedRun first second).registry.create kind.text (dividedRun first second).host
        dividedRepository (dividedRun first second).versions =
          .ok (some ⟨"finding", none, fun _ => .ok impacts⟩) :=
    List.forall_mem_cons.mpr ⟨⟨first, rfl⟩, List.forall_mem_singleton.mpr ⟨second, rfl⟩⟩
  rintro (⟨f, hf⟩ | ⟨-, kind, hkind, hstops⟩)
  · cases hf
  · obtain ⟨impacts, hmade⟩ := hmade kind hkind
    simp [Run.StopsAt, Run.answer?, hmade] at hstops

/-- The impact on orders may come from either analyzer. -/
theorem merge_divided_users :
    ¬ (dividedRun [usersEdited, ordersEdited] [usersAgain]).Stops dividedRepository ∧
      ¬ (dividedRun [usersEdited] [ordersEdited, usersAgain]).Stops dividedRepository ∧
      (dividedRun [usersEdited, ordersEdited] [usersAgain]).FindSame
        (dividedRun [usersEdited] [ordersEdited, usersAgain]) dividedRepository dividedRepository ∧
      (Job.start dividedRepository).finish
          (dividedRun [usersEdited] [ordersEdited, usersAgain]).merging =
        .ok dividedResult := by
  have hsame : (dividedRun [usersEdited, ordersEdited] [usersAgain]).FindSame
      (dividedRun [usersEdited] [ordersEdited, usersAgain]) dividedRepository dividedRepository :=
    ⟨rfl, rfl, rfl, rfl, rfl⟩
  have hfinish := (merge_divided.2.2.2.2 _ _ _ _ (not_stops_dividedRun _ _)
    (not_stops_dividedRun _ _) hsame).2
  refine ⟨not_stops_dividedRun _ _, not_stops_dividedRun _ _, hsame, hfinish.trans ?_⟩
  have haccount : (dividedRun [usersEdited, ordersEdited] [usersAgain]).account dividedRepository =
      dividedResult := by
    decide +kernel
  rw [haccount]

end Analysis

end Ripple
