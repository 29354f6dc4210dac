import Ripple.Analysis.Pipeline
import Ripple.Proofs.Outcome

/-! # The schedule of a run does not matter

A step of an analysis does not change how the analysis ends. So whatever schedule the analyses of a
run follow, the run has the same results, and it ends with a fault under one schedule if and only if
it does under every other. Which fault ends it may depend on the schedule.
-/
namespace Ripple.Analysis

open Outcome

variable (r : Run)

namespace Job

theorem remainder_cons (repo : Repository) (found : Findings) (kind : AnalyzerKind)
    (left : List AnalyzerKind) :
    remainder r repo found (kind :: left) =
      r.runKind repo found kind >>= fun next => remainder r repo next left := by
  rw [remainder, List.foldlM_cons, bind_assoc]
  rfl

/-- Whoever takes a step and then finishes ends as if finishing at once. -/
theorem step_finish (job : Job) : (job.step r >>= finish r) = job.finish r := by
  obtain ⟨repo, stage⟩ := job
  cases stage with
  | waiting =>
    rw [step, finish]
    cases r.isPresent repo with
    | error f => rfl
    | ok there => cases there <;> rfl
  | running found left =>
    cases left with
    | nil => rfl
    | cons kind left =>
      rw [step, finish, remainder_cons]
      cases r.runKind repo found kind <;> rfl
  | done result => rfl

end Job

namespace Run

/-- A step of one of the analyses changes no result. -/
theorem advance_finish (jobs : List Job) (place : Nat) :
    (r.advance jobs place >>= List.mapM (Job.finish r)).toOption =
      (jobs.mapM (Job.finish r)).toOption := by
  induction jobs generalizing place with
  | nil => rfl
  | cons job rest ih =>
    cases place with
    | zero =>
      rw [advance, bind_assoc, List.mapM_cons, ← job.step_finish r, bind_assoc]
      simp only [pure_bind, List.mapM_cons]
    | succ place =>
      -- the step is taken before the first job finishes, so the two are exchanged
      rw [advance, bind_assoc, List.mapM_cons]
      simp only [pure_bind, List.mapM_cons, toOption_bind, ← ih place]
      cases (job.finish r).toOption with
      | none => simp
      | some result => simp [Option.bind_assoc]

theorem follow_finish (schedule : List Nat) (jobs : List Job) :
    (schedule.foldlM r.advance jobs >>= List.mapM (Job.finish r)).toOption =
      (jobs.mapM (Job.finish r)).toOption := by
  induction schedule generalizing jobs with
  | nil => rfl
  | cons place rest ih =>
    rw [List.foldlM_cons, bind_assoc, toOption_bind]
    simp only [ih]
    rw [← toOption_bind, advance_finish]

/-- The analyses end as if one were done after the other. -/
theorem analyses_toOption (schedule : List Nat) (repos : List Repository) :
    (r.analyses schedule repos).toOption =
      ((repos.map Job.start).mapM (Job.finish r)).toOption :=
  r.follow_finish schedule _

variable [Regex.Names]

theorem resultUnder_eq_ok_iff (schedule : List Nat) (c : Config) (result : Result) :
    r.resultUnder schedule c = .ok result ↔ r.result c = .ok result := by
  rw [Run.result, eq_ok_iff_toOption, eq_ok_iff_toOption, resultUnder, resultUnder, toOption_bind,
    toOption_bind, analyses_toOption, analyses_toOption]

end Run

end Ripple.Analysis
