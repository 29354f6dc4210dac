import Ripple.Proofs.Outcome
import Ripple.Git.Session

/-! # Which comparison the differences are of

The list of changed files is that of the point where the two versions parted or, where git cannot
tell, that of the versions themselves. The differences in a file have no such second attempt: they
are always those from the point of parting. So where git knows of no such point, files are listed as
changed and there are no differences in any of them.
-/
namespace Ripple.Git

def Outcome.text? : Outcome → Option String
  | .ended output _ code => if code = 0 then some (decoded output) else none
  | .hung => none
  | .notStarted _ => none

def Outcome.processes : Outcome → List Bool
  | .ended .. => [false]
  | .hung => [true]
  | .notStarted _ => []

namespace Outcome

variable (o : Outcome) (directory : Path) (timeout : String) (command : List String)

theorem toOption_read : (o.read directory timeout command).toOption = o.text? := by
  cases o with
  | ended output errors code =>
    by_cases hcode : code = 0
    · simp only [read, text?, if_pos hcode]
      rfl
    · simp only [read, text?, if_neg hcode]
      rfl
  | hung => rfl
  | notStarted why => rfl

theorem read_eq_ok_iff (output : String) :
    o.read directory timeout command = .ok output ↔ o.text? = some output := by
  rw [Ripple.Outcome.eq_ok_iff_toOption, toOption_read]

theorem exists_read_eq_error_iff :
    (∃ f, o.read directory timeout command = .error f) ↔ o.text? = none := by
  rw [← o.toOption_read directory timeout command]
  cases o.read directory timeout command <;> simp [Except.toOption]

end Outcome

/-- The ways to compare two versions. -/
inductive Comparison where
  /-- The second version with the point where the two parted. -/
  | parting
  | direct
  deriving DecidableEq, Repr

namespace Comparison

def versions : Comparison → String → String → List String
  | parting, base, head => [base ++ "..." ++ head]
  | direct, base, head => [base, head]

def listing (k : Comparison) (base head : String) : List String :=
  ["git", "diff", "--name-only"] ++ k.versions base head

def differences (k : Comparison) (base head file : String) : List String :=
  ["git", "diff", "-U3"] ++ k.versions base head ++ ["--", file]

/-- The comparisons that are tried before a list is given up or is one of this sort. -/
def attempts : Comparison → List Comparison
  | parting => [parting]
  | direct => [parting, direct]

end Comparison

def Client.changes {m : Type → Type} [Monad m] (c : Client m) (base head : String)
    (select : List String → List String) : m (Except Fault (List (String × String))) := do
  match ← c.changedFiles base head with
  | .error f => return .error f
  | .ok names =>
    let found ← (select names).mapM fun file => do return (file, ← c.fileDiff file base head)
    return .ok found

namespace Session

/-- A session in which some commands have been tried. -/
def after (script : List Outcome) (commands : List (List String)) : Session :=
  ⟨script.drop commands.length, commands, (script.take commands.length).flatMap Outcome.processes⟩

/-- How the command turns out that is tried after some number of others. -/
def outcomeAt (script : List Outcome) (n : Nat) : Outcome := script.getD n (.notStarted "")

/-- The comparison that succeeds in listing the changed files, and what it prints. -/
inductive Lists (script : List Outcome) : Comparison → String → Prop
  | parting {output : String} (first : (outcomeAt script 0).text? = some output) :
      Lists script .parting output
  | direct {output : String} (first : (outcomeAt script 0).text? = none)
      (second : (outcomeAt script 1).text? = some output) : Lists script .direct output

variable (directory : Path) (timeout : String) (script : List Outcome)
  (commands : List (List String)) (base head : String)

theorem execute_after (command : List String) :
    execute command (after script commands) =
      (outcomeAt script commands.length, after script (commands ++ [command])) := by
  have hnext : (script.drop commands.length).headD (.notStarted "") =
      outcomeAt script commands.length := by
    simp [outcomeAt, List.headD_eq_head?_getD, List.getD_eq_getElem?_getD]
  have hprocesses : (script.take (commands.length + 1)).flatMap Outcome.processes =
      (script.take commands.length).flatMap Outcome.processes ++
        (outcomeAt script commands.length).processes := by
    rw [List.take_add_one, List.flatMap_append, outcomeAt, List.getD_eq_getElem?_getD]
    cases script[commands.length]? <;> simp [Outcome.processes]
  simp only [execute, after, hnext, List.length_append, List.length_singleton, hprocesses,
    List.tail_drop]
  cases outcomeAt script commands.length <;> rfl

theorem run_after (arguments : List String) :
    (client directory timeout).run arguments (after script commands) =
      ((outcomeAt script commands.length).read directory timeout ("git" :: arguments),
        after script (commands ++ ["git" :: arguments])) :=
  congrArg (fun r : Outcome × Session => (r.1.read directory timeout ("git" :: arguments), r.2))
    (execute_after script commands ("git" :: arguments))

variable {script} in
theorem run_of_text {output : String} (h : (outcomeAt script commands.length).text? = some output)
    (arguments : List String) :
    (client directory timeout).run arguments (after script commands) =
      (.ok output, after script (commands ++ ["git" :: arguments])) := by
  rw [run_after, (Outcome.read_eq_ok_iff _ directory timeout _ output).mpr h]

variable {script} in
theorem run_of_none (h : (outcomeAt script commands.length).text? = none)
    (arguments : List String) : ∃ f,
    (outcomeAt script commands.length).read directory timeout ("git" :: arguments) = .error f ∧
      (client directory timeout).run arguments (after script commands) =
        (.error f, after script (commands ++ ["git" :: arguments])) := by
  obtain ⟨f, hread⟩ := (Outcome.exists_read_eq_error_iff _ directory timeout
    ("git" :: arguments)).mpr h
  exact ⟨f, hread, by rw [run_after, hread]⟩

/-- What is done next goes on from where the session has come to. -/
theorem bind_of_eq {α β : Type} {x : StateM Session α} {f : α → StateM Session β}
    {s t : Session} {a : α} (h : x s = (a, t)) : (x >>= f) s = f a t :=
  congrArg (fun r : α × Session => f r.1 r.2) h

/-- The differences in a file are asked for once, and never those of the versions themselves. -/
theorem fileDiff_after (file : String) :
    (client directory timeout).fileDiff file base head (after script commands) =
      ((outcomeAt script commands.length).text?.getD "",
        after script (commands ++ [Comparison.parting.differences base head file])) := by
  cases htext : (outcomeAt script commands.length).text? with
  | some output => exact bind_of_eq (run_of_text directory timeout commands htext _)
  | none =>
    obtain ⟨f, -, hrun⟩ := run_of_none directory timeout commands htext
      ["diff", "-U3", base ++ "..." ++ head, "--", file]
    exact bind_of_eq hrun

theorem fileDiffs_after (files : List String) :
    (files.mapM (fun file => do
        return (file, ← (client directory timeout).fileDiff file base head)) :
          StateM Session _) (after script commands) =
      ((files.zipIdx commands.length).map fun (file, n) =>
          (file, (outcomeAt script n).text?.getD ""),
        after script (commands ++ files.map (Comparison.parting.differences base head))) := by
  -- the commands tried before vary, since each file takes one outcome from the script
  induction files generalizing commands with
  | nil =>
    rw [List.map_nil, List.append_nil]
    rfl
  | cons file rest ih =>
    have hrest := ih (commands ++ [Comparison.parting.differences base head file])
    rw [List.length_append, List.length_singleton] at hrest
    rw [List.mapM_cons, bind_assoc, bind_of_eq (fileDiff_after directory timeout script commands
      base head file), pure_bind, bind_of_eq hrest, List.append_assoc]
    rfl

variable {script} in
theorem changedFiles_of_text {output : String}
    (h : (outcomeAt script commands.length).text? = some output) :
    (client directory timeout).changedFiles base head (after script commands) =
      (.ok (namesIn output), after script (commands ++ [Comparison.parting.listing base head])) :=
  bind_of_eq (run_of_text directory timeout commands h _)

variable {script} in
/-- The list is asked for a second time if the first command fails. -/
theorem changedFiles_of_none (h : (outcomeAt script commands.length).text? = none) :
    (client directory timeout).changedFiles base head (after script commands) =
      (((outcomeAt script (commands.length + 1)).read directory timeout
          (Comparison.direct.listing base head)).map namesIn,
        after script (commands ++ [Comparison.parting.listing base head,
          Comparison.direct.listing base head])) := by
  obtain ⟨f, -, hfirst⟩ := run_of_none directory timeout commands h
    ["diff", "--name-only", base ++ "..." ++ head]
  have hsecond := run_after directory timeout script
    (commands ++ [Comparison.parting.listing base head]) ["diff", "--name-only", base, head]
  rw [List.length_append, List.append_assoc] at hsecond
  exact (bind_of_eq hfirst).trans (bind_of_eq hsecond)

theorem changedFiles_of_lists {k : Comparison} {output : String} (h : Lists script k output) :
    (client directory timeout).changedFiles base head (start script) =
      (.ok (namesIn output), after script (k.attempts.map (·.listing base head))) := by
  cases h with
  | parting first => exact changedFiles_of_text directory timeout [] base head first
  | direct first second =>
    have hread := (Outcome.read_eq_ok_iff _ directory timeout
      (Comparison.direct.listing base head) output).mpr second
    have hlist := changedFiles_of_none directory timeout [] base head first
    rw [List.length_nil, Nat.zero_add, hread] at hlist
    exact hlist

/-- If the second command fails too, its fault is the answer. -/
theorem changedFiles_of_not_lists (h : ∀ k output, ¬ Lists script k output) : ∃ f,
    (outcomeAt script 1).read directory timeout (Comparison.direct.listing base head) = .error f ∧
      (client directory timeout).changedFiles base head (start script) =
        (.error f, after script (Comparison.direct.attempts.map (·.listing base head))) := by
  have hfirst : (outcomeAt script 0).text? = none :=
    Option.eq_none_iff_forall_ne_some.mpr fun output first => h _ output (.parting first)
  have hsecond : (outcomeAt script 1).text? = none :=
    Option.eq_none_iff_forall_ne_some.mpr fun output second => h _ output (.direct hfirst second)
  obtain ⟨f, hread⟩ := (Outcome.exists_read_eq_error_iff _ directory timeout
    (Comparison.direct.listing base head)).mpr hsecond
  have hlist := changedFiles_of_none directory timeout [] base head hfirst
  rw [List.length_nil, Nat.zero_add, hread] at hlist
  exact ⟨f, hread, hlist⟩

/-- If one of the two lists can be had, the changes are those files, each with what the one command
for its differences prints. That command compares with the point of parting, whichever list it was,
and where it fails there are no differences. If neither list can be had, the answer is the fault of
the second attempt. -/
theorem changes_run (select : List String → List String) :
    (∀ k output, Lists script k output →
      (client directory timeout).changes base head select (start script) =
        (.ok (((select (namesIn output)).zipIdx k.attempts.length).map fun (file, n) =>
            (file, (outcomeAt script n).text?.getD "")),
          after script (k.attempts.map (·.listing base head) ++
            (select (namesIn output)).map (Comparison.parting.differences base head)))) ∧
    ((∀ k output, ¬ Lists script k output) → ∃ f,
      (outcomeAt script 1).read directory timeout (Comparison.direct.listing base head) = .error f ∧
        (client directory timeout).changes base head select (start script) =
          (.error f, after script (Comparison.direct.attempts.map (·.listing base head)))) := by
  constructor
  · intro k output h
    have hlist := changedFiles_of_lists directory timeout script base head h
    have hdiffs := fileDiffs_after directory timeout script (k.attempts.map (·.listing base head))
      base head (select (namesIn output))
    rw [List.length_map] at hdiffs
    exact (bind_of_eq hlist).trans (bind_of_eq hdiffs)
  · intro h
    obtain ⟨f, hread, hlist⟩ := changedFiles_of_not_lists directory timeout script base head h
    exact ⟨f, hread, bind_of_eq hlist⟩

/-- Two versions that have no point of parting, and differ in one file. -/
def unpartedScript : List Outcome :=
  [.ended [] (Text.Utf8.encode "fatal: main...HEAD: no merge base") 128,
    .ended (Text.Utf8.encode "a.go\n") [] 0,
    .ended [] (Text.Utf8.encode "fatal: main...HEAD: no merge base") 128,
    .ended (Text.Utf8.encode "+os.Getenv(\"A\")\n") [] 0]

/-- The file is listed, and the command that would print its differences is not tried. -/
theorem changes_run_unparted : Lists unpartedScript .direct "a.go\n" ∧
    (client ⟨"/", ["api"]⟩ defaultTimeout).changes "main" "HEAD" id (start unpartedScript) =
      (.ok [("a.go", "")],
        after unpartedScript [["git", "diff", "--name-only", "main...HEAD"],
          ["git", "diff", "--name-only", "main", "HEAD"],
          ["git", "diff", "-U3", "main...HEAD", "--", "a.go"]]) := by
  have hprinted : (outcomeAt unpartedScript 1).text? = some "a.go\n" := by decide +kernel
  have hlists : Lists unpartedScript .direct "a.go\n" := .direct rfl hprinted
  have hnames : namesIn "a.go\n" = ["a.go"] := by decide +kernel
  refine ⟨hlists, ((changes_run ⟨"/", ["api"]⟩ defaultTimeout unpartedScript "main" "HEAD" id).1
    .direct _ hlists).trans ?_⟩
  rw [hnames]
  rfl

end Session

end Ripple.Git
