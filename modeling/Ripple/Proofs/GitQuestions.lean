import Ripple.Proofs.FileDifferences

/-! # What questions to git start, and how they end

A sequence of questions to one client works off a script of outcomes. Each question takes from it
exactly the outcomes of the commands that it tries, so the account of one question fixes where the
next one goes on. A question about the working tree tries none, the list of changed files may try
two, every other question one. Processes are killed if they hang, and only then.
-/
namespace Ripple.Git

def Outcome.Fails : Outcome → Prop
  | .ended _ _ code => code ≠ 0
  | .hung => True
  | .notStarted _ => True

def Outcome.starts : Outcome → Bool
  | .notStarted _ => false
  | _ => true

namespace Outcome

theorem text?_eq_none_iff (o : Outcome) : o.text? = none ↔ o.Fails := by
  cases o with
  | ended output errors code => by_cases hcode : code = 0 <;> simp [text?, Fails, hcode]
  | hung => simp [text?, Fails]
  | notStarted why => simp [text?, Fails]

theorem not_fails_iff (o : Outcome) : ¬ o.Fails ↔ ∃ output, o.text? = some output := by
  rw [← text?_eq_none_iff]
  exact Option.ne_none_iff_exists'

/-- Nothing is read only where nothing was printed. -/
theorem text?_eq_empty_iff (o : Outcome) :
    o.text? = some "" ↔ ∃ errors, o = .ended [] errors 0 := by
  cases o with
  | ended output errors code =>
    have hdecoded : decoded output = "" ↔ output = [] := by
      rw [decoded, ← String.toList_eq_nil_iff, String.toList_ofList]
      cases output with
      | nil => exact iff_of_true rfl rfl
      | cons b rest =>
        simp only [Text.Utf8.decodeLossy, List.length_cons, Text.Utf8.decodeLossyFrom, reduceCtorEq,
          iff_false]
        split <;> simp
    by_cases hcode : code = 0 <;> simp [text?, hcode, hdecoded]
  | hung => simp [text?]
  | notStarted why => simp [text?]

variable {o : Outcome} {directory : Path} {timeout : String} {command : List String}

/-- A fault says where it happened and what was tried. -/
theorem fault_of_read {f : Fault} (h : o.read directory timeout command = .error f) :
    f.directory = directory.toString ∧ f.command = command := by
  cases o with
  | ended output errors code =>
    simp only [read] at h
    split at h
    · cases h
    · rw [← Except.error.inj h]
      exact ⟨rfl, rfl⟩
  | hung =>
    rw [← Except.error.inj h]
    exact ⟨rfl, rfl⟩
  | notStarted why =>
    rw [← Except.error.inj h]
    exact ⟨rfl, rfl⟩

theorem exists_fault_iff : (∃ f, o.read directory timeout command = .error f) ↔ o.Fails :=
  (o.exists_read_eq_error_iff directory timeout command).trans o.text?_eq_none_iff

/-- Processes are listed in the order in which they were started. -/
theorem flatMap_processes (outcomes : List Outcome) :
    outcomes.flatMap processes = (outcomes.filter starts).map fun o => decide (o = .hung) := by
  induction outcomes with
  | nil => rfl
  | cons o rest ih =>
    rw [List.flatMap_cons, ih, List.filter_cons]
    cases o <;> simp [processes, starts]

end Outcome

/-- A question to a client. -/
inductive Question where
  | run (arguments : List String)
  | changedFiles (base head : String)
  | fileDiff (file base head : String)
  | showFile (version file : String)
  | fileText (file : String)
  deriving DecidableEq, Repr

inductive Answer where
  | output (result : Except Fault String)
  | names (result : Except Fault (List String))
  | differences (text : String)
  | version (text : Option String)
  | fileText (result : Except NameTooLong (Option String))

def Client.ask {m : Type → Type} [Monad m] (c : Client m) (files : FileTree) :
    Question → m Answer
  | .run arguments => return .output (← c.run arguments)
  | .changedFiles base head => return .names (← c.changedFiles base head)
  | .fileDiff file base head => return .differences (← c.fileDiff file base head)
  | .showFile version file => return .version (← c.showFile version file)
  | .fileText file => return .fileText (c.fileText files file)

namespace Session

variable (directory : Path) (timeout : String) (files : FileTree) (script : List Outcome)

/-- What becomes of a question before which some number of commands were tried: the commands that it
tries itself, and its answer. -/
inductive Accounts (n : Nat) : Question → List (List String) → Answer → Prop
  | run {arguments : List String} {result : Except Fault String}
      (fails : (∃ f, result = .error f) ↔ (outcomeAt script n).Fails)
      (fault : ∀ f, result = .error f →
        f.directory = directory.toString ∧ f.command = "git" :: arguments)
      (printed : ∀ output, result = .ok output ↔ (outcomeAt script n).text? = some output) :
      Accounts n (.run arguments) ["git" :: arguments] (.output result)
  | changedFiles {base head : String} {tried : List (List String)}
      {result : Except Fault (List String)}
      (once : ¬ (outcomeAt script n).Fails → tried = [Comparison.parting.listing base head])
      (twice : (outcomeAt script n).Fails →
        tried = [Comparison.parting.listing base head, Comparison.direct.listing base head])
      (fails : (∃ f, result = .error f) ↔
        (outcomeAt script n).Fails ∧ (outcomeAt script (n + 1)).Fails)
      (fault : ∀ f, result = .error f →
        (outcomeAt script (n + 1)).read directory timeout (Comparison.direct.listing base head) =
          .error f) :
      Accounts n (.changedFiles base head) tried (.names result)
  /-- Nothing is answered where nothing was printed, too. -/
  | fileDiff {file base head text : String}
      (empty : text = "" ↔
        (outcomeAt script n).Fails ∨ ∃ errors, outcomeAt script n = .ended [] errors 0)
      (printed : ∀ output, (outcomeAt script n).text? = some output → text = output) :
      Accounts n (.fileDiff file base head) [Comparison.parting.differences base head file]
        (.differences text)
  | showFile {version file : String} {text : Option String}
      (missing : text = none ↔ (outcomeAt script n).Fails)
      (printed : ∀ output, (outcomeAt script n).text? = some output → text = some output) :
      Accounts n (.showFile version file) [["git", "show", version ++ ":" ++ file]] (.version text)
  | fileText {file : String} :
      Accounts n (.fileText file) [] (.fileText ((client directory timeout).fileText files file))

/-- The account of a sequence of questions, each with the commands that it tries and its answer. -/
inductive Ledger : Nat → List Question → List (List (List String) × Answer) → Prop
  | nil {n : Nat} : Ledger n [] []
  | cons {n : Nat} {question : Question} {questions : List Question} {tried : List (List String)}
      {answer : Answer} {entries : List (List (List String) × Answer)}
      (first : Accounts directory timeout files script n question tried answer)
      (others : Ledger (n + tried.length) questions entries) :
      Ledger n (question :: questions) ((tried, answer) :: entries)

variable (commands : List (List String))

theorem ask_run (arguments : List String) : ∃ answer,
    Accounts directory timeout files script commands.length (.run arguments)
        ["git" :: arguments] answer ∧
      (client directory timeout).ask files (.run arguments) (after script commands) =
        (answer, after script (commands ++ ["git" :: arguments])) :=
  ⟨_, .run Outcome.exists_fault_iff (fun _ h => Outcome.fault_of_read h)
    (Outcome.read_eq_ok_iff _ _ _ _), bind_of_eq (run_after ..)⟩

theorem ask_changedFiles (base head : String) : ∃ tried answer,
    Accounts directory timeout files script commands.length (.changedFiles base head)
        tried answer ∧
      (client directory timeout).ask files (.changedFiles base head) (after script commands) =
        (answer, after script (commands ++ tried)) := by
  cases htext : (outcomeAt script commands.length).text? with
  | some output =>
    have hends : ¬ (outcomeAt script commands.length).Fails :=
      (Outcome.not_fails_iff _).mpr ⟨output, htext⟩
    refine ⟨_, _, .changedFiles (fun _ => rfl) (fun h => absurd h hends) ?_ ?_,
      bind_of_eq (changedFiles_of_text directory timeout commands base head htext)⟩
    · exact iff_of_false (by simp) fun h => hends h.1
    · simp
  | none =>
    have hfails : (outcomeAt script commands.length).Fails :=
      (Outcome.text?_eq_none_iff _).mp htext
    refine ⟨_, _, .changedFiles (fun h => absurd hfails h) (fun _ => rfl) ?_ ?_,
      bind_of_eq (changedFiles_of_none directory timeout commands base head htext)⟩
    · simp only [Ripple.Outcome.map_eq_error_iff, Outcome.exists_fault_iff, hfails, true_and]
    · exact fun f h => Ripple.Outcome.map_eq_error_iff.mp h

theorem ask_fileDiff (file base head : String) : ∃ answer,
    Accounts directory timeout files script commands.length (.fileDiff file base head)
        [Comparison.parting.differences base head file] answer ∧
      (client directory timeout).ask files (.fileDiff file base head) (after script commands) =
        (answer, after script (commands ++ [Comparison.parting.differences base head file])) := by
  refine ⟨_, .fileDiff ?_ fun output h => by rw [h, Option.getD_some],
    bind_of_eq (fileDiff_after directory timeout script commands base head file)⟩
  rw [← Outcome.text?_eq_none_iff, ← Outcome.text?_eq_empty_iff]
  cases (outcomeAt script commands.length).text? <;> simp

theorem ask_showFile (version file : String) : ∃ answer,
    Accounts directory timeout files script commands.length (.showFile version file)
        [["git", "show", version ++ ":" ++ file]] answer ∧
      (client directory timeout).ask files (.showFile version file) (after script commands) =
        (answer, after script (commands ++ [["git", "show", version ++ ":" ++ file]])) := by
  cases htext : (outcomeAt script commands.length).text? with
  | some output =>
    have hrun := run_of_text directory timeout commands htext ["show", version ++ ":" ++ file]
    refine ⟨.version (some output), .showFile ?_ fun _ h => htext.symm.trans h,
      bind_of_eq (bind_of_eq hrun)⟩
    rw [← Outcome.text?_eq_none_iff, htext]
  | none =>
    obtain ⟨f, -, hrun⟩ := run_of_none directory timeout commands htext
      ["show", version ++ ":" ++ file]
    refine ⟨.version none, .showFile ?_ fun _ h => htext.symm.trans h,
      bind_of_eq (bind_of_eq hrun)⟩
    rw [← Outcome.text?_eq_none_iff, htext]

/-- A question takes from the script the outcomes of the commands that it tries. -/
theorem ask_accounts (question : Question) : ∃ tried answer,
    Accounts directory timeout files script commands.length question tried answer ∧
      (client directory timeout).ask files question (after script commands) =
        (answer, after script (commands ++ tried)) := by
  cases question with
  | run arguments => exact ⟨_, ask_run directory timeout files script commands arguments⟩
  | changedFiles base head =>
    exact ask_changedFiles directory timeout files script commands base head
  | fileDiff file base head =>
    exact ⟨_, ask_fileDiff directory timeout files script commands file base head⟩
  | showFile version file =>
    exact ⟨_, ask_showFile directory timeout files script commands version file⟩
  | fileText file => exact ⟨[], _, .fileText, by rw [List.append_nil]; rfl⟩

theorem mapM_ask_after (questions : List Question) : ∃ entries,
    Ledger directory timeout files script commands.length questions entries ∧
      (questions.mapM ((client directory timeout).ask files)) (after script commands) =
        (entries.map (·.2), after script (commands ++ entries.flatMap (·.1))) := by
  -- the commands tried before vary, since each question goes on where the one before it ended
  induction questions generalizing commands with
  | nil => exact ⟨[], .nil, by rw [List.flatMap_nil, List.append_nil]; rfl⟩
  | cons question rest ih =>
    obtain ⟨tried, answer, hfirst, hask⟩ :=
      ask_accounts directory timeout files script commands question
    obtain ⟨entries, hothers, hrest⟩ := ih (commands ++ tried)
    rw [List.length_append] at hothers
    refine ⟨(tried, answer) :: entries, .cons hfirst hothers, ?_⟩
    rw [List.mapM_cons, bind_of_eq hask, bind_of_eq hrest, List.append_assoc]
    rfl

/-- Every sequence of questions has its account, in which each question goes on in the script where
the one before it ended. The session has tried the commands of the account and no others, has used
up one outcome for each of them, and has killed, of the processes started, those that hung. -/
theorem mapM_ask_accounts (questions : List Question) : ∃ entries session,
    Ledger directory timeout files script 0 questions entries ∧
      (questions.mapM ((client directory timeout).ask files)) (start script) =
        (entries.map (·.2), session) ∧
      session.commands = entries.flatMap (·.1) ∧
      session.script = script.drop session.commands.length ∧
      session.killed = ((script.take session.commands.length).filter Outcome.starts).map
        fun o => decide (o = .hung) := by
  obtain ⟨entries, hledger, hask⟩ := mapM_ask_after directory timeout files script [] questions
  have hstart : after script [] = start script := rfl
  rw [List.nil_append, hstart] at hask
  exact ⟨entries, _, hledger, hask, rfl, rfl, Outcome.flatMap_processes _⟩

/-- No differences are answered also where a process that ended well printed none. -/
theorem not_fails_of_fileDiff_empty :
    ((client ⟨"/", ["api"]⟩ defaultTimeout).fileDiff "a.go" "main" "HEAD"
        (start [.ended [] [] 0])).1 = "" ∧
      ¬ (outcomeAt [.ended [] [] 0] 0).Fails :=
  ⟨rfl, fun h => h rfl⟩

end Session

end Ripple.Git
