import Ripple.Proofs.Loading

/-! # The command that checks a configuration file

Programs are run on a console, step by step. The command ends with a code exactly if loading does
not slip and every repository's path can be looked up.
-/
namespace Ripple.Command

variable {α β : Type}

theorem run_bind_of_ok {p : Program α} {f : α → Program β} {a : α} {c next : Console}
    (h : p.run c = (.ok a, next)) : (p >>= f).run c = (f a).run next := by
  rw [ExceptT.run_bind]
  simp only [bind, StateT.bind, h]

theorem run_bind_of_error {p : Program α} {f : α → Program β} {stop : Stop} {c next : Console}
    (h : p.run c = (.error stop, next)) : (p >>= f).run c = (.error stop, next) := by
  rw [ExceptT.run_bind]
  simp only [bind, StateT.bind, h]
  rfl

theorem run_say (line : String) (c : Console) :
    (say line).run c = (.ok (), { c with output := c.output ++ line ++ "\n" }) := rfl

theorem run_complain (line : String) (c : Console) :
    (complain line).run c = (.ok (), { c with errors := c.errors ++ line ++ "\n" }) := rfl

def printed (before : String) (lines : List String) : String :=
  lines.foldl (fun text line => text ++ line ++ "\n") before

theorem run_forM_complain (lines : List String) (c : Console) :
    (lines.forM complain).run c = (.ok (), { c with errors := printed c.errors lines }) := by
  induction lines generalizing c with
  | nil => rfl
  | cons line rest ih =>
    change (complain line >>= fun _ => rest.forM complain).run c = _
    rw [run_bind_of_ok (run_complain line c), ih]
    rfl

def announcement (f : Config.LoadFault) : List String :=
  match f with
  | .invalid _ complaints =>
    ("Config validation failed: " ++ f.message) :: complaints.map ("  - " ++ ·)
  | _ => ["Failed to load config: " ++ f.message]

variable {w : World} {p : Path} {f : Config.LoadFault} {c : Console}

theorem run_loadConfig_of_ok {config : Config}
    (h : Config.load w.homes w.environment w.host.files p = .ok config) :
    (loadConfig w p).run c = (.ok config, c) := by
  rw [loadConfig, h]
  rfl

theorem run_loadConfig_of_announced
    (h : Config.load w.homes w.environment w.host.files p = .error f) (hannounced : f.Announced) :
    (loadConfig w p).run c =
      (.error (.exit 1), { c with errors := printed c.errors (announcement f) }) := by
  rw [loadConfig, h]
  dsimp only
  split
  · next path complaints =>
    have hlines : (complaints.forM fun line => complain ("  - " ++ line)) =
        (complaints.map ("  - " ++ ·)).forM complain := List.forM_map.symm
    rw [run_bind_of_ok (run_complain _ c), hlines, run_bind_of_ok (run_forM_complain _ _)]
    rfl
  · next hinvalid =>
    rcases hannounced with hcontent | ⟨path, complaints, rfl⟩
    · have hline : announcement f = ["Failed to load config: " ++ f.message] := by
        rw [announcement]
        exact hinvalid
      rw [if_pos hcontent, run_bind_of_ok (run_complain _ c), hline]
      rfl
    · exact absurd rfl (hinvalid path complaints)

theorem run_loadConfig_of_not_announced
    (h : Config.load w.homes w.environment w.host.files p = .error f) (hslips : ¬ f.Announced) :
    (loadConfig w p).run c = (.error (.crash (.load f)), c) := by
  rw [Config.LoadFault.Announced, not_or, not_exists] at hslips
  obtain ⟨hcontent, hinvalid⟩ := hslips
  rw [loadConfig, h]
  dsimp only
  split
  · exact absurd ⟨_, rfl⟩ (hinvalid _)
  · rw [if_neg hcontent]
    rfl

def lookFor (files : FileTree) (repo : Repository) : Program Unit := do
  if ← orCrash .path (files.exists? repo.path) then
    say ("  [OK] Repository '" ++ repo.name ++ "' at " ++ repo.path.toString)
  else say ("  [WARN] Repository '" ++ repo.name ++ "' path not found: " ++ repo.path.toString)

theorem run_lookFor_of_ok {files : FileTree} {repo : Repository} {there : Bool}
    (h : files.exists? repo.path = .ok there) :
    ∃ next, (lookFor files repo).run c = (.ok (), next) := by
  rw [lookFor, h]
  cases there with
  | true => exact ⟨_, rfl⟩
  | false => exact ⟨_, rfl⟩

theorem run_lookFor_of_error {files : FileTree} {repo : Repository} {fault : NameTooLong}
    (h : files.exists? repo.path = .error fault) :
    (lookFor files repo).run c = (.error (.crash (.path fault)), c) := by
  rw [lookFor, h]
  rfl

/-- The search ends at the first repository whose path cannot be looked up. -/
theorem run_forM_lookFor (files : FileTree) (repos : List Repository) (c : Console) :
    (∀ repo ∈ repos, ∃ there, files.exists? repo.path = .ok there) ∧
        (∃ next, (repos.forM (lookFor files)).run c = (.ok (), next)) ∨
      (∃ repo ∈ repos, ∃ fault, files.exists? repo.path = .error fault) ∧
        ∃ fault next,
          (repos.forM (lookFor files)).run c = (.error (.crash (.path fault)), next) := by
  induction repos generalizing c with
  | nil => exact .inl ⟨by simp, c, rfl⟩
  | cons repo rest ih =>
    cases hrepo : files.exists? repo.path with
    | error fault =>
      exact .inr ⟨⟨repo, List.mem_cons_self, fault, hrepo⟩, fault, c,
        run_bind_of_error (run_lookFor_of_error hrepo)⟩
    | ok there =>
      obtain ⟨next, hnext⟩ := run_lookFor_of_ok (c := c) hrepo
      rcases ih next with ⟨hrest, last, hlast⟩ | ⟨⟨other, hother, hfault⟩, fault, last, hlast⟩
      · refine .inl ⟨List.forall_mem_cons.mpr ⟨⟨there, hrepo⟩, hrest⟩, last, ?_⟩
        exact (run_bind_of_ok hnext).trans hlast
      · refine .inr ⟨⟨other, List.mem_cons_of_mem repo hother, hfault⟩, fault, last, ?_⟩
        exact (run_bind_of_ok hnext).trans hlast

/-- What the command says about a configuration. -/
def report (files : FileTree) (p : Path) (config : Config) : Program Unit := do
  say ("Config is valid: " ++ p.toString)
  say ("  Repositories: " ++ toString config.repos.length)
  say ("  Relations: " ++ toString config.relations.length)
  config.repos.forM (lookFor files)

theorem run_report (files : FileTree) (p : Path) (config : Config) (c : Console) :
    (∀ repo ∈ config.repos, ∃ there, files.exists? repo.path = .ok there) ∧
        (∃ next, (report files p config).run c = (.ok (), next)) ∨
      (∃ repo ∈ config.repos, ∃ fault, files.exists? repo.path = .error fault) ∧
        ∃ fault next, (report files p config).run c = (.error (.crash (.path fault)), next) := by
  rw [report, run_bind_of_ok (run_say _ _), run_bind_of_ok (run_say _ _),
    run_bind_of_ok (run_say _ _)]
  exact run_forM_lookFor files config.repos _

theorem outcome_of_ok {program : Program Unit} {files : FileTree} {c : Console}
    (h : program.run ⟨"", "", files⟩ = (.ok (), c)) :
    program.outcome files = ⟨0, c.output, c.errors, c.files, none⟩ := by
  rw [Program.outcome, h]

theorem outcome_of_exit {program : Program Unit} {files : FileTree} {c : Console} {code : Nat}
    (h : program.run ⟨"", "", files⟩ = (.error (.exit code), c)) :
    program.outcome files = ⟨code, c.output, c.errors, c.files, none⟩ := by
  rw [Program.outcome, h]

theorem outcome_of_crash {program : Program Unit} {files : FileTree} {c : Console} {crash : Crash}
    (h : program.run ⟨"", "", files⟩ = (.error (.crash crash), c)) :
    program.outcome files = ⟨1, c.output, c.errors, c.files, some crash⟩ := by
  rw [Program.outcome, h]

theorem runMain_validate (w : World) (s : String) :
    runMain w ["validate", "--config", s] = validate w ⟨[(configOption, s)], []⟩ := by
  have hmain : argumentsOf mainForms false ["validate", "--config", s] =
      .ok ⟨[], ["validate", "--config", s]⟩ := rfl
  have hname : Name.all.find? (·.text = "validate") = some .validate := rfl
  have harguments : argumentsOf Name.validate.forms true ["--config", s] =
      .ok ⟨[(configOption, s)], []⟩ := rfl
  rw [runMain, hmain]
  simp only [List.isEmpty_cons, hname]
  rw [runNamed, harguments]
  rfl

/-- The command loads the file that it is given and then looks for the repositories. -/
theorem runMain_validate_eq (w : World) (s : String) :
    runMain w ["validate", "--config", s] =
      (loadConfig w (Path.ofString s) >>= report w.host.files (Path.ofString s)) := by
  have hvalue : (⟨[(configOption, s)], []⟩ : Arguments).value? "--config" = some s := rfl
  have hpath : resolveConfig w (some s) = pure (Path.ofString s) := rfl
  rw [runMain_validate, validate, hvalue, hpath, pure_bind]
  rfl

/-- The configuration in a file that a command is given. -/
def World.load (w : World) (s : String) : Except Config.LoadFault Config :=
  Config.load w.homes w.environment w.host.files (Path.ofString s)

/-- How the command that checks a configuration file ends. -/
def World.validated (w : World) (s : String) : Outcome := run w ["validate", "--config", s]

/-- Loading a file and checking it with the command come to one of four ends. -/
structure LoadContract (w : World) (s : String) : Prop where
  /-- Loading ends with a fault that is not announced for one of the known reasons only. -/
  slips_iff : Config.Slips (w.load s) ↔
    Config.Escapes w.homes w.environment w.host.files (Path.ofString s)
  /-- The command prints a fault that it announces, and ends with a code. -/
  announced : ∀ f, w.load s = .error f → f.Announced → (w.validated s).code = 1 ∧
    (w.validated s).crash = none ∧ (w.validated s).errors = printed "" (announcement f)
  /-- Any other fault of loading ends the command. -/
  slipped : ∀ f, w.load s = .error f → ¬ f.Announced → (w.validated s).code = 1 ∧
    (w.validated s).crash = some (.load f)
  /-- A configuration whose repositories can all be looked for is valid. -/
  found : ∀ c, w.load s = .ok c →
    (∀ repo ∈ c.repos, ∃ there, w.host.files.exists? repo.path = .ok there) →
    (w.validated s).code = 0 ∧ (w.validated s).crash = none
  /-- A repository whose path cannot be looked up ends the command. -/
  lost : ∀ c, w.load s = .ok c →
    (∃ repo ∈ c.repos, ∃ fault, w.host.files.exists? repo.path = .error fault) →
    (w.validated s).code = 1 ∧ ∃ fault, (w.validated s).crash = some (.path fault)

end Ripple.Command
