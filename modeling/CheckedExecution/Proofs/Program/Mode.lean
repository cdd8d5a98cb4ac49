import CheckedExecution.Proofs.Program.Seen
import CheckedExecution.Proofs.Settings.Search
import CheckedExecution.Proofs.Text.Utf8

/-!
# The mode that a command runs under

An invocation first loads its settings and then installs a supervisor. Neither shows anything, and
the session is the same until the supervisor is in place. So a run of the program is either a
failure of loading, reported and otherwise without a trace, or the command under the supervisor of
the decided mode (`runsUnder_of_found`). The main theorem, `layers_decide_mode`, says which of the
two it is, for every command line that asks for a command.
-/

namespace CheckedExecution

/-- The failure that an invocation reports of the settings of its file. -/
def Failure.ofSource : Option String → SettingsError → Failure
  | some text, cause => unloadable text cause
  | none, cause => settings cause

namespace Program

variable {p : Session}

/-- Loading settings shows nothing and leaves the session. -/
theorem seen_loadSettings (path? : Option String) (p : Session) :
    seen (loadSettings path?) p =
      pure ((Settings.ofSource p.buildDefault p.files p.current path?).mapError
        (Failure.ofSource path?), p) := by
  refine (seen_bind_of_ok (seen_get p) _).trans ?_
  cases path? with
  | some text =>
      have hfile := Settings.unlogged_loadFile p.buildDefault p.files p.current
        (Path.ofText text) text
      exact (seen_bind_of_ok (seen_lift_of_unlogged hfile p) _).trans (seen_orFail _ _ p)
  | none =>
      have hnearest := Settings.unlogged_loadDirectory p.buildDefault p.files p.current
        (Path.ofNames p.current)
      exact (seen_bind_of_ok (seen_lift_of_unlogged hnearest p) _).trans (seen_orFail _ _ p)

/-- Settings that cannot be had fail the invocation, whatever else it asks for. -/
theorem seen_effectiveSettings_of_error {i : Invocation} {cause : SettingsError}
    (h : Settings.Found p.files p.current i.settingsPath? (.error cause)) :
    seen (effectiveSettings i) p = pure (.error (.ofSource i.settingsPath? cause), p) := by
  have hload := seen_loadSettings i.settingsPath? p
  rw [Settings.ofSource_of_found h] at hload
  exact seen_bind_of_error hload _

/-- Settings that can be had are those of the decided mode. -/
theorem seen_effectiveSettings_of_ok {i : Invocation} {file : Option PanicMode}
    (h : Settings.Found p.files p.current i.settingsPath? (.ok file)) :
    seen (effectiveSettings i) p = pure (.ok ⟨Settings.decidedMode p.buildDefault
      (Settings.layers i.proceeds p.variableBytes file)⟩, p) := by
  have hload := seen_loadSettings i.settingsPath? p
  rw [Settings.ofSource_of_found h] at hload
  have hvariable := Session.unlogged_applyVariable ⟨file.getD p.buildDefault⟩
    (Settings.variableText? p.variableBytes)
  rw [← Settings.override_eq_decidedMode]
  refine (seen_bind_of_ok hload _).trans ?_
  refine (seen_bind_of_ok (seen_get p) _).trans ?_
  exact seen_bind_of_ok (seen_lift_of_unlogged hvariable p) _

/-- In a session without a supervisor the installation succeeds. -/
theorem seen_installSupervisor (h : p.supervisor? = none) (settings : Settings) :
    seen (installSupervisor settings) p =
      pure (.ok (), { p with supervisor? := some ⟨settings.panicMode⟩ }) := by
  have hinstall : seen (lift (Session.install settings)) p =
      pure (.ok true, { p with supervisor? := some ⟨settings.panicMode⟩ }) := by
    have hpins : (Session.Use.installs settings).pins = true := rfl
    rw [seen_lift, Session.unlogged_install, Session.after_of_pins h hpins, h]
    rfl
  refine (seen_bind_of_ok (seen_lift_of_unlogged rfl p) _).trans ?_
  exact seen_bind_of_ok hinstall _

/-- Once the mode is decided, what is seen of an invocation is its command under the supervisor of
that mode. -/
theorem seen_invoke_of_ok {i : Invocation} {file : Option PanicMode} (hnone : p.supervisor? = none)
    (h : Settings.Found p.files p.current i.settingsPath? (.ok file)) (arguments : List String) :
    let mode := Settings.decidedMode p.buildDefault
      (Settings.layers i.proceeds p.variableBytes file)
    seen (invoke arguments i) p =
      seen (carryOut arguments ⟨mode⟩ i.command) { p with supervisor? := some ⟨mode⟩ } := by
  intro mode
  refine (seen_bind_of_ok (seen_effectiveSettings_of_ok h) _).trans ?_
  exact seen_bind_of_ok (seen_installSupervisor hnone ⟨mode⟩) _

/-- Without settings nothing is seen of an invocation but its failure. -/
theorem seen_invoke_of_error {i : Invocation} {cause : SettingsError}
    (h : Settings.Found p.files p.current i.settingsPath? (.error cause))
    (arguments : List String) :
    seen (invoke arguments i) p = pure (.error (.ofSource i.settingsPath? cause), p) :=
  seen_bind_of_error (seen_effectiveSettings_of_error h) _

/-- The words after the program's name ask for an invocation. -/
theorem program_of_invocation [Wording] {arguments : List String} {i : Invocation}
    (h : Request.ofWords (arguments.drop 1) = .run i) : program arguments = invoke arguments i := by
  rw [program, h]

/-- The program runs like the command alone in a session whose supervisor has the mode. -/
def RunsUnder [Wording] (mode : PanicMode) (raw : List (List UInt8)) (command : Command)
    (start : Session) : Prop :=
  ((run raw).run start).unlogged =
    ((Entry.run (Entry.decodeArguments raw) fun arguments =>
      (carryOut arguments ⟨mode⟩ command).run).run
        { start with supervisor? := some ⟨mode⟩ }).unlogged

/-- What is seen of the program under a mode is what is seen of the command. -/
theorem runsUnder_iff [Wording] {mode : PanicMode} {raw : List (List UInt8)} {command : Command} :
    RunsUnder mode raw command p ↔
      ((run raw).run p).unlogged =
        seenRun (carryOut (Entry.decodeArguments raw) ⟨mode⟩ command)
          { p with supervisor? := some ⟨mode⟩ } := by
  rw [RunsUnder, unlogged_entry, Entry.collect_list]

/-- With settings to be had, the program runs under the mode of the first layer that says one. -/
theorem runsUnder_of_found [Wording] {raw : List (List UInt8)} {i : Invocation}
    {file : Option PanicMode}
    (hwords : Request.ofWords ((Entry.decodeArguments raw).drop 1) = .run i)
    (hnone : p.supervisor? = none)
    (hfound : Settings.Found p.files p.current i.settingsPath? (.ok file)) :
    RunsUnder (Settings.decidedMode p.buildDefault
      (Settings.layers i.proceeds p.variableBytes file)) raw i.command p := by
  rw [runsUnder_iff, unlogged_run, program_of_invocation hwords, seenRun,
    seen_invoke_of_ok hnone hfound]
  rfl

/-- The mode that a command is carried out under is that of the first layer that says one: the
option of the command line, the variable of the environment, the file of settings that is named or
found nearest, and at last the build. Where that file cannot be had the run is its report on one
line, with the code of an error, in the session that it began with, whatever the other layers say.
In all other cases the run is that of the command, in a session whose supervisor has the decided
mode: a process at its start never fails to install it. -/
theorem layers_decide_mode [Wording] (buildDefault : PanicMode)
    (variableBytes : Option (List UInt8)) (files : FileSystem) (current : Location)
    (raw : List (List UInt8)) (i : Invocation)
    (h : Request.ofWords ((Entry.decodeArguments raw).drop 1) = .run i) :
    let start := Session.fresh buildDefault variableBytes files current
    let execution := (run raw).run start
    (∃! found, Settings.Found files current i.settingsPath? found) ∧
    (∀ cause, Settings.Found files current i.settingsPath? (.error cause) →
      (∃ code, execution.value? = some (code, start) ∧ code.toInt = 1) ∧
      execution.diagnostics =
        ["Runtime error: " ++ (Failure.ofSource i.settingsPath? cause).message] ∧
      execution.outputs = []) ∧
    (∀ file, Settings.Found files current i.settingsPath? (.ok file) →
      RunsUnder (Settings.decidedMode buildDefault
        (Settings.layers i.proceeds variableBytes file)) raw i.command start) ∧
    (∀ settings : Settings, ((installSupervisor settings).run.run start).unlogged =
      pure (.ok (), { start with supervisor? := some ⟨settings.panicMode⟩ })) ∧
    (∀ text mode, Settings.modeOfVariable? text = some mode ↔
      ∃ left word right, Text.IsBlank left ∧ Text.IsBlank right ∧
        text.toList = left ++ word ++ right ∧
        String.ofList (Text.lower word) ∈ Settings.variableWords mode) := by
  intro start execution
  refine ⟨?_, fun cause hfound => ?_, fun file hfound => runsUnder_of_found h rfl hfound,
    fun settings => seen_installSupervisor (p := start) rfl settings,
    fun text mode => Settings.modeOfVariable?_eq_some_iff⟩
  · obtain ⟨found, hfound⟩ := Settings.exists_found files current i.settingsPath?
    exact ⟨found, hfound, fun other hother => hother.unique hfound⟩
  · have hseen := seen_invoke_of_error (p := start) hfound (Entry.decodeArguments raw)
    have hrun : execution.unlogged = seenRun (invoke (Entry.decodeArguments raw) i) start := by
      rw [← program_of_invocation h]
      exact unlogged_run raw start
    rw [seenRun_of_error hseen] at hrun
    refine ⟨⟨Entry.errorCode, congrArg Execution.value? hrun, rfl⟩, ?_, ?_⟩
    · rw [← Execution.diagnostics_unlogged, hrun]
      rfl
    · rw [← Execution.outputs_unlogged, hrun]
      rfl

/-- The variable counts more than the nearest file, which is not that of the current directory. -/
theorem variable_overrides_nearest_file :
    let _ : Wording := .silent
    let raw := ["tern", "arith", "add", "i8", "127", "1"].map Utf8.encode
    let i : Invocation := ⟨false, none, .arith .add .i8 "127" "1"⟩
    let files : FileSystem := ⟨[(["work"], .directory), (["work", "sub"], .directory),
      (["work", "tern-runtime.json"], .file (Utf8.encode "[\"continue\"]")),
      (["tern-runtime.json"], .directory)]⟩
    Request.ofWords ((Entry.decodeArguments raw).drop 1) = .run i ∧
    Settings.Found files ["work", "sub"] i.settingsPath? (.ok (some .proceed)) ∧
    ((run raw).run (Session.fresh .proceed (some (Utf8.encode "\u3000oFF\n")) files
      ["work", "sub"])).unlogged =
        ⟨[.diagnostic "Panic: Overflow in checked addition '127 + 1'"], none⟩ := by
  intro _ raw i files
  have hwords : Request.ofWords ((Entry.decodeArguments raw).drop 1) = .run i := by
    decide +kernel
  have hstands : files.Stands (["work"] ++ [Settings.fileName])
      (.file (Utf8.encode "[\"continue\"]")) := by
    decide +kernel
  have hnearest : Settings.Nearest files ["work", "sub"] ["work"] := by
    refine ⟨by decide, ⟨_, hstands⟩, fun deeper hdeeper hlength entry hentry => ?_⟩
    have heq : deeper = ["work", "sub"] := hdeeper.eq_of_length_le hlength
    subst heq
    exact nomatch hentry.lookup_eq
  have hholds : Settings.Holds (.ok (Utf8.encode "[\"continue\"]")) (.ok (some .proceed)) :=
    .text (Utf8.decode?_encode _) fun buildDefault => by cases buildDefault <;> decide +kernel
  have hfound := Settings.Found.nearest hnearest hstands hholds
  refine ⟨hwords, hfound, ?_⟩
  refine ((layers_decide_mode _ _ files ["work", "sub"] raw i hwords).2.2.1 _ hfound).trans ?_
  decide +kernel

end Program

end CheckedExecution
