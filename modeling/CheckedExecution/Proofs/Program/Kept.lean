import CheckedExecution.Proofs.Files.Locations
import CheckedExecution.Proofs.Program.Seen
import Mathlib.Logic.Relation

/-!
# What a run leaves of the files

The program writes one file, and only where nothing exists. So whatever stands in the file system
before one of its actions stands there afterwards (`Keeps`). This is passed on from the parts of an
action to the whole, and so it holds of all that the program does (`keeps_program`), whatever its
arguments and its session. From one run it goes on to any number of runs, by any builds in any
directories (`extends_of_runs`).
-/

namespace CheckedExecution.Program

variable {α β : Type}

/-- Everything that stands in the file system before the action stands there after it. -/
def Keeps (x : Action α) : Prop :=
  ∀ p result q, (seen x p).value? = some (result, q) → q.files.Extends p.files

/-- An action that leaves the files keeps everything. -/
theorem keeps_of_files_eq {x : Action α}
    (h : ∀ p result q, (seen x p).value? = some (result, q) → q.files = p.files) : Keeps x := by
  intro p result q hq
  rw [h p result q hq]
  exact .refl p.files

/-- An action that always leaves the session keeps everything. -/
theorem keeps_of_seen_eq {x : Action α} {events : Session → List Event}
    {result : Session → Except Failure α}
    (h : ∀ p, seen x p = ⟨events p, some (result p, p)⟩) : Keeps x := by
  refine keeps_of_files_eq fun p result q hq => ?_
  rw [h] at hq
  cases hq
  rfl

/-- Two actions that keep everything do so one after the other. -/
theorem Keeps.bind {x : Action α} {f : α → Action β} (hx : Keeps x)
    (hf : ∀ value, Keeps (f value)) : Keeps (x >>= f) := by
  intro p result r hr
  rw [seen_bind] at hr
  obtain ⟨⟨result', q⟩, hq, hnext⟩ := Execution.value?_bind_eq_some hr
  have hfirst := hx p result' q hq
  cases result' with
  | ok value => exact (hf value q result r hnext).trans hfirst
  | error failure =>
      cases hnext
      exact hfirst

/-- Doing nothing keeps everything. -/
theorem keeps_pure (value : α) : Keeps (pure value : Action α) :=
  keeps_of_seen_eq (seen_pure value)

/-- A failure keeps everything. -/
theorem keeps_throw (failure : Failure) : Keeps (throw failure : Action α) :=
  keeps_of_seen_eq (seen_throw failure)

/-- A result that may be an error keeps everything. -/
theorem keeps_orFail {ε : Type} (failure : ε → Failure) (x : Except ε α) :
    Keeps (orFail failure x) :=
  keeps_of_seen_eq (seen_orFail failure x)

/-- Looking at the session keeps everything. -/
theorem keeps_get : Keeps (lift get) :=
  keeps_of_seen_eq seen_get

/-- A line on the output stream keeps everything. -/
theorem keeps_print (line : String) : Keeps (print line) :=
  keeps_of_seen_eq (seen_print line)

/-- What happens outside of the session keeps everything. -/
theorem keeps_lift_execution (x : Execution α) : Keeps (lift (x : Session.Action α)) := by
  refine keeps_of_files_eq fun p result q hq => ?_
  rw [seen_lift_execution, Execution.value?_map] at hq
  obtain ⟨value, -, hvalue⟩ := Option.map_eq_some_iff.1 hq
  cases hvalue
  rfl

/-- A step of the session that changes no more than its supervisor keeps everything. -/
theorem keeps_lift {x : Session.Action α}
    (h : ∀ p, ∃ use : Session.Use, ∀ value q,
      (x.run p).value? = some (value, q) → q = p.after use) :
    Keeps (lift x) := by
  refine keeps_of_files_eq fun p result q hq => ?_
  rw [seen_lift, Execution.value?_map] at hq
  obtain ⟨⟨value, q'⟩, hvalue, hresult⟩ := Option.map_eq_some_iff.1 hq
  cases hresult
  obtain ⟨use, huse⟩ := h p
  rw [huse value q' hvalue, Session.after]
  split <;> rfl

/-- Installing a supervisor keeps everything. -/
theorem keeps_install (settings : Settings) : Keeps (lift (Session.install settings)) := by
  refine keeps_lift fun p => ⟨.installs settings, fun value q hq => ?_⟩
  rw [(Session.install_spec settings p).2] at hq
  cases hq
  rfl

/-- What is done through the supervisor of the session keeps everything. -/
theorem keeps_supervised (f : Supervisor → Execution α) :
    Keeps (lift (Session.supervisor >>= fun s => (f s : Session.Action α))) := by
  refine keeps_lift fun p => ⟨.asks, fun value q hq => ?_⟩
  rw [StateT.run_bind, Execution.value?_bind (Session.supervisor_spec p).2, Session.run_lift,
    Execution.value?_map] at hq
  obtain ⟨_, -, hvalue⟩ := Option.map_eq_some_iff.1 hq
  cases hvalue
  rfl

/-- Asking for the supervisor keeps everything. -/
theorem keeps_supervisor : Keeps (lift Session.supervisor) := by
  refine keeps_lift fun p => ⟨.asks, fun value q hq => ?_⟩
  rw [(Session.supervisor_spec p).2] at hq
  cases hq
  rfl

/-! ## Settling on a mode -/

/-- Loading settings keeps everything. -/
theorem keeps_loadSettings (path? : Option String) : Keeps (loadSettings path?) := by
  refine keeps_get.bind fun s => ?_
  cases path? with
  | some text => exact (keeps_lift_execution _).bind fun loaded => keeps_orFail _ loaded
  | none => exact (keeps_lift_execution _).bind fun loaded => keeps_orFail _ loaded

/-- Applying the other layers keeps everything. -/
theorem keeps_effectiveSettings (i : Invocation) : Keeps (effectiveSettings i) :=
  (keeps_loadSettings i.settingsPath?).bind fun _ => keeps_get.bind fun _ =>
    (keeps_lift_execution _).bind fun _ => keeps_pure _

/-- Installing the supervisor of the program keeps everything, be it refused. -/
theorem keeps_installSupervisor (settings : Settings) : Keeps (installSupervisor settings) := by
  refine (keeps_lift_execution _).bind fun _ => (keeps_install settings).bind fun accepted => ?_
  cases accepted with
  | true => exact keeps_pure ()
  | false =>
      refine keeps_supervisor.bind fun s => ?_
      dsimp only
      split
      · exact keeps_throw _
      · exact keeps_pure ()

/-! ## Commands -/

/-- Reading an operand keeps everything. -/
theorem keeps_literal (t : IntType) (text : String) : Keeps (literal t text) :=
  keeps_orFail _ _

/-- A checked operation keeps everything. -/
theorem keeps_arith (op : ArithmeticOp) (t : IntType) (lhs rhs : String) :
    Keeps (arith op t lhs rhs) :=
  (keeps_literal t lhs).bind fun a => (keeps_literal t rhs).bind fun b =>
    (keeps_supervised fun s => s.checked op a b).bind fun _ => keeps_pure _

/-- A cast keeps everything. -/
theorem keeps_cast (policy : CastPolicy) (source target : IntType) (text : String) :
    Keeps (cast policy source target text) := by
  refine (keeps_literal source text).bind fun value => ?_
  cases policy with
  | fallible => exact keeps_pure _
  | infallible =>
      exact (keeps_supervised fun s => s.infallibleCast target value).bind fun _ => keeps_pure _
  | saturating => exact keeps_pure _
  | truncating => exact keeps_pure _
  | attempt => exact (keeps_orFail _ _).bind fun _ => keeps_pure _

/-- What is done with one line after another keeps everything if it does so with each. -/
theorem keeps_forIn {f : String → Action Unit} (hf : ∀ line, Keeps (f line))
    (lines : List String) :
    Keeps (forIn lines PUnit.unit fun line _ => do
      f line
      return ForInStep.yield PUnit.unit) := by
  induction lines with
  | nil => exact keeps_pure PUnit.unit
  | cons line rest ih =>
      have hline : Keeps (do f line; return ForInStep.yield PUnit.unit) :=
        (hf line).bind fun _ => keeps_pure _
      rw [List.forIn_cons]
      refine hline.bind fun step => ?_
      cases step with
      | done => exact keeps_pure _
      | yield => exact ih

/-- Where there is a file of settings, none is written. -/
theorem seen_initSettings_of_exists {p : Session}
    (h : p.files.exists? p.current (.ofNames (p.current ++ [Settings.fileName])) = true)
    (settings : Settings) :
    seen (initSettings settings) p =
      pure (.error (.alreadyExists (Path.ofNames (p.current ++ [Settings.fileName])).text), p) := by
  rw [initSettings, seen_bind_of_ok (seen_get p)]
  dsimp only
  rw [Path.entry_ofNames, if_pos h]
  exact seen_bind_of_error (seen_throw _ p) _

/-- Where there is none, the settings are written and the file is named. -/
theorem seen_initSettings_of_new {p : Session}
    (h : p.files.exists? p.current (.ofNames (p.current ++ [Settings.fileName])) = false)
    (settings : Settings) :
    let path := Path.ofNames (p.current ++ [Settings.fileName])
    seen (initSettings settings) p =
      match p.files.write p.current path (Utf8.encode settings.toJson) with
      | .error cause => pure (.error (.unwritable path.text (.unreadable cause)), p)
      | .ok files =>
          ⟨[.output ("Created " ++ path.text)], some (.ok (), { p with files := files })⟩ := by
  intro path
  rw [initSettings, seen_bind_of_ok (seen_get p)]
  dsimp only
  rw [Path.entry_ofNames, if_neg (Bool.eq_false_iff.1 h), Settings.save]
  cases p.files.write p.current path (Utf8.encode settings.toJson) with
  | error cause => rfl
  | ok files => rfl

/-- Writing the settings keeps everything: a file that exists is left alone. -/
theorem keeps_initSettings (settings : Settings) : Keeps (initSettings settings) := by
  intro p result q hq
  cases hexists : p.files.exists? p.current (.ofNames (p.current ++ [Settings.fileName])) with
  | true =>
      rw [seen_initSettings_of_exists hexists] at hq
      cases hq
      exact .refl p.files
  | false =>
      rw [seen_initSettings_of_new hexists] at hq
      split at hq
      · cases hq
        exact .refl p.files
      · rename_i files hwrite
        cases hq
        exact FileSystem.extends_write p.current hexists hwrite

/-- Every command keeps everything. -/
theorem keeps_carryOut (arguments : List String) (settings : Settings) (command : Command) :
    Keeps (carryOut arguments settings command) := by
  cases command with
  | arith op type lhs rhs =>
      exact (keeps_arith op type lhs rhs).bind fun text => (keeps_print text).bind fun _ =>
        keeps_pure _
  | cast policy source target value =>
      exact (keeps_cast policy source target value).bind fun text =>
        (keeps_print text).bind fun _ => keeps_pure _
  | shr type value steps =>
      exact ((keeps_literal type value).bind fun _ => keeps_pure _).bind fun text =>
        (keeps_print text).bind fun _ => keeps_pure _
  | args rest =>
      exact (keeps_lift_execution _).bind fun _ => (keeps_forIn keeps_print arguments).bind fun _ =>
        keeps_pure _
  | exit code => exact keeps_pure code
  | fail message => exact keeps_throw _
  | config init =>
      cases init with
      | true => exact (keeps_initSettings settings).bind fun _ => keeps_pure _
      | false => exact (keeps_print settings.toJson).bind fun _ => keeps_pure _

/-! ## Runs -/

/-- The program keeps everything, whatever its arguments. -/
theorem keeps_program [Wording] (arguments : List String) : Keeps (program arguments) := by
  rw [program]
  split
  · exact (keeps_effectiveSettings _).bind fun settings =>
      (keeps_installSupervisor settings).bind fun _ => keeps_carryOut arguments settings _
  · exact (keeps_forIn keeps_print _).bind fun _ => keeps_pure _
  · exact (keeps_print versionLine).bind fun _ => keeps_pure _
  · exact (keeps_forIn (fun line => keeps_lift_execution _) _).bind fun _ => keeps_pure _

/-- A run of the program leaves everything that stood in the file system when it began. -/
theorem extends_of_run [Wording] {raw : List (List UInt8)} {p q : Session} {code : FixedInt .u8}
    (h : ((run raw).run p).value? = some (code, q)) : q.files.Extends p.files := by
  have hseen : (seenRun (program (Entry.decodeArguments raw)) p).value? = some (code, q) := by
    rw [← unlogged_run]
    exact h
  obtain ⟨⟨result, q'⟩, hprogram, hfinish⟩ := Execution.value?_bind_eq_some hseen
  rw [Execution.value?_map] at hfinish
  obtain ⟨_, -, hcode⟩ := Option.map_eq_some_iff.1 hfinish
  cases hcode
  exact keeps_program _ p result q' hprogram

/-- A run of the program, in some wording, by some build with some variable and arguments in some
directory, turns the one file system into the other. A run that is terminated leaves no session, and
turns nothing. -/
def Turns (files later : FileSystem) : Prop :=
  ∃ _ : Wording, ∃ buildDefault variableBytes current raw code q,
    ((run raw).run (Session.fresh buildDefault variableBytes files current)).value? =
      some (code, q) ∧ q.files = later

/-- However often the program is run, everything that stood in the file system stays. -/
theorem extends_of_runs {files later : FileSystem} (h : Relation.ReflTransGen Turns files later) :
    later.Extends files := by
  induction h with
  | refl => exact .refl files
  | tail _ hturns ih =>
      -- What the last run keeps includes all that the runs before it kept.
      obtain ⟨_, buildDefault, variableBytes, current, raw, code, q, hrun, rfl⟩ := hturns
      exact (extends_of_run hrun).trans ih

end CheckedExecution.Program
