import CheckedExecution.Proofs.Program.Kept
import CheckedExecution.Proofs.Program.Mode

/-!
# Settings that are written and found again

The command that writes the settings makes one file in the current directory, and only where nothing
has its name. What it writes is read again as the mode that it ran under (`holds_encode_toJson`). So
later runs in that directory, or below it with no nearer file, find that mode (`found_of_written`),
as long as they leave the file, which all runs do. The main theorem, `init_persists_mode`, puts the
two runs together.
-/

namespace CheckedExecution

namespace Settings

/-- Written settings are read again, whatever the build. -/
theorem ofJson_toJson (settings : Settings) (buildDefault : PanicMode) :
    ofJson buildDefault settings.toJson = .ok settings := by
  obtain ⟨mode⟩ := settings
  cases mode <;> cases buildDefault <;> decide +kernel

/-- So they are as a line of output. -/
theorem ofJson_toJson_line (settings : Settings) (buildDefault : PanicMode) :
    ofJson buildDefault (settings.toJson ++ "\n") = .ok settings := by
  obtain ⟨mode⟩ := settings
  cases mode <;> cases buildDefault <;> decide +kernel

/-- The bytes that settings are written as amount to their mode. -/
theorem holds_encode_toJson (mode : PanicMode) :
    Holds (.ok (Utf8.encode (toJson ⟨mode⟩))) (.ok (some mode)) :=
  .text (Utf8.decode?_encode _) fun buildDefault => ofJson_toJson ⟨mode⟩ buildDefault

/-- Below a directory with a written file and no nearer one, the mode of that file is found. -/
theorem found_of_written {later : FileSystem} {current below : Location} {mode : PanicMode}
    (hbelow : later.Stands (current ++ below) .directory)
    (hwritten : later.lookup (current ++ [fileName]) = some (.file (Utf8.encode (toJson ⟨mode⟩))))
    (hnearer : ∀ deeper, deeper <+: current ++ below → current.length < deeper.length →
      ∀ entry, ¬ later.Stands (deeper ++ [fileName]) entry) :
    Found later (current ++ below) none (.ok (some mode)) := by
  have hcurrent : later.Stands current .directory := by
    by_cases heq : current = current ++ below
    · rw [heq]
      exact hbelow
    · exact hbelow.above (List.prefix_append current below) heq
  have hstands := hcurrent.of_lookup hwritten
  have hnearest : Nearest later (current ++ below) current :=
    ⟨List.prefix_append current below, ⟨_, hstands⟩, hnearer⟩
  exact .nearest hnearest hstands (holds_encode_toJson mode)

end Settings

namespace Program

variable {p : Session}

/-- In a directory that stands, a file of settings exists if anything has its name. -/
theorem exists?_fileName_iff (hcurrent : p.files.Stands p.current .directory) :
    p.files.exists? p.current (.ofNames (p.current ++ [Settings.fileName])) = true ↔
      ∃ entry, p.files.lookup (p.current ++ [Settings.fileName]) = some entry := by
  rw [FileSystem.exists?_ofNames]
  exact exists_congr fun entry => ⟨fun h => h.lookup_eq, fun h => hcurrent.of_lookup h⟩

/-- Where something has the name of a file of settings, the command to write one is a failure and
nothing else. -/
theorem seenRun_init_of_exists [Wording] {entry : Entry}
    (hcurrent : p.files.Stands p.current .directory)
    (h : p.files.lookup (p.current ++ [Settings.fileName]) = some entry)
    (arguments : List String) (settings : Settings) :
    seenRun (carryOut arguments settings (.config true)) p =
      ⟨[.diagnostic (Entry.errorLine (Failure.message
        (.alreadyExists (Path.ofNames (p.current ++ [Settings.fileName])).text)))],
        some (Entry.errorCode, p)⟩ := by
  have hexists := (exists?_fileName_iff hcurrent).2 ⟨entry, h⟩
  exact seenRun_of_error (seen_bind_of_error (seen_initSettings_of_exists hexists settings) _)

/-- Where nothing has that name, the file is made. -/
theorem seenRun_init_of_new [Wording] (hcurrent : p.files.Stands p.current .directory)
    (h : p.files.lookup (p.current ++ [Settings.fileName]) = none)
    (arguments : List String) (settings : Settings) :
    let location := p.current ++ [Settings.fileName]
    seenRun (carryOut arguments settings (.config true)) p =
      ⟨[.output ("Created " ++ (Path.ofNames location).text)],
        some (FixedInt.zero .u8, { p with
          files := p.files.insert location (.file (Utf8.encode settings.toJson)) })⟩ := by
  intro location
  have hnew : p.files.exists? p.current (.ofNames location) = false := by
    rw [Bool.eq_false_iff, ne_eq, exists?_fileName_iff hcurrent, h]
    exact fun ⟨_, hnone⟩ => nomatch hnone
  have hseen := seen_initSettings_of_new hnew settings
  dsimp only at hseen
  rw [FileSystem.write_ofNames p.current hcurrent h] at hseen
  show seen (initSettings settings >>= fun _ => pure (FixedInt.zero .i64)) p >>= _ = _
  rw [seen_bind, hseen]
  rfl

/-- A command to show the settings prints text that is read again as the mode of the run. -/
theorem output_of_runsUnder [Wording] {mode : PanicMode} {raw : List (List UInt8)}
    (h : RunsUnder mode raw (.config false) p) :
    let execution := (run raw).run p
    (∃ code q, execution.value? = some (code, q) ∧ code.toInt = 0) ∧
    ∀ buildDefault, Settings.ofJson buildDefault execution.outputText = .ok ⟨mode⟩ := by
  intro execution
  have hseen : execution.unlogged = ⟨[.output (Settings.toJson ⟨mode⟩)],
      some (FixedInt.zero .u8, { p with supervisor? := some ⟨mode⟩ })⟩ := runsUnder_iff.1 h
  refine ⟨⟨_, _, congrArg Execution.value? hseen, rfl⟩, fun buildDefault => ?_⟩
  rw [Execution.outputText, ← Execution.outputs_unlogged, hseen]
  show Settings.ofJson buildDefault (Execution.lineText [Settings.toJson ⟨mode⟩]) = _
  rw [Execution.lineText_singleton]
  exact Settings.ofJson_toJson_line ⟨mode⟩ buildDefault

/-- Writing the settings never overwrites and keeps the mode. If anything has the name of the file
in the current directory, the run fails with the code of an error, and the file system is as before.
Otherwise the run succeeds, and one new file is all that changes. All runs of the program from then
on, in any number, leave that file as it is. And as long as the file is there, every run without the
options and the variable, in the directory or below it with no nearer file, is under the mode that
the settings were written under, whatever its build. Such a run prints settings of that mode. -/
theorem init_persists_mode [Wording] (buildDefault : PanicMode)
    (variableBytes : Option (List UInt8)) (files : FileSystem) (current : Location)
    (raw : List (List UInt8)) (i : Invocation) (file : Option PanicMode)
    (hwords : Request.ofWords ((Entry.decodeArguments raw).drop 1) = .run i)
    (hcommand : i.command = .config true)
    (hfound : Settings.Found files current i.settingsPath? (.ok file))
    (hcurrent : files.Stands current .directory) :
    let mode := Settings.decidedMode buildDefault (Settings.layers i.proceeds variableBytes file)
    let location := current ++ [Settings.fileName]
    let execution := (run raw).run (Session.fresh buildDefault variableBytes files current)
    (∀ entry, files.lookup location = some entry →
      ∃ code q, execution.value? = some (code, q) ∧ code.toInt = 1 ∧ q.files = files) ∧
    (files.lookup location = none →
      ∃ code q content, execution.value? = some (code, q) ∧ code.toInt = 0 ∧
        (∀ other, q.files.lookup other =
          if other = location then some (.file content) else files.lookup other) ∧
        (∀ later, Relation.ReflTransGen Turns q.files later →
          later.lookup location = some (.file content)) ∧
        ∀ later below, later.lookup location = some (.file content) →
          later.Stands (current ++ below) .directory →
          (∀ deeper, deeper <+: current ++ below → current.length < deeper.length →
            ∀ entry, ¬ later.Stands (deeper ++ [Settings.fileName]) entry) →
          ∀ laterDefault laterRaw j,
            Request.ofWords ((Entry.decodeArguments laterRaw).drop 1) = .run j →
            j.proceeds = false → j.settingsPath? = none →
            let start := Session.fresh laterDefault none later (current ++ below)
            RunsUnder mode laterRaw j.command start ∧
            (j.command = .config false →
              (∃ code r, ((run laterRaw).run start).value? = some (code, r) ∧ code.toInt = 0) ∧
              ∀ build,
                Settings.ofJson build ((run laterRaw).run start).outputText = .ok ⟨mode⟩)) := by
  intro mode location execution
  have hrun : execution.unlogged =
      seenRun (carryOut (Entry.decodeArguments raw) ⟨mode⟩ (.config true))
        ⟨buildDefault, variableBytes, files, current, some ⟨mode⟩⟩ := by
    rw [← hcommand]
    exact runsUnder_iff.1 (runsUnder_of_found
      (p := Session.fresh buildDefault variableBytes files current) hwords rfl hfound)
  refine ⟨fun entry hentry => ?_, fun hnew => ?_⟩
  · rw [seenRun_init_of_exists hcurrent hentry] at hrun
    exact ⟨_, _, congrArg Execution.value? hrun, rfl, rfl⟩
  · rw [seenRun_init_of_new hcurrent hnew] at hrun
    have hroot : location ≠ [] := List.append_ne_nil_of_right_ne_nil _ (List.cons_ne_nil _ _)
    have hlookup := fun other => FileSystem.lookup_insert files
      (.file (Utf8.encode (Settings.toJson ⟨mode⟩))) other hroot
    refine ⟨_, _, _, congrArg Execution.value? hrun, rfl, hlookup, fun later hlater => ?_,
      fun later below hwritten hbelow hnearer laterDefault laterRaw j hlaterWords hproceeds
        hpath => ?_⟩
    · refine extends_of_runs hlater location _ ?_
      exact (hlookup location).trans (if_pos rfl)
    · intro start
      have hlaterFound : Settings.Found later (current ++ below) j.settingsPath?
          (.ok (some mode)) := by
        rw [hpath]
        exact Settings.found_of_written hbelow hwritten hnearer
      have hunder := runsUnder_of_found (p := start) hlaterWords rfl hlaterFound
      rw [hproceeds] at hunder
      refine ⟨hunder, fun hshow => output_of_runsUnder ?_⟩
      rw [← hshow]
      exact hunder

/-- The option of the run that writes the settings decides the mode of a run below, although the
variable of the first run and the build of the second are against it. -/
theorem written_mode_is_used_below :
    let _ : Wording := .silent
    let raw := ["tern", "--continue-on-panic", "config", "--init"].map Utf8.encode
    let laterRaw := ["tern", "arith", "add", "i8", "127", "1"].map Utf8.encode
    let i : Invocation := ⟨true, none, .config true⟩
    let j : Invocation := ⟨false, none, .arith .add .i8 "127" "1"⟩
    let files : FileSystem := ⟨[(["work"], .directory), (["work", "sub"], .directory)]⟩
    let start := Session.fresh .abort (some (Utf8.encode "off")) files ["work"]
    Request.ofWords ((Entry.decodeArguments raw).drop 1) = .run i ∧
    Settings.Found files ["work"] i.settingsPath? (.ok none) ∧
    files.Stands ["work"] .directory ∧
    Request.ofWords ((Entry.decodeArguments laterRaw).drop 1) = .run j ∧
    ∃ code q, ((run raw).run start).value? = some (code, q) ∧ code.toInt = 0 ∧
      RunsUnder .proceed laterRaw j.command
        (Session.fresh .abort none q.files ["work", "sub"]) := by
  intro _ raw laterRaw i j files start
  have hwords : Request.ofWords ((Entry.decodeArguments raw).drop 1) = .run i := by
    decide +kernel
  have hlaterWords : Request.ofWords ((Entry.decodeArguments laterRaw).drop 1) = .run j := by
    decide +kernel
  have habsent : ∀ level, level <+: ["work"] →
      files.lookup (level ++ [Settings.fileName]) = none := by
    intro level hlevel
    rcases List.prefix_cons_iff.1 hlevel with rfl | ⟨rest, rfl, hrest⟩
    · decide
    · obtain rfl := List.prefix_nil.1 hrest
      decide
  have hfound : Settings.Found files ["work"] i.settingsPath? (.ok none) :=
    .absent fun level hlevel entry hentry => by
      have hnone := habsent level hlevel
      rw [hentry.lookup_eq] at hnone
      cases hnone
  have hcurrent : files.Stands ["work"] .directory := by decide
  obtain ⟨code, q, content, hvalue, hcode, hlookup, hkept, hlater⟩ :=
    (init_persists_mode .abort (some (Utf8.encode "off")) files ["work"] raw i none hwords rfl
      hfound hcurrent).2 (habsent ["work"] List.prefix_rfl)
  have hsub : files.Stands ["work", "sub"] .directory := by decide
  refine ⟨hwords, hfound, hcurrent, hlaterWords, code, q, hvalue, hcode, ?_⟩
  refine (hlater q.files ["sub"] (hkept q.files .refl) ((extends_of_run hvalue).stands hsub)
    (fun deeper hdeeper hlength entry hentry => ?_) .abort laterRaw j hlaterWords rfl rfl).1
  obtain rfl : deeper = ["work", "sub"] := hdeeper.eq_of_length_le hlength
  have hnone := hentry.lookup_eq
  rw [hlookup] at hnone
  cases hnone

end Program

end CheckedExecution
