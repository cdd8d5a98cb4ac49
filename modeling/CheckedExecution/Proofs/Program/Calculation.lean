import CheckedExecution.Proofs.Program.Mode
import CheckedExecution.Proofs.Supervisor.Panic
import CheckedExecution.Proofs.Text.Decimal

/-!
# How a calculation ends

A command that calculates with numbers has one outcome (`exists_outcome`, `Calculates.unique`): it
is refused, it has a result, or it panics and has a value to go on with. What is seen of the command
follows from the outcome and the mode (`seen_textOf`), and so does the end of the process, with all
that stands on both streams. That is the main theorem, `calculation_ends_with_outcome`.
-/

namespace CheckedExecution

namespace Command

/-- The command calculates with numbers. -/
def isCalculation : Command → Bool
  | arith _ _ _ _ | cast _ _ _ _ | shr _ _ _ => true
  | _ => false

/-- The texts that the command reads as numbers, from left to right, each with its type. -/
def operands : Command → List (IntType × String)
  | arith _ type lhs rhs => [(type, lhs), (type, rhs)]
  | cast _ source _ value => [(source, value)]
  | shr type value _ => [(type, value)]
  | _ => []

end Command

namespace Program

/-- `FirstRefused operands cause` says that an operand is refused for the cause, and that every
operand to its left is read. -/
inductive FirstRefused : List (IntType × String) → LiteralError → Prop where
  | here {type : IntType} {text : String} {cause : LiteralError} {rest : List (IntType × String)} :
      FixedInt.ofLiteral type text = .error cause → FirstRefused ((type, text) :: rest) cause
  | later {type : IntType} {text : String} {value : FixedInt type} {cause : LiteralError}
      {rest : List (IntType × String)} :
      FixedInt.ofLiteral type text = .ok value → FirstRefused rest cause →
      FirstRefused ((type, text) :: rest) cause

/-- What comes of a calculation. -/
inductive Outcome where
  /-- An operand or the value of a cast is refused. -/
  | refused (failure : Failure)
  /-- There is a result, or a word for its absence. -/
  | answered (result? : Option Int)
  /-- There is no result, but a value that stands in for it. -/
  | panicked (message : String) (standIn : Int)
  deriving DecidableEq

/-- `Calculates command outcome` says what has to come of a calculation. -/
inductive Calculates : Command → Outcome → Prop where
  /-- The operands are not all numbers of their types. -/
  | refusedOperand {command : Command} {cause : LiteralError} :
      FirstRefused command.operands cause → Calculates command (.refused (.literal cause))
  /-- An operation has a result. -/
  | exact {op : ArithmeticOp} {type : IntType} {lhs rhs : String} {a b result : FixedInt type} :
      FixedInt.ofLiteral type lhs = .ok a → FixedInt.ofLiteral type rhs = .ok b →
      evaluate op a b = .ok result →
      Calculates (.arith op type lhs rhs) (.answered (some result.toInt))
  /-- An operation faults. -/
  | fault {op : ArithmeticOp} {type : IntType} {lhs rhs : String} {a b : FixedInt type}
      {faulted : Faulted type} :
      FixedInt.ofLiteral type lhs = .ok a → FixedInt.ofLiteral type rhs = .ok b →
      evaluate op a b = .error faulted →
      Calculates (.arith op type lhs rhs) (.panicked faulted.fault.message faulted.fallback.toInt)
  /-- A shift always has a result. -/
  | shifted {type : IntType} {text : String} {value : FixedInt type} (steps : FixedInt .u32) :
      FixedInt.ofLiteral type text = .ok value →
      Calculates (.shr type text steps)
        (.answered (some (value.arithmeticShiftRight steps.toInt.toNat).toInt))
  /-- A value that fits is the same value under every policy. -/
  | fits {source target : IntType} {text : String} {value : FixedInt source}
      (policy : CastPolicy) :
      FixedInt.ofLiteral source text = .ok value → target.Contains value.toInt →
      Calculates (.cast policy source target text) (.answered (some value.toInt))
  /-- A value that does not fit is absent under the first policy. -/
  | absent {source target : IntType} {text : String} {value : FixedInt source} :
      FixedInt.ofLiteral source text = .ok value → ¬ target.Contains value.toInt →
      Calculates (.cast .fallible source target text) (.answered none)
  /-- Under the second it is a panic, and its low bits stand in. -/
  | misfit {source target : IntType} {text : String} {value : FixedInt source} :
      FixedInt.ofLiteral source text = .ok value → ¬ target.Contains value.toInt →
      Calculates (.cast .infallible source target text)
        (.panicked (CastError.message ⟨value.toInt, target⟩) (truncatingCast target value).toInt)
  /-- Under the third it is cut to a bound of the target. -/
  | cut {source target : IntType} {text : String} {value : FixedInt source} :
      FixedInt.ofLiteral source text = .ok value → ¬ target.Contains value.toInt →
      Calculates (.cast .saturating source target text)
        (.answered (some (saturatingCast target value).toInt))
  /-- Under the fourth it is cut to its low bits. -/
  | truncated {source target : IntType} {text : String} {value : FixedInt source} :
      FixedInt.ofLiteral source text = .ok value → ¬ target.Contains value.toInt →
      Calculates (.cast .truncating source target text)
        (.answered (some (truncatingCast target value).toInt))
  /-- Under the last it is refused. -/
  | refusedValue {source target : IntType} {text : String} {value : FixedInt source} :
      FixedInt.ofLiteral source text = .ok value → ¬ target.Contains value.toInt →
      Calculates (.cast .attempt source target text) (.refused (.cast ⟨value.toInt, target⟩))

/-- Something comes of every calculation. -/
theorem exists_outcome {command : Command} (h : command.isCalculation = true) :
    ∃ outcome, Calculates command outcome := by
  cases command with
  | arith op type lhs rhs =>
      cases hlhs : FixedInt.ofLiteral type lhs with
      | error cause => exact ⟨_, .refusedOperand (.here hlhs)⟩
      | ok a =>
          cases hrhs : FixedInt.ofLiteral type rhs with
          | error cause => exact ⟨_, .refusedOperand (.later hlhs (.here hrhs))⟩
          | ok b =>
              cases hresult : evaluate op a b with
              | error faulted => exact ⟨_, .fault hlhs hrhs hresult⟩
              | ok result => exact ⟨_, .exact hlhs hrhs hresult⟩
  | cast policy source target text =>
      cases hvalue : FixedInt.ofLiteral source text with
      | error cause => exact ⟨_, .refusedOperand (.here hvalue)⟩
      | ok value =>
          by_cases hin : target.Contains value.toInt
          · exact ⟨_, .fits policy hvalue hin⟩
          · cases policy with
            | fallible => exact ⟨_, .absent hvalue hin⟩
            | infallible => exact ⟨_, .misfit hvalue hin⟩
            | saturating => exact ⟨_, .cut hvalue hin⟩
            | truncating => exact ⟨_, .truncated hvalue hin⟩
            | attempt => exact ⟨_, .refusedValue hvalue hin⟩
  | shr type text steps =>
      cases hvalue : FixedInt.ofLiteral type text with
      | error cause => exact ⟨_, .refusedOperand (.here hvalue)⟩
      | ok value => exact ⟨_, .shifted steps hvalue⟩
  | _ => cases h

/-! ## What is seen of a calculation -/

/-- The line for a result, which is the canonical decimal of an integer. -/
def resultText : Option Int → String
  | some v => String.ofList (Decimal.ofInt v)
  | none => absentWord

/-- The line tells the result. -/
theorem resultText_injective {result? other? : Option Int}
    (h : resultText result? = resultText other?) : result? = other? := by
  have hword : ∀ v : Int, resultText (some v) ≠ resultText none := by
    intro v hv
    have htext : Decimal.ofInt v = absentWord.toList := by
      rw [← String.toList_ofList (l := Decimal.ofInt v)]
      exact congrArg String.toList hv
    have hmem : 'n' ∈ Decimal.ofInt v := by
      rw [htext]
      decide
    exact absurd (Decimal.mem_ofInt hmem) (by decide)
  cases result? with
  | none =>
      cases other? with
      | none => rfl
      | some w => exact absurd h.symm (hword w)
  | some v =>
      cases other? with
      | none => exact absurd h (hword v)
      | some w => rw [Decimal.ofInt_injective (String.ofList_injective h)]

/-- What the command calculates, as text. -/
def textOf : Command → Action String
  | .arith op type lhs rhs => arith op type lhs rhs
  | .cast policy source target value => cast policy source target value
  | .shr type value steps => shift type value steps
  | _ => pure ""

/-- A command that calculates prints what it calculates. -/
theorem carryOut_of_isCalculation {command : Command} (h : command.isCalculation = true)
    (arguments : List String) (settings : Settings) :
    carryOut arguments settings command = textOf command >>= fun text => do
      print text
      return FixedInt.zero .i64 := by
  cases command with
  | arith | cast | shr => rfl
  | _ => cases h

/-- What is seen of a calculation under a supervisor. -/
def Outcome.seen (s : Supervisor) (p : Session) :
    Outcome → Execution (Except Failure String × Session)
  | refused failure => pure (.error failure, p)
  | answered result? => pure (.ok (resultText result?), p)
  | panicked message standIn =>
      (fun _ => (.ok (resultText (some standIn)), p)) <$> (s.panic message).unlogged

/-- What is seen where panics do not end the process tells the outcome. -/
theorem Outcome.seen_proceeding_injective {outcome other : Outcome} {p : Session}
    (h : outcome.seen Supervisor.proceeding p = other.seen Supervisor.proceeding p) :
    outcome = other := by
  -- Only a panic shows an event before the text, and only a refusal leaves no text.
  have hevents := congrArg Execution.events h
  have hvalue := congrArg (fun x => x.value?.map Prod.fst) h
  cases outcome with
  | refused failure =>
      cases other with
      | refused otherFailure =>
          cases hvalue
          rfl
      | answered => cases hvalue
      | panicked => cases hevents
  | answered result? =>
      cases other with
      | refused => cases hvalue
      | answered other? =>
          have htext := Except.ok.inj (Option.some.inj hvalue)
          rw [resultText_injective htext]
      | panicked => cases hevents
  | panicked message standIn =>
      cases other with
      | refused => cases hevents
      | answered => cases hevents
      | panicked otherMessage otherStandIn =>
          have hline := Event.diagnostic.inj (List.cons.inj hevents).1
          have htext := Except.ok.inj (Option.some.inj hvalue)
          cases resultText_injective htext
          rw [(String.append_right_inj "Panic: ").1 hline]

/-- An operand that is a number is read. -/
theorem seen_literal_of_ok {t : IntType} {text : String} {value : FixedInt t}
    (h : FixedInt.ofLiteral t text = .ok value) (p : Session) :
    seen (literal t text) p = pure (.ok value, p) := by
  rw [literal, h]
  rfl

/-- Any other operand is a failure. -/
theorem seen_literal_of_error {t : IntType} {text : String} {cause : LiteralError}
    (h : FixedInt.ofLiteral t text = .error cause) (p : Session) :
    seen (literal t text) p = pure (.error (.literal cause), p) := by
  rw [literal, h]
  rfl

section Supervised

variable {p : Session} {s : Supervisor} {t : IntType} (f : Supervisor → Execution (FixedInt t))

/-- The text of a number that the supervisor of the session is asked for. -/
def supervisedText : Action String := do
  return (← lift (Session.supervisor >>= fun s => (f s : Session.Action (FixedInt t)))).toDecimal

/-- With the supervisor in place, what it does is all that is seen. -/
theorem seen_supervisedText (hp : p.supervisor? = some s) :
    seen (supervisedText f) p =
      (fun result => (.ok (resultText (some result.toInt)), p)) <$> (f s).unlogged := by
  rw [supervisedText, seen_bind, seen_lift, StateT.run_bind, Session.supervisor_of_installed hp]
  show (_ <$> Execution.unlogged ((f s : Session.Action (FixedInt t)).run p)) >>= _ = _
  rw [Session.run_lift, Execution.unlogged_map, Functor.map_map, ← bind_pure_comp,
    ← bind_pure_comp, bind_assoc]
  simp only [pure_bind]
  rfl

/-- A number that is had in silence. -/
theorem seen_supervisedText_of_ok (hp : p.supervisor? = some s) {result : FixedInt t}
    (h : f s = ⟨[], some result⟩) :
    seen (supervisedText f) p = (Outcome.answered (some result.toInt)).seen s p := by
  rw [seen_supervisedText f hp, h]
  rfl

/-- A number that stands in after a panic. -/
theorem seen_supervisedText_of_panic (hp : p.supervisor? = some s) {message : String}
    {standIn : FixedInt t} (h : f s = (s.panic message >>= fun _ => pure standIn)) :
    seen (supervisedText f) p = (Outcome.panicked message standIn.toInt).seen s p := by
  rw [seen_supervisedText f hp, h, bind_pure_comp, Execution.unlogged_map, Functor.map_map]
  rfl

end Supervised

/-- A refused operand is all that is seen of a calculation. -/
theorem seen_textOf_of_refused {command : Command} {cause : LiteralError}
    (h : FirstRefused command.operands cause) (p : Session) :
    seen (textOf command) p = pure (.error (.literal cause), p) := by
  cases command with
  | arith op type lhs rhs =>
      cases h with
      | here hlhs => exact seen_bind_of_error (seen_literal_of_error hlhs p) _
      | later hlhs hrest =>
          cases hrest with
          | here hrhs =>
              exact (seen_bind_of_ok (seen_literal_of_ok hlhs p) _).trans
                (seen_bind_of_error (seen_literal_of_error hrhs p) _)
          | later _ hnone => cases hnone
  | cast policy source target value =>
      cases h with
      | here hvalue => exact seen_bind_of_error (seen_literal_of_error hvalue p) _
      | later _ hnone => cases hnone
  | shr type value steps =>
      cases h with
      | here hvalue => exact seen_bind_of_error (seen_literal_of_error hvalue p) _
      | later _ hnone => cases hnone
  | _ => cases h

/-- What is seen of a cast is the conversion of the value that its operand is. -/
theorem seen_cast_of_ok (policy : CastPolicy) {source : IntType} (target : IntType)
    {text : String} {value : FixedInt source} (h : FixedInt.ofLiteral source text = .ok value)
    (p : Session) :
    seen (cast policy source target text) p = seen (match policy with
      | .fallible => pure <| match fallibleCast target value with
          | some converted => converted.toDecimal
          | none => absentWord
      | .infallible => supervisedText fun s => s.infallibleCast target value
      | .saturating => pure (saturatingCast target value).toDecimal
      | .truncating => pure (truncatingCast target value).toDecimal
      | .attempt => do return (← orFail .cast (tryCast target value)).toDecimal) p := by
  refine (seen_bind_of_ok (seen_literal_of_ok h p) _).trans ?_
  cases policy <;> rfl

/-- What is seen of a calculation is what has to come of it. -/
theorem seen_textOf {command : Command} {outcome : Outcome} (h : Calculates command outcome)
    {s : Supervisor} {p : Session} (hp : p.supervisor? = some s) :
    seen (textOf command) p = outcome.seen s p := by
  cases h with
  | refusedOperand hrefused => exact seen_textOf_of_refused hrefused p
  | exact hlhs hrhs hresult =>
      refine (seen_bind_of_ok (seen_literal_of_ok hlhs p) _).trans ?_
      refine (seen_bind_of_ok (seen_literal_of_ok hrhs p) _).trans ?_
      exact seen_supervisedText_of_ok (·.checked _ _ _) hp (Supervisor.checked_of_ok hresult s)
  | fault hlhs hrhs hfault =>
      refine (seen_bind_of_ok (seen_literal_of_ok hlhs p) _).trans ?_
      refine (seen_bind_of_ok (seen_literal_of_ok hrhs p) _).trans ?_
      exact seen_supervisedText_of_panic (·.checked _ _ _) hp (Supervisor.checked_of_error hfault s)
  | shifted steps hvalue => exact seen_bind_of_ok (seen_literal_of_ok hvalue p) _
  | @fits source target text value policy hvalue hin =>
      have hfits : target.Contains (castSource value).toInt := hin
      refine (seen_cast_of_ok policy target hvalue p).trans ?_
      cases policy with
      | fallible =>
          dsimp only
          rw [fallibleCast_of_contains hfits]
          rfl
      | infallible =>
          exact seen_supervisedText_of_ok (·.infallibleCast target value) hp
            (Supervisor.infallibleCast_of_ok (tryCast_of_contains hfits) s)
      | saturating =>
          dsimp only
          rw [saturatingCast_of_contains hfits]
          rfl
      | truncating =>
          dsimp only
          rw [truncatingCast_of_contains hfits]
          rfl
      | attempt =>
          dsimp only
          rw [tryCast_of_contains hfits]
          rfl
  | @absent source target text value hvalue hout =>
      have hmisfits : ¬ target.Contains (castSource value).toInt := hout
      refine (seen_cast_of_ok .fallible target hvalue p).trans ?_
      dsimp only
      rw [fallibleCast_eq_none_iff.2 hmisfits]
      rfl
  | @misfit source target text value hvalue hout =>
      have hmisfits : ¬ target.Contains (castSource value).toInt := hout
      refine (seen_cast_of_ok .infallible target hvalue p).trans ?_
      exact seen_supervisedText_of_panic (·.infallibleCast target value) hp
        (Supervisor.infallibleCast_of_error (tryCast_of_not_contains hmisfits) s)
  | @cut source target text value hvalue hout =>
      exact seen_cast_of_ok .saturating target hvalue p
  | @truncated source target text value hvalue hout =>
      exact seen_cast_of_ok .truncating target hvalue p
  | @refusedValue source target text value hvalue hout =>
      have hmisfits : ¬ target.Contains (castSource value).toInt := hout
      refine (seen_cast_of_ok .attempt target hvalue p).trans ?_
      dsimp only
      rw [tryCast_of_not_contains hmisfits]
      rfl

/-- One thing comes of a calculation. -/
theorem Calculates.unique {command : Command} {outcome other : Outcome}
    (h : Calculates command outcome) (hother : Calculates command other) : outcome = other := by
  -- No outcome ends the process in this session, so what is seen tells all outcomes apart.
  let p : Session := ⟨.abort, none, .empty, [], some Supervisor.proceeding⟩
  have hp : p.supervisor? = some Supervisor.proceeding := rfl
  have hseen : outcome.seen Supervisor.proceeding p = other.seen Supervisor.proceeding p := by
    rw [← seen_textOf h hp, ← seen_textOf hother hp]
  exact Outcome.seen_proceeding_injective hseen

/-! ## How the process ends -/

/-- How a process ends: the code that it exits with, unless it was terminated, and what stands on
its two streams. -/
structure Ending where
  code? : Option Int
  output : String
  diagnostics : String
  deriving DecidableEq

/-- The end of a run, which nothing of the log is part of. -/
def Ending.ofRun (x : Execution (FixedInt .u8 × Session)) : Ending :=
  ⟨x.value?.map fun r => r.1.toInt, x.outputText, x.diagnosticText⟩

/-- How a process ends with an outcome. -/
def Outcome.ending [Wording] (mode : PanicMode) : Outcome → Ending
  | refused failure => ⟨some 1, "", "Runtime error: " ++ failure.message ++ "\n"⟩
  | answered result? => ⟨some 0, resultText result? ++ "\n", ""⟩
  | panicked message standIn =>
      match mode with
      | .abort => ⟨none, "", "Panic: " ++ message ++ "\n"⟩
      | .proceed =>
          ⟨some 0, resultText (some standIn) ++ "\n", "Panic: " ++ message ++ "\n"⟩

/-- The end of a run is not a matter of its log. -/
theorem Ending.ofRun_unlogged (x : Execution (FixedInt .u8 × Session)) :
    ofRun x.unlogged = ofRun x := by
  unfold ofRun Execution.outputText Execution.diagnosticText
  rw [Execution.outputs_unlogged, Execution.diagnostics_unlogged]
  rfl

/-- What is seen of a calculation ends the process as its outcome does. -/
theorem ofRun_seenRun [Wording] {command : Command} (h : command.isCalculation = true)
    {outcome : Outcome} (houtcome : Calculates command outcome) {p : Session} {mode : PanicMode}
    (hp : p.supervisor? = some ⟨mode⟩) (arguments : List String) :
    Ending.ofRun (seenRun (carryOut arguments ⟨mode⟩ command) p) = outcome.ending mode := by
  rw [seenRun, carryOut_of_isCalculation h, seen_bind, seen_textOf houtcome hp]
  cases outcome with
  | refused failure =>
      show (⟨some 1, "", Execution.lineText [Entry.errorLine failure.message]⟩ : Ending) = _
      rw [Execution.lineText_singleton]
      rfl
  | answered result? =>
      show (⟨some 0, Execution.lineText [resultText result?], ""⟩ : Ending) = _
      rw [Execution.lineText_singleton]
      rfl
  | panicked message standIn =>
      cases mode with
      | abort =>
          show (⟨none, "", Execution.lineText [Supervisor.panicLine message]⟩ : Ending) = _
          rw [Execution.lineText_singleton]
          rfl
      | proceed =>
          show (⟨some 0, Execution.lineText [resultText (some standIn)],
            Execution.lineText [Supervisor.panicLine message]⟩ : Ending) = _
          rw [Execution.lineText_singleton, Execution.lineText_singleton]
          rfl

/-- A line that says that there is no value is the output for an absent result and nothing else. -/
theorem Outcome.output_eq_absent_iff [Wording] {outcome : Outcome} {mode : PanicMode} :
    (outcome.ending mode).output = absentWord ++ "\n" ↔ outcome = .answered none := by
  have hline : ∀ result?, resultText result? ++ "\n" = absentWord ++ "\n" ↔ result? = none := by
    intro result?
    rw [String.append_left_inj]
    constructor
    · intro h
      exact resultText_injective (h.trans (rfl : absentWord = resultText none))
    · rintro rfl
      rfl
  have hempty : "" ≠ absentWord ++ "\n" := by decide
  cases outcome with
  | refused failure => exact ⟨fun h => absurd h hempty, nofun⟩
  | answered result? => exact (hline result?).trans (by rw [answered.injEq])
  | panicked message standIn =>
      cases mode with
      | abort => exact ⟨fun h => absurd h hempty, nofun⟩
      | proceed => exact ⟨fun h => absurd ((hline _).1 h) (Option.some_ne_none _), nofun⟩

/-- A result is absent for a fallible cast of a value that does not fit, and for no other command.
-/
theorem calculates_absent_iff {command : Command} :
    Calculates command (.answered none) ↔
      ∃ source target text, ∃ value : FixedInt source,
        command = .cast .fallible source target text ∧
        FixedInt.ofLiteral source text = .ok value ∧ ¬ target.Contains value.toInt := by
  constructor
  · intro h
    cases h with
    | @absent source target text value hvalue hout =>
        exact ⟨source, target, text, value, rfl, hvalue, hout⟩
  · rintro ⟨source, target, text, value, rfl, hvalue, hout⟩
    exact .absent hvalue hout

/-- A calculation ends the process as its one outcome does. A refusal is the code of an error and
its report, and nothing stands on the output stream. A panic writes its line, and in abort mode it
is all that there is. Otherwise the process exits with the code zero, and the output stream has one
line with the canonical decimal of the result or of what stands in for it. A word stands there in
place of a number only for a fallible cast of a value that does not fit. -/
theorem calculation_ends_with_outcome [Wording] (buildDefault : PanicMode)
    (variableBytes : Option (List UInt8)) (files : FileSystem) (current : Location)
    (raw : List (List UInt8)) (i : Invocation) (file : Option PanicMode)
    (hwords : Request.ofWords ((Entry.decodeArguments raw).drop 1) = .run i)
    (hcommand : i.command.isCalculation = true)
    (hfound : Settings.Found files current i.settingsPath? (.ok file)) :
    let mode := Settings.decidedMode buildDefault (Settings.layers i.proceeds variableBytes file)
    let ending := Ending.ofRun
      ((run raw).run (Session.fresh buildDefault variableBytes files current))
    (∃! outcome, Calculates i.command outcome) ∧
    (∀ outcome, Calculates i.command outcome → ending = outcome.ending mode) ∧
    (ending.output = absentWord ++ "\n" ↔
      ∃ source target text, ∃ value : FixedInt source,
        i.command = .cast .fallible source target text ∧
        FixedInt.ofLiteral source text = .ok value ∧ ¬ target.Contains value.toInt) ∧
    (∀ (v : Int) (line : String), line = resultText (some v) ↔
      Decimal.IsCanonical line.toList ∧ Decimal.Denotes true line.toList v) := by
  intro mode ending
  have hending : ∀ outcome, Calculates i.command outcome → ending = outcome.ending mode := by
    intro outcome houtcome
    have hrun := runsUnder_iff.1 (runsUnder_of_found
      (p := Session.fresh buildDefault variableBytes files current) hwords rfl hfound)
    show Ending.ofRun _ = _
    rw [← Ending.ofRun_unlogged, hrun]
    exact ofRun_seenRun hcommand houtcome rfl (Entry.decodeArguments raw)
  obtain ⟨outcome, houtcome⟩ := exists_outcome hcommand
  refine ⟨⟨outcome, houtcome, fun other hother => hother.unique houtcome⟩, hending, ?_,
    fun v line => Decimal.eq_ofList_ofInt_iff⟩
  rw [hending outcome houtcome, Outcome.output_eq_absent_iff, ← calculates_absent_iff]
  constructor
  · rintro rfl
    exact houtcome
  · exact fun habsent => houtcome.unique habsent

/-- A cast that goes on with the low bits after its panic. -/
theorem continued_cast_prints_low_bits :
    let _ : Wording := .silent
    let raw := ["tern", "cast", "infallible", "i16", "u8", "\u00a0300"].map Utf8.encode
    let i : Invocation := ⟨false, none, .cast .infallible .i16 .u8 "\u00a0300"⟩
    Request.ofWords ((Entry.decodeArguments raw).drop 1) = .run i ∧
    i.command.isCalculation = true ∧
    Settings.Found .empty [] i.settingsPath? (.ok none) ∧
    Ending.ofRun ((run raw).run (Session.fresh .abort (some (Utf8.encode "yes")) .empty [])) =
      ⟨some 0, "44\n", "Panic: Integer cast out of range: 300 does not fit in u8\n"⟩ := by
  intro _ raw i
  have hwords : Request.ofWords ((Entry.decodeArguments raw).drop 1) = .run i := by
    decide +kernel
  have hfound : Settings.Found .empty [] i.settingsPath? (.ok none) := by
    refine .absent fun level hlevel entry hentry => ?_
    obtain rfl := List.prefix_nil.1 hlevel
    exact nomatch hentry.lookup_eq
  have hread : FixedInt.ofLiteral .i16 "\u00a0300" = .ok ⟨300, by decide⟩ := by decide +kernel
  refine ⟨hwords, rfl, hfound, ?_⟩
  have hends := (calculation_ends_with_outcome .abort (some (Utf8.encode "yes")) .empty [] raw i
    none hwords rfl hfound).2.1
  rw [hends _ (.misfit hread (by decide))]
  decide +kernel

end Program

end CheckedExecution
