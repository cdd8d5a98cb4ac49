import CheckedExecution.Entry
import CheckedExecution.Proofs.Cast.Policies
import CheckedExecution.Proofs.Execution.Unlogged
import Mathlib.Data.List.Induction

/-!
# What becomes of a main function's result

An entry point appends the arguments to an empty container, one after another (`Collected`), calls
the main function on it and turns the result into an exit code (`finish`). A value becomes its
residue modulo 256 and is silent, and an error becomes one line. The main theorem,
`entry_calls_main_once`, says this for every container and every main function.
-/

namespace CheckedExecution.Entry

/-- The container got the arguments one by one, in their order. -/
inductive Collected {γ : Type} [ArgumentContainer γ] : List String → γ → Prop where
  | empty : Collected [] ArgumentContainer.empty
  | append {arguments : List String} {container : γ} (argument : String) :
      Collected arguments container →
      Collected (arguments ++ [argument]) (ArgumentContainer.append container argument)

section Collected

variable {γ : Type} [ArgumentContainer γ]

/-- One more argument is appended to the container of those before. -/
theorem collect_append (arguments : List String) (argument : String) :
    collect γ (arguments ++ [argument]) =
      ArgumentContainer.append (collect γ arguments) argument := by
  rw [collect, List.foldl_append]
  rfl

/-- One container got the arguments. -/
theorem collected_iff {arguments : List String} {container : γ} :
    Collected arguments container ↔ container = collect γ arguments := by
  constructor
  · intro h
    induction h with
    | empty => rfl
    | append argument _ ih => rw [collect_append, ih]
  · rintro rfl
    -- The container grows at the end of the arguments, so the induction is from there.
    induction arguments using List.reverseRecOn with
    | nil => exact .empty
    | append_singleton arguments argument ih =>
        rw [collect_append]
        exact .append argument ih

end Collected

variable {τ ε : Type} [Castable τ] [ToString ε]

/-- What follows the main function: its result is turned into the exit code, and the code is noted
in the log. -/
def finish (result : Except ε τ) : Execution (FixedInt .u8) := do
  let code ← exitCode result
  Execution.log .debug logTarget ("entry point finished with exit code " ++ code.toDecimal)
  return code

/-- The low bits of a value are its residue modulo 256, whatever its type and sign. -/
theorem toInt_truncatingCast_u8 (value : τ) :
    (truncatingCast .u8 value).toInt = (castSource value).toInt % 256 := by
  rw [truncatingCast_eq_wrap]
  show IntType.u8.minValue + ((castSource value).toInt - IntType.u8.minValue) % IntType.u8.modulus =
    (castSource value).toInt % 256
  have hmin : IntType.u8.minValue = 0 := rfl
  have hmodulus : IntType.u8.modulus = 256 := rfl
  rw [hmin, hmodulus, Int.sub_zero, Int.zero_add]

section Run

variable {γ : Type} [ArgumentContainer γ]
variable {m : Type → Type} [Monad m] [MonadLiftT Execution m] [LawfulMonadLiftT Execution m]

/-- An entry point runs the main function on the container of all arguments and then finishes. -/
theorem run_eq (arguments : List String) (main : γ → m (Except ε τ)) :
    run arguments main = main (collect γ arguments) >>= fun result =>
      (finish result : Execution (FixedInt .u8)) := by
  simp only [run, finish, liftM_bind, liftM_pure]

variable [LawfulMonad m]

/-- The main function, with a list of the containers that it was called on. -/
def recording (main : γ → m (Except ε τ)) (container : γ) : StateT (List γ) m (Except ε τ) := do
  modify (· ++ [container])
  main container

/-- The main function is called once, on the container of all arguments. -/
theorem run_recording (arguments : List String) (main : γ → m (Except ε τ)) :
    (run arguments (recording main)).run [] =
      (fun code => (code, [collect γ arguments])) <$> run arguments main := by
  rw [run_eq, run_eq]
  simp [recording, StateT.run_bind, StateT.run_monadLift, map_bind]

end Run

/-- A value is turned into its low bits, and nothing is written. -/
theorem finish_ok (value : τ) :
    (finish (.ok value : Except ε τ)).value? = some (truncatingCast .u8 value) ∧
      (finish (.ok value : Except ε τ)).diagnostics = [] ∧
      (finish (.ok value : Except ε τ)).outputs = [] :=
  ⟨rfl, rfl, rfl⟩

/-- An error is turned into the code of errors, and one line is written. -/
theorem finish_error (error : ε) :
    (finish (.error error : Except ε τ)).value? = some errorCode ∧
      (finish (.error error : Except ε τ)).diagnostics = [errorLine (toString error)] ∧
      (finish (.error error : Except ε τ)).outputs = [] :=
  ⟨rfl, rfl, rfl⟩

/-- Values have one exit code exactly if they are congruent modulo 256, whatever their types. -/
theorem truncatingCast_u8_eq_iff {σ : Type} [Castable σ] (value : τ) (other : σ) :
    truncatingCast .u8 value = truncatingCast .u8 other ↔
      (castSource value).toInt ≡ (castSource other).toInt [ZMOD 256] := by
  rw [FixedInt.ext_iff, toInt_truncatingCast_u8, toInt_truncatingCast_u8]
  rfl

/-- An entry point appends every argument once, in order, to an empty container, calls the main
function once, on this container, and does nothing else before it has the result. The code of a
value is its residue modulo 256, so it depends on nothing but the residue, and no line is written.
The code of an error is one, and the one line that is written holds its text. A value has the same
code exactly if it is congruent to one, so it is the line that tells the two apart. -/
theorem entry_calls_main_once {γ : Type} [ArgumentContainer γ] {m : Type → Type} [Monad m]
    [LawfulMonad m] [MonadLiftT Execution m] [LawfulMonadLiftT Execution m]
    (arguments : List String) (main : γ → m (Except ε τ)) :
    (∀ container : γ, Collected arguments container ↔ container = collect γ arguments) ∧
    (run arguments main =
      main (collect γ arguments) >>= fun result => (finish result : Execution (FixedInt .u8))) ∧
    ((run arguments (recording main)).run [] =
      (fun code => (code, [collect γ arguments])) <$> run arguments main) ∧
    (∀ value : τ, ∃ code,
      (finish (.ok value : Except ε τ)).value? = some code ∧
      code.toInt = (castSource value).toInt % 256 ∧
      (finish (.ok value : Except ε τ)).diagnostics = []) ∧
    (∀ error : ε, ∃ code,
      (finish (.error error : Except ε τ)).value? = some code ∧ code.toInt = 1 ∧
      (finish (.error error : Except ε τ)).diagnostics = ["Runtime error: " ++ toString error]) ∧
    (∀ (σ : Type) [Castable σ] (value : τ) (other : σ),
      (finish (.ok value : Except ε τ)).value? = (finish (.ok other : Except ε σ)).value? ↔
        (castSource value).toInt ≡ (castSource other).toInt [ZMOD 256]) ∧
    (∀ (value : τ) (error : ε),
      (finish (.ok value : Except ε τ)).value? = (finish (.error error : Except ε τ)).value? ↔
        (castSource value).toInt ≡ 1 [ZMOD 256]) ∧
    (∀ result : Except ε τ, (finish result).outputs = [] ∧
      ((finish result).diagnostics = [] ↔ ∃ value, result = .ok value)) := by
  refine ⟨fun _ => collected_iff, run_eq arguments main, run_recording arguments main,
    fun value => ?_, fun error => ?_, fun σ _ value other => ?_, fun value error => ?_,
    fun result => ?_⟩
  · obtain ⟨hcode, hline, -⟩ := finish_ok (ε := ε) value
    exact ⟨_, hcode, toInt_truncatingCast_u8 value, hline⟩
  · obtain ⟨hcode, hline, -⟩ := finish_error (τ := τ) error
    exact ⟨_, hcode, rfl, hline⟩
  · rw [(finish_ok value).1, (finish_ok other).1, Option.some_inj]
    exact truncatingCast_u8_eq_iff value other
  · -- The code of errors is itself what a value is cut to: that of one.
    have hone : errorCode = truncatingCast .u8 (FixedInt.one .u8) := rfl
    rw [(finish_ok value).1, (finish_error error).1, Option.some_inj, hone]
    exact truncatingCast_u8_eq_iff value (FixedInt.one .u8)
  · cases result with
    | ok value =>
        obtain ⟨-, hline, houtput⟩ := finish_ok (ε := ε) value
        exact ⟨houtput, fun _ => ⟨value, rfl⟩, fun _ => hline⟩
    | error error =>
        obtain ⟨-, hline, houtput⟩ := finish_error (τ := τ) error
        refine ⟨houtput, fun hnone => ?_, fun ⟨_, hok⟩ => nomatch hok⟩
        rw [hline] at hnone
        exact absurd hnone (List.cons_ne_nil _ _)

/-- An empty and a repeated argument reach the main function, which is called once, and a negative
value of 128 bits ends with its residue. -/
theorem repeated_arguments_reach_main :
    let main : List String → Execution (Except String (FixedInt .i128)) := fun arguments => do
      Execution.print (String.intercalate "," arguments)
      return .ok (FixedInt.wrap .i128 (-arguments.length))
    ((run ["first", "", "first"] (recording main)).run []).unlogged =
      ⟨[.output "first,,first"], some (⟨253, by decide⟩, [["first", "", "first"]])⟩ := by
  intro main
  rw [(entry_calls_main_once ["first", "", "first"] main).2.2.1, Execution.unlogged_map]
  rfl

end CheckedExecution.Entry
