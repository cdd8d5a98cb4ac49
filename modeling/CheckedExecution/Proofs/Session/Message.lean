import CheckedExecution.Proofs.Session.Use
import CheckedExecution.Proofs.Text.Lossy
import Mathlib.Data.List.TakeWhile
import Mathlib.Data.List.Forall2

/-!
# Texts from outside

Messages of panics come as bytes behind a pointer, and arguments as bytes that need not be text. A
text arrives as it is, whichever way it comes, and other bytes arrive with each maximal invalid part
replaced (`text_crosses_boundary`).
-/

namespace CheckedExecution.Session

open Utf8 (IsLossy decodeLossy encode)

variable {before : List UInt8}

/-- Of bytes without a zero byte none is zero. -/
theorem decide_ne_zero_of_mem (h : 0 ∉ before) : ∀ b ∈ before, decide (b ≠ 0) = true :=
  fun _ hb => decide_eq_true fun hzero => h (hzero ▸ hb)

/-- The text behind a pointer to bytes without a zero byte is that of all of them. -/
theorem messageAt_eq (h : 0 ∉ before) : messageAt (some before) = decodeLossy before := by
  rw [messageAt, List.takeWhile_eq_self_iff.2 (decide_ne_zero_of_mem h)]

/-- The text behind a pointer is that of the bytes before the first zero byte. -/
theorem messageAt_append (h : 0 ∉ before) (after : List UInt8) :
    messageAt (some (before ++ 0 :: after)) = decodeLossy before := by
  rw [messageAt, List.takeWhile_append_of_pos (decide_ne_zero_of_mem h),
    List.takeWhile_cons_of_neg (by decide), List.append_nil]

/-- A panic writes its line, and comes back from the supervisor in effect if that one proceeds, with
the supervisor fixed. -/
theorem emit_spec (message : String) (p : Session) :
    ((emit message).run p).diagnostics = [Supervisor.panicLine message] ∧
      ((emit message).run p).value? =
        if p.effective.proceeds then some ((), p.after .asks) else none := by
  obtain ⟨hline, hvalue⟩ := supervisor_spec p
  rw [emit, StateT.run_bind, Execution.diagnostics_bind hvalue, Execution.value?_bind hvalue,
    hline, run_lift, Execution.diagnostics_map, Execution.value?_map]
  obtain ⟨mode⟩ := p.effective
  cases mode <;> exact ⟨rfl, rfl⟩

/-- A text from outside arrives as it is. The exported panic does in every session what a panic with
the text does, wherever the bytes of the text end, as it does for other bytes up to the first zero
byte with each maximal invalid part replaced, and for the null pointer with a fixed text. The
arguments arrive one by one, and those that are text are this text. Nor do invalid bytes take
anything from a text that stands among them. -/
theorem text_crosses_boundary :
    (∀ bytes, ∃! text, IsLossy bytes text) ∧
    (∀ (before : List UInt8) (text : String), 0 ∉ before → IsLossy before text →
      callPanic (some before) = emit text ∧
      ∀ after, callPanic (some (before ++ 0 :: after)) = emit text) ∧
    (∀ text : String, '\x00' ∉ text.toList →
      callPanic (some (encode text)) = emit text ∧
      ∀ after, callPanic (some (encode text ++ 0 :: after)) = emit text) ∧
    callPanic none = emit "<no message>" ∧
    (∀ (message : String) (p : Session),
      ((emit message).run p).diagnostics = ["Panic: " ++ message] ∧
      ((emit message).run p).value? =
        if p.effective.proceeds then some ((), p.after .asks) else none) ∧
    (∀ raw : List (List UInt8),
      List.Forall₂ (fun bytes argument => IsLossy bytes argument ∧
        ∀ text, bytes = encode text → argument = text) raw (Entry.decodeArguments raw)) ∧
    (∀ (before after : List UInt8) (text : String), text ≠ "" →
      decodeLossy (before ++ encode text ++ after) =
        decodeLossy before ++ text ++ decodeLossy after) := by
  have hpanic : ∀ (before : List UInt8) (text : String), 0 ∉ before → text = decodeLossy before →
      callPanic (some before) = emit text ∧
      ∀ after, callPanic (some (before ++ 0 :: after)) = emit text := by
    rintro before text hzero rfl
    exact ⟨congrArg emit (messageAt_eq hzero),
      fun after => congrArg emit (messageAt_append hzero after)⟩
  refine ⟨fun bytes => ?_, fun before text hzero hlossy => ?_, fun text hzero => ?_, rfl, emit_spec,
    fun raw => ?_, fun before after text htext => Utf8.decodeLossy_append before htext after⟩
  · simp only [Utf8.isLossy_iff, existsUnique_eq]
  · exact hpanic before text hzero (Utf8.isLossy_iff.1 hlossy)
  · exact hpanic _ text (Utf8.zero_notMem_encode hzero) (Utf8.decodeLossy_encode text).symm
  · refine List.forall₂_map_right_iff.2 (List.forall₂_same.2 fun bytes _ => ?_)
    refine ⟨Utf8.isLossy_iff.2 rfl, ?_⟩
    rintro text rfl
    exact Utf8.decodeLossy_encode text

/-- A text of characters of one to four bytes, and the same with a character cut off and a zero byte
behind it. -/
theorem cut_character_is_replaced :
    let text := "aé€😀"
    let before := encode text ++ [0xf0, 0x9f]
    callPanic (some (before ++ 0 :: encode "more")) = emit "aé€😀\uFFFD" ∧
      callPanic (some (encode text)) = emit text := by
  intro text before
  obtain ⟨-, hlossy, hexact, -⟩ := text_crosses_boundary
  have hbefore : IsLossy before "aé€😀\uFFFD" := Utf8.isLossy_iff.2 (by decide +kernel)
  exact ⟨(hlossy before _ (by decide +kernel) hbefore).2 _, (hexact text (by decide +kernel)).1⟩

end CheckedExecution.Session
