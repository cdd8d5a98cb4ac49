import CheckedExecution.FixedInt.Overflowing
import CheckedExecution.FixedInt.Literal

/-!
# Checked arithmetic

`evaluate` applies one of the five operations to two values of a type. Where the exact result does
not fit, or the divisor is zero, it yields a fault together with a fallback value: the wrapped
result for an overflow, and the left operand for a zero divisor. The fault names the operation, its
kind and the decimal text of both operands, and `Fault.message` is its report.
-/

namespace CheckedExecution

/-- The checked operations. -/
inductive ArithmeticOp where
  | add | sub | mul | div | mod
  deriving DecidableEq

namespace ArithmeticOp

/-- Every operation. -/
def all : List ArithmeticOp :=
  [add, sub, mul, div, mod]

/-- The short name that selects the operation. -/
def name : ArithmeticOp → String
  | add => "add"
  | sub => "sub"
  | mul => "mul"
  | div => "div"
  | mod => "mod"

/-- The operation of a short name, which is matched exactly. -/
def ofName? (text : String) : Option ArithmeticOp :=
  all.find? fun op => op.name == text

/-- What the operation is called in a report. -/
def noun : ArithmeticOp → String
  | add => "addition"
  | sub => "subtraction"
  | mul => "multiplication"
  | div => "division"
  | mod => "modulo"

/-- The sign written between the operands. -/
def symbol : ArithmeticOp → String
  | add => "+"
  | sub => "-"
  | mul => "*"
  | div => "/"
  | mod => "%"

end ArithmeticOp

/-- Why an operation has no result. -/
inductive FaultKind where
  | overflow
  | divisionByZero
  deriving DecidableEq

/-- The kind as it is written in a report. -/
def FaultKind.text : FaultKind → String
  | .overflow => "Overflow"
  | .divisionByZero => "Division by zero"

/-- An operation that has no result, with the text of its operands. -/
structure Fault where
  op : ArithmeticOp
  kind : FaultKind
  lhs : String
  rhs : String
  deriving DecidableEq

/-- The report of a fault. -/
def Fault.message (f : Fault) : String :=
  f.kind.text ++ " in checked " ++ f.op.noun ++ " '" ++ f.lhs ++ " " ++ f.op.symbol ++ " " ++
    f.rhs ++ "'"

/-- A fault and the value that stands in for the missing result. -/
structure Faulted (t : IntType) where
  fault : Fault
  fallback : FixedInt t
  deriving DecidableEq

variable {t : IntType}

/-- The result of the operation with its overflow, and nothing for a zero divisor. -/
def ArithmeticOp.overflowing? (op : ArithmeticOp) (a b : FixedInt t) : Option (FixedInt t × Bool) :=
  match op with
  | .add => some (a.overflowingAdd b)
  | .sub => some (a.overflowingSub b)
  | .mul => some (a.overflowingMul b)
  | .div => a.overflowingDiv? b
  | .mod => a.overflowingRem? b

/-- The result of the operation, or the fault with its fallback. -/
def evaluate (op : ArithmeticOp) (a b : FixedInt t) : Except (Faulted t) (FixedInt t) :=
  match op.overflowing? a b with
  | none => .error ⟨⟨op, .divisionByZero, a.toDecimal, b.toDecimal⟩, a⟩
  | some (wrapped, true) => .error ⟨⟨op, .overflow, a.toDecimal, b.toDecimal⟩, wrapped⟩
  | some (exact, false) => .ok exact

end CheckedExecution
