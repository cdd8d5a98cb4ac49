import CheckedExecution.FixedInt
import CheckedExecution.Text.Character
import CheckedExecution.Text.Decimal

/-!
# Integer literals

A literal is read with the white space at its ends removed. It is an optional sign and one or more
ASCII digits that denote a value of the type. The minus sign belongs to signed types only. A literal
that is refused is reported with its text as given, white space included.
-/

namespace CheckedExecution

/-- The text that was refused as a literal of the type. -/
structure LiteralError where
  type : IntType
  text : String
  deriving DecidableEq

/-- The report of a refused literal. -/
def LiteralError.message (e : LiteralError) : String :=
  "Invalid " ++ e.type.name ++ " literal `" ++ e.text ++ "`"

namespace FixedInt

variable {t : IntType}

/-- The canonical decimal text of the value. -/
def toDecimal (a : FixedInt t) : String :=
  String.ofList (Decimal.ofInt a.toInt)

/-- The value that the characters write, with nothing around the sign and the digits. -/
def ofDecimal? (t : IntType) (text : List Char) : Option (FixedInt t) :=
  (Decimal.toInt? t.signed text).bind (ofInt? t)

/-- The value of a literal, white space at its ends left aside. -/
def ofLiteral (t : IntType) (text : String) : Except LiteralError (FixedInt t) :=
  match ofDecimal? t (Text.trim text.toList) with
  | some value => .ok value
  | none => .error ⟨t, text⟩

end FixedInt

end CheckedExecution
