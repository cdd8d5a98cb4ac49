import CheckedExecution.Arithmetic
import CheckedExecution.Proofs.Arithmetic.Division
import CheckedExecution.Proofs.Text.Decimal

/-!
# Checked arithmetic against exact arithmetic

Each operation has an exact meaning on integers, and `Evaluates` says in those terms what checked
arithmetic has to answer: which fault, if any, and which value. An operation is gauged by the
integer that has to be a value of the type. That is its result, except for the remainder, which is
gauged by the quotient. The main theorem, `evaluate_agrees_with_exact`, says that `evaluate` gives
the answer of `Evaluates` and no other.
-/

namespace CheckedExecution

namespace ArithmeticOp

/-- The operation has a divisor. -/
def Divides (op : ArithmeticOp) : Prop :=
  op = .div ∨ op = .mod

/-- `op.Exact a b v` says that `v` is the result of the operation on `a` and `b`. A division by zero
has none. -/
def Exact : ArithmeticOp → Int → Int → Int → Prop
  | .add, a, b, v => v = a + b
  | .sub, a, b, v => v = a - b
  | .mul, a, b, v => v = a * b
  | .div, a, b, v => ∃ r, TruncatedDivision a b v r
  | .mod, a, b, v => ∃ q, TruncatedDivision a b q v

/-- `op.Gauge a b g` says that `g` is the integer that has to be a value of the type: the quotient
for both divisions, and the result for the other operations. -/
def Gauge : ArithmeticOp → Int → Int → Int → Prop
  | .mod, a, b, g => Exact .div a b g
  | op, a, b, g => op.Exact a b g

variable {t : IntType} {op : ArithmeticOp}

/-- The value that stands in for the result where the gauge is no value of the type: zero for the
remainder, and the value congruent to the gauge for the other operations. -/
def IsFallback (op : ArithmeticOp) (g : Int) (c : FixedInt t) : Prop :=
  if op = .mod then c.toInt = 0 else c.toInt ≡ g [ZMOD 2 ^ t.bits]

/-- An operation has a result and a gauge unless it divides by zero. -/
theorem exists_gauge_exact {a b : Int} (h : ¬ (op.Divides ∧ b = 0)) :
    ∃ g v, op.Gauge a b g ∧ op.Exact a b v := by
  have hdivision (hdivides : op.Divides) :
      TruncatedDivision a b (a.tdiv b) (a.tmod b) :=
    truncatedDivision_iff.2 ⟨fun hb => h ⟨hdivides, hb⟩, rfl, rfl⟩
  cases op with
  | add => exact ⟨_, _, rfl, rfl⟩
  | sub => exact ⟨_, _, rfl, rfl⟩
  | mul => exact ⟨_, _, rfl, rfl⟩
  | div => exact ⟨_, _, ⟨_, hdivision (.inl rfl)⟩, ⟨_, hdivision (.inl rfl)⟩⟩
  | mod => exact ⟨_, _, ⟨_, hdivision (.inr rfl)⟩, ⟨_, hdivision (.inr rfl)⟩⟩

/-- A division by zero has no gauge. -/
theorem not_gauge_of_zero {a b g : Int} (hdivides : op.Divides) (hb : b = 0) :
    ¬ op.Gauge a b g := by
  rcases hdivides with rfl | rfl <;>
    exact fun ⟨_, h⟩ => (truncatedDivision_iff.1 h).1 hb

/-- A division by zero is not applied. -/
theorem overflowing?_of_zero {a b : FixedInt t} (hdivides : op.Divides) (hb : b.toInt = 0) :
    op.overflowing? a b = none := by
  rcases hdivides with rfl | rfl
  · simp [overflowing?, FixedInt.overflowingDiv?, hb]
  · simp [overflowing?, FixedInt.overflowingRem?, hb]

/-- Any other operation is applied: it wraps its result, and its flag says whether the gauge lies
outside of the type. -/
theorem overflowing?_of_gauge {a b : FixedInt t} {g v : Int} (hg : op.Gauge a.toInt b.toInt g)
    (hv : op.Exact a.toInt b.toInt v) :
    op.overflowing? a b = some (FixedInt.wrap t v, !decide (t.Contains g)) := by
  cases op with
  | add => obtain ⟨rfl, rfl⟩ := And.intro hg hv; rfl
  | sub => obtain ⟨rfl, rfl⟩ := And.intro hg hv; rfl
  | mul => obtain ⟨rfl, rfl⟩ := And.intro hg hv; rfl
  | div =>
      obtain ⟨⟨_, hg⟩, _, hv⟩ := And.intro hg hv
      obtain ⟨hb, rfl, -⟩ := truncatedDivision_iff.1 hg
      obtain ⟨-, rfl, -⟩ := truncatedDivision_iff.1 hv
      simp [overflowing?, FixedInt.overflowingDiv?, FixedInt.overflowing, hb]
  | mod =>
      obtain ⟨⟨_, hg⟩, _, hv⟩ := And.intro hg hv
      obtain ⟨hb, rfl, -⟩ := truncatedDivision_iff.1 hg
      obtain ⟨-, -, rfl⟩ := truncatedDivision_iff.1 hv
      simp [overflowing?, FixedInt.overflowingRem?, FixedInt.overflowing, hb]

/-- Only the remainder is gauged by something other than the result. -/
theorem exact_cases {a b g v : Int} (hg : op.Gauge a b g) (hv : op.Exact a b v) :
    op ≠ .mod ∧ v = g ∨ op = .mod ∧ g = a.tdiv b ∧ v = a.tmod b := by
  cases op with
  | add | sub | mul => exact .inl ⟨by decide, hv.trans hg.symm⟩
  | div =>
      obtain ⟨⟨_, hg⟩, _, hv⟩ := And.intro hg hv
      obtain ⟨-, rfl, -⟩ := truncatedDivision_iff.1 hg
      exact .inl ⟨by decide, (truncatedDivision_iff.1 hv).2.1⟩
  | mod =>
      obtain ⟨⟨_, hg⟩, _, hv⟩ := And.intro hg hv
      exact .inr ⟨rfl, (truncatedDivision_iff.1 hg).2.1, (truncatedDivision_iff.1 hv).2.2⟩

variable {a b : FixedInt t} {g v : Int}

/-- Where the gauge is a value of the type, so is the result. -/
theorem contains_exact (hg : op.Gauge a.toInt b.toInt g) (hv : op.Exact a.toInt b.toInt v)
    (hin : t.Contains g) : t.Contains v := by
  rcases exact_cases hg hv with ⟨-, rfl⟩ | ⟨-, -, rfl⟩
  · exact hin
  · exact FixedInt.contains_tmod a b.toInt

/-- Where the gauge is no value of the type, the wrapped result is the one fallback. -/
theorem isFallback_iff (hg : op.Gauge a.toInt b.toInt g) (hv : op.Exact a.toInt b.toInt v)
    (hout : ¬ t.Contains g) {c : FixedInt t} : op.IsFallback g c ↔ c = FixedInt.wrap t v := by
  rcases exact_cases hg hv with ⟨hop, rfl⟩ | ⟨hop, rfl, rfl⟩
  · rw [IsFallback, if_neg hop, FixedInt.eq_wrap_iff]
  · -- The quotient lies outside only for the least value and minus one, which leave no remainder.
    rw [IsFallback, if_pos hop, FixedInt.tmod_eq_zero_of_not_contains_tdiv a b hout,
      FixedInt.ext_iff, FixedInt.toInt_wrap_of_contains t.contains_zero]

end ArithmeticOp

variable {t : IntType}

/-- What checked arithmetic has to answer, in terms of the exact result and its gauge. -/
inductive Evaluates (op : ArithmeticOp) (a b : FixedInt t) :
    Except (Faulted t) (FixedInt t) → Prop where
  /-- A division by zero is a fault, and the dividend stands in for the result. -/
  | zeroDivisor : op.Divides → b.toInt = 0 →
      Evaluates op a b (.error ⟨⟨op, .divisionByZero, a.toDecimal, b.toDecimal⟩, a⟩)
  /-- A gauge outside of the type is a fault. -/
  | overflow (gauge : Int) (fallback : FixedInt t) :
      op.Gauge a.toInt b.toInt gauge → ¬ t.Contains gauge → op.IsFallback gauge fallback →
      Evaluates op a b (.error ⟨⟨op, .overflow, a.toDecimal, b.toDecimal⟩, fallback⟩)
  /-- Otherwise the answer is the exact result. -/
  | exact (gauge : Int) (result : FixedInt t) :
      op.Gauge a.toInt b.toInt gauge → t.Contains gauge →
      op.Exact a.toInt b.toInt result.toInt →
      Evaluates op a b (.ok result)

variable {op : ArithmeticOp} {a b : FixedInt t} {g v : Int}

/-- A division by zero. -/
theorem evaluate_of_zero (hdivides : op.Divides) (hb : b.toInt = 0) :
    evaluate op a b = .error ⟨⟨op, .divisionByZero, a.toDecimal, b.toDecimal⟩, a⟩ := by
  rw [evaluate, ArithmeticOp.overflowing?_of_zero hdivides hb]

/-- An operation whose gauge is no value of the type. -/
theorem evaluate_of_not_contains (hg : op.Gauge a.toInt b.toInt g)
    (hv : op.Exact a.toInt b.toInt v) (hout : ¬ t.Contains g) :
    evaluate op a b =
      .error ⟨⟨op, .overflow, a.toDecimal, b.toDecimal⟩, FixedInt.wrap t v⟩ := by
  simp [evaluate, ArithmeticOp.overflowing?_of_gauge hg hv, hout]

/-- An operation whose gauge is a value of the type. -/
theorem evaluate_of_contains (hg : op.Gauge a.toInt b.toInt g)
    (hv : op.Exact a.toInt b.toInt v) (hin : t.Contains g) :
    evaluate op a b = .ok (FixedInt.wrap t v) := by
  simp [evaluate, ArithmeticOp.overflowing?_of_gauge hg hv, hin]

/-- What `evaluate` answers is what it has to answer. -/
theorem evaluates_evaluate (op : ArithmeticOp) (a b : FixedInt t) :
    Evaluates op a b (evaluate op a b) := by
  by_cases hzero : op.Divides ∧ b.toInt = 0
  · rw [evaluate_of_zero hzero.1 hzero.2]
    exact .zeroDivisor hzero.1 hzero.2
  · obtain ⟨g, v, hg, hv⟩ := ArithmeticOp.exists_gauge_exact hzero
    by_cases hin : t.Contains g
    · have hexact : op.Exact a.toInt b.toInt (FixedInt.wrap t v).toInt := by
        rw [FixedInt.toInt_wrap_of_contains (ArithmeticOp.contains_exact hg hv hin)]
        exact hv
      rw [evaluate_of_contains hg hv hin]
      exact .exact g _ hg hin hexact
    · rw [evaluate_of_not_contains hg hv hin]
      exact .overflow g _ hg hin ((ArithmeticOp.isFallback_iff hg hv hin).2 rfl)

/-- Nothing else has to be answered. -/
theorem evaluate_of_evaluates {outcome : Except (Faulted t) (FixedInt t)}
    (h : Evaluates op a b outcome) : evaluate op a b = outcome := by
  cases h with
  | zeroDivisor hdivides hb => exact evaluate_of_zero hdivides hb
  | overflow g fallback hg hout hfallback =>
      obtain ⟨_, v, -, hv⟩ := ArithmeticOp.exists_gauge_exact
        fun hzero => ArithmeticOp.not_gauge_of_zero hzero.1 hzero.2 hg
      rw [evaluate_of_not_contains hg hv hout,
        (ArithmeticOp.isFallback_iff hg hv hout).1 hfallback]
  | exact g result hg hin hexact =>
      rw [evaluate_of_contains hg hexact hin, FixedInt.wrap_toInt]

/-- `evaluate` agrees with exact integer arithmetic. It faults for a zero divisor exactly where the
operation divides by zero, and for an overflow exactly where the gauge is no value of the type. One
value of the type is congruent to any gauge, so `Evaluates` leaves no choice of the fallback, and
the text of an operand is the one canonical decimal of its integer. -/
theorem evaluate_agrees_with_exact (op : ArithmeticOp) (a b : FixedInt t) :
    (∀ outcome, evaluate op a b = outcome ↔ Evaluates op a b outcome) ∧
    ((∃ f, evaluate op a b = .error f ∧ f.fault.kind = .divisionByZero) ↔
      op.Divides ∧ b.toInt = 0) ∧
    ((∃ f, evaluate op a b = .error f ∧ f.fault.kind = .overflow) ↔
      ∃ g, op.Gauge a.toInt b.toInt g ∧ ¬ t.Contains g) ∧
    (∀ g : Int, ∃! c : FixedInt t, c.toInt ≡ g [ZMOD 2 ^ t.bits]) ∧
    ∀ (c : FixedInt t) (text : String), text = c.toDecimal ↔
      Decimal.IsCanonical text.toList ∧ Decimal.Denotes true text.toList c.toInt := by
  have hevaluates := evaluates_evaluate op a b
  refine ⟨fun outcome => ⟨?_, evaluate_of_evaluates⟩, ⟨?_, ?_⟩, ⟨?_, ?_⟩, fun g => ?_,
    fun c text => Decimal.eq_ofList_ofInt_iff⟩
  · rintro rfl
    exact hevaluates
  · rintro ⟨f, hf, hkind⟩
    rw [hf] at hevaluates
    cases hevaluates with
    | zeroDivisor hdivides hb => exact ⟨hdivides, hb⟩
    | overflow => cases hkind
  · rintro ⟨hdivides, hb⟩
    exact ⟨_, evaluate_of_zero hdivides hb, rfl⟩
  · rintro ⟨f, hf, hkind⟩
    rw [hf] at hevaluates
    cases hevaluates with
    | zeroDivisor => cases hkind
    | overflow g _ hg hout => exact ⟨g, hg, hout⟩
  · rintro ⟨g, hg, hout⟩
    obtain ⟨_, v, -, hv⟩ := ArithmeticOp.exists_gauge_exact
      fun hzero => ArithmeticOp.not_gauge_of_zero hzero.1 hzero.2 hg
    exact ⟨_, evaluate_of_not_contains hg hv hout, rfl⟩
  · exact ⟨FixedInt.wrap t g, FixedInt.wrap_modEq t g, fun _ => FixedInt.eq_wrap_iff.2⟩

end CheckedExecution
