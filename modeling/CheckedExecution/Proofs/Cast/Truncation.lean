import CheckedExecution.Proofs.Cast.Policies

/-!
# Truncation after truncation

Truncating to a type takes the residue modulo two to its width. A type that is not narrower keeps
this residue whatever its sign, although it fills the bits above with copies of its own sign or with
zeros, so nothing that a chain of casts does above the target's width is seen in the end. The main
theorem, `truncations_compose`, says so of two casts, of a cast and the cast back, and of two values
that are truncated to one.
-/

namespace CheckedExecution

variable {α β : Type} [Castable α] [Castable β] {middle target : IntType}

/-- A truncation on the way to a type that is not wider is not seen. -/
theorem truncatingCast_truncatingCast (h : target.bits ≤ middle.bits) (value : α) :
    truncatingCast target (truncatingCast middle value) = truncatingCast target value := by
  rw [truncatingCast_eq_wrap middle value, truncatingCast_wrap h, ← truncatingCast_eq_wrap]

/-- Truncating a value to its own type leaves it. -/
theorem truncatingCast_self {t : IntType} (a : FixedInt t) : truncatingCast t a = a :=
  FixedInt.ofPattern_toPattern a

/-- Values are truncated to one value exactly if they lie in one residue class. -/
theorem truncatingCast_eq_iff {x : α} {y : β} :
    truncatingCast target x = truncatingCast target y ↔
      (castSource x).toInt ≡ (castSource y).toInt [ZMOD 2 ^ target.bits] := by
  rw [truncatingCast_eq_wrap, truncatingCast_eq_wrap, FixedInt.wrap_eq_wrap_iff]

/-- A cast to a type that is not narrower is taken back by the cast to the source. -/
theorem truncatingCast_back {source : IntType} (h : source.bits ≤ target.bits)
    (a : FixedInt source) : truncatingCast source (truncatingCast target a) = a := by
  rw [truncatingCast_truncatingCast h, truncatingCast_self]

/-- Truncations compose, whatever the signs of the types: a truncation on the way to a type that is
not wider is not seen in the result. A truncation to a type that is not narrower can be taken back.
Two values, be they of different types, are truncated to one value exactly if they are congruent
modulo two to the width. -/
theorem truncations_compose :
    (∀ (α : Type) [Castable α] (middle target : IntType) (value : α),
      target.bits ≤ middle.bits →
        truncatingCast target (truncatingCast middle value) = truncatingCast target value) ∧
    (∀ (source target : IntType) (a : FixedInt source),
      source.bits ≤ target.bits →
        truncatingCast source (truncatingCast target a) = a) ∧
    (∀ (α β : Type) [Castable α] [Castable β] (target : IntType) (x : α) (y : β),
      truncatingCast target x = truncatingCast target y ↔
        (castSource x).toInt ≡ (castSource y).toInt [ZMOD 2 ^ target.bits]) := by
  refine ⟨?_, ?_, ?_⟩
  · intro α _ middle target value h
    exact truncatingCast_truncatingCast h value
  · intro source target a h
    exact truncatingCast_back h a
  · intro α β _ _ target x y
    exact truncatingCast_eq_iff

/-- The zeros that an unsigned type has above a negative value of eight bits, and the ones that its
sign would fill in there, are cut off together. -/
theorem zeros_above_are_cut_off :
    IntType.bits .i16 ≤ IntType.bits .u32 ∧
    truncatingCast .u32 (⟨-1, by decide⟩ : FixedInt .i8) = ⟨4294967295, by decide⟩ ∧
    truncatingCast .i16 (⟨4294967295, by decide⟩ : FixedInt .u32) =
      truncatingCast .i16 (⟨-1, by decide⟩ : FixedInt .i8) := by
  have hwidth : IntType.bits .i16 ≤ IntType.bits .u32 := by decide
  have hmiddle : truncatingCast .u32 (⟨-1, by decide⟩ : FixedInt .i8) =
      ⟨4294967295, by decide⟩ := by decide
  obtain ⟨hcompose, -, -⟩ := truncations_compose
  refine ⟨hwidth, hmiddle, ?_⟩
  rw [← hmiddle]
  exact hcompose (FixedInt .i8) .u32 .i16 ⟨-1, by decide⟩ hwidth

end CheckedExecution
