import CheckedExecution.Proofs.FixedInt.Residue
import Mathlib.Data.List.Nodup

/-!
# Consecutive values

Counting up from a value passes from the greatest value of a type to the least. `consecutive` lists
what is counted. As many values as the type has are all different (`nodup_consecutive`), and values
that do not pass the greatest one are an interval in increasing order (`mem_consecutive_iff`,
`pairwise_consecutive`).
-/

namespace CheckedExecution.FixedInt

variable {t : IntType}

/-- So many values from the integer on, wrapped around. -/
def consecutive (t : IntType) (first : Int) (count : Nat) : List (FixedInt t) :=
  (List.range count).map fun i : Nat => wrap t (first + i)

/-- There are as many values as are counted. -/
@[simp]
theorem length_consecutive (first : Int) (count : Nat) :
    (consecutive t first count).length = count := by
  simp [consecutive]

/-- Counting nothing. -/
@[simp]
theorem consecutive_zero (first : Int) : consecutive t first 0 = [] := rfl

/-- Counting on is counting from where one was. -/
theorem consecutive_add (first : Int) (m n : Nat) :
    consecutive t first (m + n) = consecutive t first m ++ consecutive t (first + m) n := by
  unfold consecutive
  rw [List.range_add, List.map_append, List.map_map]
  congr 1
  apply List.map_congr_left
  intro i _
  show wrap t (first + ((m + i : Nat) : Int)) = wrap t (first + m + i)
  rw [Nat.cast_add, Int.add_assoc]

/-- The first value and those behind it. -/
theorem consecutive_succ (first : Int) (count : Nat) :
    consecutive t first (count + 1) = wrap t first :: consecutive t (first + 1) count := by
  have hfirst : consecutive t first 1 = [wrap t first] := by
    simp [consecutive]
  rw [Nat.add_comm, consecutive_add, hfirst]
  rfl

/-- What is counted depends on the residue class of the integer that is counted from. -/
theorem consecutive_congr {v w : Int} (h : v ≡ w [ZMOD 2 ^ t.bits]) (count : Nat) :
    consecutive t v count = consecutive t w count := by
  apply List.map_congr_left
  intro i _
  exact wrap_eq_wrap_iff.2 (h.add_right i)

/-- Counting less than the number of values comes to a value once. -/
theorem eq_of_wrap_add_eq {v : Int} {i j : Nat} (hi : i < 2 ^ t.bits) (hj : j < 2 ^ t.bits)
    (h : wrap t (v + i) = wrap t (v + j)) : i = j := by
  have hij : (i : Int) ≡ j [ZMOD ((2 ^ t.bits : Nat) : Int)] := by
    rw [Nat.cast_pow]
    exact (wrap_eq_wrap_iff.1 h).add_left_cancel'
  exact (Int.natCast_modEq_iff.1 hij).eq_of_lt_of_lt hi hj

/-- No value is counted twice if no more are counted than the type has. -/
theorem nodup_consecutive {first : Int} {count : Nat} (h : count ≤ 2 ^ t.bits) :
    (consecutive t first count).Nodup := by
  apply List.Nodup.map_on
  · intro i hi j hj hij
    rw [List.mem_range] at hi hj
    exact eq_of_wrap_add_eq (by omega) (by omega) hij
  · exact List.nodup_range

section Interval

variable {first : Int} {count : Nat} (hfirst : t.minValue ≤ first)
  (hlast : first + count ≤ t.maxValue + 1)
include hfirst hlast

/-- Up to the greatest value nothing wraps around. -/
theorem toInt_wrap_add {i : Nat} (hi : i < count) : (wrap t (first + i)).toInt = first + i :=
  toInt_wrap_of_contains ⟨by omega, by omega⟩

/-- Up to the greatest value, exactly the values between the bounds are counted. -/
theorem mem_consecutive_iff {v : FixedInt t} :
    v ∈ consecutive t first count ↔ first ≤ v.toInt ∧ v.toInt < first + count := by
  simp only [consecutive, List.mem_map, List.mem_range]
  constructor
  · rintro ⟨i, hi, rfl⟩
    rw [toInt_wrap_add hfirst hlast hi]
    omega
  · intro h
    refine ⟨(v.toInt - first).toNat, by omega, ?_⟩
    rw [show first + ((v.toInt - first).toNat : Int) = v.toInt by omega, wrap_toInt]

/-- Up to the greatest value they are counted in increasing order. -/
theorem pairwise_consecutive :
    (consecutive t first count).Pairwise fun v w => v.toInt < w.toInt := by
  rw [consecutive, List.pairwise_map]
  apply List.pairwise_lt_range.imp_of_mem
  intro i j hi hj hij
  rw [List.mem_range] at hi hj
  rw [toInt_wrap_add hfirst hlast hi, toInt_wrap_add hfirst hlast hj]
  omega

end Interval

end CheckedExecution.FixedInt
