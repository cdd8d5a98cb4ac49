import CheckedExecution.Range
import CheckedExecution.Proofs.FixedInt.Consecutive

/-!
# The values of a range

A range yields as many values as its stop lies ahead of its current value, counted modulo the number
of values of the type (`remaining`). A call of `next` that yields a value brings this number down
(`remaining_lt_of_next`), so the range comes to its end, and its values until then are its `items`.
The fields of a range may be assigned between two calls, and a program is a list of calls and
assignments. What a range does after any program follows from its fields alone, which is the main
theorem, `range_counts_to_stop`. A range from a start to a stop is the case in which the values are
an interval, or the two ends of the type.
-/

namespace CheckedExecution.Range

open FixedInt

variable {t : IntType}

/-! ## One call -/

/-- How far the stop lies ahead of the current value. -/
def remaining (r : Range t) : Nat :=
  ((r.stop.toInt - r.current.toInt) % 2 ^ t.bits).toNat

/-- The range with its current value counted on. -/
def moved (r : Range t) (count : Nat) : Range t :=
  { r with current := wrap t (r.current.toInt + count) }

/-- The distance as an integer. -/
theorem natCast_remaining (r : Range t) :
    (r.remaining : Int) = (r.stop.toInt - r.current.toInt) % 2 ^ t.bits := by
  have hne : (2 : Int) ^ t.bits ≠ 0 := ne_of_gt t.modulus_pos
  exact Int.toNat_of_nonneg (Int.emod_nonneg _ hne)

/-- The stop is less far ahead than the type has values. -/
theorem remaining_lt (r : Range t) : r.remaining < 2 ^ t.bits := by
  have hlt : (r.stop.toInt - r.current.toInt) % 2 ^ t.bits < 2 ^ t.bits :=
    Int.emod_lt_of_pos _ t.modulus_pos
  rw [← natCast_remaining] at hlt
  exact_mod_cast hlt

/-- Counting on by the distance comes to the stop. -/
theorem wrap_add_remaining (r : Range t) : wrap t (r.current.toInt + r.remaining) = r.stop := by
  symm
  rw [eq_wrap_iff, natCast_remaining]
  calc r.stop.toInt = r.current.toInt + (r.stop.toInt - r.current.toInt) := by omega
    _ ≡ r.current.toInt + (r.stop.toInt - r.current.toInt) % 2 ^ t.bits [ZMOD 2 ^ t.bits] :=
      (Int.mod_modEq _ _).symm.add_left _

/-- Where the stop is the current value no distance is left. -/
theorem remaining_of_eq {r : Range t} (h : r.current = r.stop) : r.remaining = 0 := by
  simp [remaining, h]

/-- Elsewhere some distance is left. -/
theorem remaining_pos {r : Range t} (h : r.current ≠ r.stop) : 0 < r.remaining := by
  apply Nat.pos_of_ne_zero
  intro hzero
  apply h
  rw [← wrap_add_remaining r, hzero, Nat.cast_zero, Int.add_zero, wrap_toInt]

/-- Counting on by nothing. -/
theorem moved_zero (r : Range t) : r.moved 0 = r := by
  rw [moved, Nat.cast_zero, Int.add_zero, wrap_toInt]

/-- Counting on twice. -/
theorem moved_moved (r : Range t) (j k : Nat) : (r.moved j).moved k = r.moved (j + k) := by
  show ({ r with current := _ } : Range t) = { r with current := _ }
  congr 1
  apply wrap_eq_wrap_iff.2
  rw [Nat.cast_add, ← Int.add_assoc]
  exact (wrap_modEq t _).add_right k

/-- Counting on takes away from the distance. -/
theorem remaining_moved {r : Range t} {k : Nat} (h : k ≤ r.remaining) :
    (r.moved k).remaining = r.remaining - k := by
  have hlt := (r.moved k).remaining_lt
  have hr := r.remaining_lt
  -- Both distances lead from the moved value to the stop.
  apply eq_of_wrap_add_eq hlt (by omega)
  rw [wrap_add_remaining (r.moved k), Nat.cast_sub h]
  show r.stop = wrap t ((wrap t (r.current.toInt + k)).toInt + _)
  rw [← wrap_add_remaining r]
  apply wrap_eq_wrap_iff.2
  calc r.current.toInt + (r.remaining : Int)
      = r.current.toInt + k + (r.remaining - k) := by omega
    _ ≡ (wrap t (r.current.toInt + k)).toInt + (r.remaining - k) [ZMOD 2 ^ t.bits] :=
      (wrap_modEq t _).symm.add_right _

/-- At its stop a range yields nothing and stays. -/
theorem next_of_eq {r : Range t} (h : r.current = r.stop) : r.next = (none, r) :=
  if_pos h

/-- Elsewhere it yields its current value and counts on by one. -/
theorem next_of_ne {r : Range t} (h : r.current ≠ r.stop) :
    r.next = (some r.current, r.moved 1) :=
  if_neg h

/-- One call more is one step more, as long as there is one. -/
theorem moved_next (r : Range t) (count : Nat) :
    r.next.2.moved (min count r.next.2.remaining) = r.moved (min (count + 1) r.remaining) := by
  by_cases hstop : r.current = r.stop
  · rw [next_of_eq hstop, remaining_of_eq hstop, Nat.min_zero, Nat.min_zero]
  · have hpos := remaining_pos hstop
    have hmin : 1 + min count (r.remaining - 1) = min (count + 1) r.remaining := by omega
    rw [next_of_ne hstop, moved_moved, remaining_moved hpos, hmin]

/-! ## Calls until the end -/

/-- A range that has yielded a value has less far to go. -/
theorem remaining_lt_of_next {r rest : Range t} {value : FixedInt t}
    (h : r.next = (some value, rest)) : rest.remaining < r.remaining := by
  by_cases hstop : r.current = r.stop
  · rw [next_of_eq hstop] at h
    cases h
  · have hpos := remaining_pos hstop
    rw [next_of_ne hstop] at h
    cases h
    rw [remaining_moved hpos]
    omega

/-- The values that a range yields until it yields none. -/
def items (r : Range t) : List (FixedInt t) :=
  match _hnext : r.next with
  | (none, _) => []
  | (some value, rest) => value :: rest.items
termination_by r.remaining
decreasing_by exact remaining_lt_of_next _hnext

/-- At its stop a range has no values left. -/
theorem items_of_eq {r : Range t} (h : r.current = r.stop) : r.items = [] := by
  rw [items]
  split
  · rfl
  · rename_i hnext
    rw [next_of_eq h] at hnext
    cases hnext

/-- Elsewhere it has its current value and those of the range counted on by one. -/
theorem items_of_ne {r : Range t} (h : r.current ≠ r.stop) :
    r.items = r.current :: (r.moved 1).items := by
  rw [items]
  split
  · rename_i hnext
    rw [next_of_ne h] at hnext
    cases hnext
  · rename_i hnext
    rw [next_of_ne h] at hnext
    cases hnext
    rfl

/-- The values of a range are the ones from its current value on, as many as the distance. -/
theorem items_eq (r : Range t) : r.items = consecutive t r.current.toInt r.remaining := by
  induction hn : r.remaining generalizing r with
  | zero =>
      have hstop : r.current = r.stop := by
        by_contra h
        exact absurd (remaining_pos h) (by omega)
      rw [items_of_eq hstop, consecutive_zero]
  | succ n ih =>
      have hstop : r.current ≠ r.stop := by
        intro h
        rw [remaining_of_eq h] at hn
        cases hn
      have hmoved : (r.moved 1).remaining = n := by
        rw [remaining_moved (by omega), hn]
        rfl
      rw [items_of_ne hstop, ih (r.moved 1) hmoved, consecutive_succ, wrap_toInt]
      congr 1
      exact consecutive_congr (wrap_modEq t _) n

/-- A range has as many values as the distance. -/
@[simp]
theorem length_items (r : Range t) : r.items.length = r.remaining := by
  rw [items_eq, length_consecutive]

/-- The values of a range by their positions. -/
theorem getElem?_items (r : Range t) (i : Nat) :
    r.items[i]? = if i < r.remaining then some (wrap t (r.current.toInt + i)) else none := by
  rw [items_eq, consecutive, List.getElem?_map]
  split
  · rename_i hlt
    rw [List.getElem?_range hlt]
    rfl
  · rename_i hle
    rw [List.getElem?_eq_none (by simpa using hle)]
    rfl

/-- Up to so many values are taken from the front. -/
theorem take_eq (r : Range t) (count : Nat) :
    r.take count = (r.items.take count, r.moved (min count r.remaining)) := by
  induction count generalizing r with
  | zero =>
      rw [Nat.zero_min, moved_zero]
      rfl
  | succ count ih =>
      rw [take, ← moved_next]
      by_cases hstop : r.current = r.stop
      · rw [next_of_eq hstop, items_of_eq hstop, remaining_of_eq hstop, Nat.min_zero, moved_zero]
        rfl
      · rw [next_of_ne hstop, items_of_ne hstop, List.take_succ_cons]
        show (r.current :: ((r.moved 1).take count).1, ((r.moved 1).take count).2) = _
        rw [ih]

/-- A range does not yield its stop. -/
theorem stop_not_mem_items (r : Range t) : r.stop ∉ r.items := by
  rw [items_eq, consecutive, List.mem_map]
  rintro ⟨i, hi, h⟩
  rw [List.mem_range] at hi
  have hlt := r.remaining_lt
  rw [← wrap_add_remaining r] at h
  have heq := eq_of_wrap_add_eq (by omega) hlt h
  omega

/-- A range yields no value twice. -/
theorem nodup_items (r : Range t) : r.items.Nodup := by
  rw [items_eq]
  exact nodup_consecutive (Nat.le_of_lt r.remaining_lt)

/-! ## Programs -/

/-- What is done with a range. -/
inductive Step (t : IntType) where
  /-- A call of `next`. -/
  | next
  /-- An assignment of the start. -/
  | setStart (value : FixedInt t)
  /-- An assignment of the stop. -/
  | setStop (value : FixedInt t)
  /-- An assignment of the current value. -/
  | setCurrent (value : FixedInt t)

/-- The step assigns the start. -/
def Step.setsStart : Step t → Bool
  | setStart _ => true
  | _ => false

/-- The answer of a step, which only a call has, and the range after it. -/
def perform (r : Range t) : Step t → List (Option (FixedInt t)) × Range t
  | .next => ([r.next.1], r.next.2)
  | .setStart value => ([], { r with start := value })
  | .setStop value => ([], { r with stop := value })
  | .setCurrent value => ([], { r with current := value })

/-- The answers of a program, and the range after it. -/
def performAll (r : Range t) : List (Step t) → List (Option (FixedInt t)) × Range t
  | [] => ([], r)
  | step :: rest =>
      ((r.perform step).1 ++ ((r.perform step).2.performAll rest).1,
        ((r.perform step).2.performAll rest).2)

/-- A program that is continued goes on with the range that it left. -/
theorem performAll_append (r : Range t) (steps more : List (Step t)) :
    r.performAll (steps ++ more) =
      ((r.performAll steps).1 ++ ((r.performAll steps).2.performAll more).1,
        ((r.performAll steps).2.performAll more).2) := by
  induction steps generalizing r with
  | nil => rfl
  | cons step rest ih =>
      rw [List.cons_append, performAll, performAll, ih, List.append_assoc]

/-- Where a range is after so many calls. -/
theorem moved_min (r : Range t) (count : Nat) :
    r.moved (min count r.remaining) =
      ⟨r.start, r.stop,
        if count < r.remaining then wrap t (r.current.toInt + count) else r.stop⟩ := by
  unfold moved
  split
  · rename_i hlt
    rw [Nat.min_eq_left (Nat.le_of_lt hlt)]
  · rename_i hle
    rw [Nat.min_eq_right (Nat.le_of_not_lt hle), wrap_add_remaining]

/-- Calls alone answer the values of the range and then nothing. -/
theorem performAll_calls (r : Range t) (count : Nat) :
    r.performAll (List.replicate count .next) =
      ((List.range count).map fun i => r.items[i]?, r.moved (min count r.remaining)) := by
  induction count generalizing r with
  | zero =>
      rw [Nat.zero_min, moved_zero]
      rfl
  | succ count ih =>
      rw [List.replicate_succ, List.range_succ_eq_map, performAll, perform, ih, moved_next]
      by_cases hstop : r.current = r.stop
      · rw [next_of_eq hstop, items_of_eq hstop]
        simp [Function.comp_def]
      · rw [next_of_ne hstop, items_of_ne hstop]
        simp [Function.comp_def]

/-- A call neither asks for the start nor changes it. -/
theorem next_withStart (r : Range t) (start : FixedInt t) :
    ({ r with start := start } : Range t).next =
      (r.next.1, { r.next.2 with start := start }) := by
  unfold next
  split <;> rfl

/-- The start has no part in what is answered: neither its value nor its assignments. -/
theorem answers_of_start (r : Range t) (start : FixedInt t) (steps : List (Step t)) :
    (r.performAll steps).1 =
      (({ r with start := start } : Range t).performAll
        (steps.filter fun step => !step.setsStart)).1 := by
  induction steps generalizing r start with
  | nil => rfl
  | cons step rest ih =>
      cases step with
      | next =>
          show [r.next.1] ++ (r.next.2.performAll rest).1 =
            [({ r with start := start } : Range t).next.1] ++
              (({ r with start := start } : Range t).next.2.performAll _).1
          rw [ih r.next.2 start, next_withStart r start]
      | setStart value => exact ih { r with start := value } start
      | setStop value => exact ih { r with stop := value } start
      | setCurrent value => exact ih { r with current := value } start

/-! ## Ranges from a start to a stop -/

/-- A range that does not wrap around has the difference of its bounds to go. -/
theorem remaining_ofBounds_of_le {first last : FixedInt t} (h : first.toInt ≤ last.toInt) :
    first.toInt + (ofBounds first last).remaining = last.toInt := by
  have hmax := t.maxValue_eq
  have hlow := first.contained.1
  have hhigh := last.contained.2
  have hdistance : (last.toInt - first.toInt) % t.modulus = last.toInt - first.toInt :=
    Int.emod_eq_of_lt (by omega) (by omega)
  rw [natCast_remaining]
  show first.toInt + (last.toInt - first.toInt) % t.modulus = last.toInt
  omega

/-- One that does goes up to the greatest value of the type and then on from the least one. -/
theorem remaining_ofBounds_of_lt {first last : FixedInt t} (h : last.toInt < first.toInt) :
    (ofBounds first last).remaining =
      (t.maxValue + 1 - first.toInt).toNat + (last.toInt - t.minValue).toNat := by
  have hmax := t.maxValue_eq
  have hlow := last.contained.1
  have hhigh := first.contained.2
  have hdistance : (last.toInt - first.toInt) % t.modulus =
      last.toInt - first.toInt + t.modulus := by
    rw [← Int.add_emod_right]
    exact Int.emod_eq_of_lt (by omega) (by omega)
  have hremaining := natCast_remaining (ofBounds first last)
  have hcast : ((ofBounds first last).remaining : Int) =
      (last.toInt - first.toInt) % t.modulus := hremaining
  omega

/-- A range that does not wrap around yields an interval in increasing order. -/
theorem items_ofBounds_of_le {first last : FixedInt t} (h : first.toInt ≤ last.toInt) :
    (∀ v, v ∈ (ofBounds first last).items ↔ first.toInt ≤ v.toInt ∧ v.toInt < last.toInt) ∧
    (ofBounds first last).items.Pairwise fun v w => v.toInt < w.toInt := by
  have hremaining := remaining_ofBounds_of_le h
  have hlow := first.contained.1
  have hhigh := last.contained.2
  rw [items_eq]
  show (∀ v, v ∈ consecutive t first.toInt _ ↔ _) ∧ (consecutive t first.toInt _).Pairwise _
  refine ⟨fun v => ?_, pairwise_consecutive hlow (by omega)⟩
  rw [mem_consecutive_iff hlow (by omega), hremaining]

/-- One that does yields the values from its start up and then the values below its stop, both in
increasing order. -/
theorem items_ofBounds_of_lt {first last : FixedInt t} (h : last.toInt < first.toInt) :
    ∃ high low, (ofBounds first last).items = high ++ low ∧
      (∀ v, v ∈ high ↔ first.toInt ≤ v.toInt) ∧ (high.Pairwise fun v w => v.toInt < w.toInt) ∧
      (∀ v, v ∈ low ↔ v.toInt < last.toInt) ∧ low.Pairwise fun v w => v.toInt < w.toInt := by
  have hmax := t.maxValue_eq
  obtain ⟨hfirstMin, hfirstMax⟩ := first.contained
  obtain ⟨hlastMin, hlastMax⟩ := last.contained
  refine ⟨consecutive t first.toInt (t.maxValue + 1 - first.toInt).toNat,
    consecutive t t.minValue (last.toInt - t.minValue).toNat, ?_, fun v => ?_,
    pairwise_consecutive hfirstMin (by omega), fun v => ?_,
    pairwise_consecutive (Int.le_refl _) (by omega)⟩
  · rw [items_eq, remaining_ofBounds_of_lt h, consecutive_add]
    congr 1
    apply consecutive_congr
    -- Behind the greatest value comes the least one.
    have hnext : first.toInt + ((t.maxValue + 1 - first.toInt).toNat : Int) =
        t.minValue + t.modulus := by omega
    show first.toInt + ((t.maxValue + 1 - first.toInt).toNat : Int) ≡ _ [ZMOD _]
    rw [hnext]
    exact Int.add_modEq_right
  · obtain ⟨hmin, hmax⟩ := v.contained
    rw [mem_consecutive_iff hfirstMin (by omega)]
    omega
  · obtain ⟨hmin, hmax⟩ := v.contained
    rw [mem_consecutive_iff (Int.le_refl _) (by omega)]
    omega

/-- A range counts up to its stop from wherever a program leaves it. As many calls as the distance
from the current value to the stop, modulo the number of values of the type, answer the current
value and those behind it, wrapped around, and every further call answers nothing. Calls change
neither the start nor the stop, and the range that has answered nothing is at its stop. The start
has no part in any answer. Hence a range from a start to a stop comes to its end before it has
yielded as many values as the type has, and up to so many of them may be taken from its front. It
never yields its stop nor any value twice, and its values are the interval from the start to the
stop, or what lies at both ends of the type. -/
theorem range_counts_to_stop (t : IntType) :
    (∀ (r : Range t) (steps : List (Step t)),
      let s := (r.performAll steps).2
      (s.remaining : Int) = (s.stop.toInt - s.current.toInt) % 2 ^ t.bits ∧
      ∀ count : Nat, r.performAll (steps ++ List.replicate count .next) =
        ((r.performAll steps).1 ++ (List.range count).map fun i =>
            if i < s.remaining then some (wrap t (s.current.toInt + i)) else none,
          ⟨s.start, s.stop,
            if count < s.remaining then wrap t (s.current.toInt + count) else s.stop⟩)) ∧
    (∀ (r : Range t) (steps : List (Step t)) (start : FixedInt t),
      (r.performAll steps).1 =
        (({ r with start := start } : Range t).performAll
          (steps.filter fun step => !step.setsStart)).1) ∧
    ∀ first last : FixedInt t, ∃ values : List (FixedInt t),
      (∀ count : Nat, ((ofBounds first last).performAll (List.replicate count .next)).1 =
        (List.range count).map fun i => values[i]?) ∧
      (∀ count : Nat, ((ofBounds first last).take count).1 = values.take count) ∧
      values.length < 2 ^ t.bits ∧ last ∉ values ∧ values.Nodup ∧
      (first.toInt ≤ last.toInt →
        (∀ v, v ∈ values ↔ first.toInt ≤ v.toInt ∧ v.toInt < last.toInt) ∧
        values.Pairwise fun v w => v.toInt < w.toInt) ∧
      (last.toInt < first.toInt → ∃ high low, values = high ++ low ∧
        (∀ v, v ∈ high ↔ first.toInt ≤ v.toInt) ∧ (high.Pairwise fun v w => v.toInt < w.toInt) ∧
        (∀ v, v ∈ low ↔ v.toInt < last.toInt) ∧ low.Pairwise fun v w => v.toInt < w.toInt) := by
  refine ⟨fun r steps => ⟨natCast_remaining _, fun count => ?_⟩,
    fun r steps start => answers_of_start r start steps, fun first last => ?_⟩
  · rw [performAll_append, performAll_calls, moved_min]
    simp only [getElem?_items]
  · refine ⟨(ofBounds first last).items, fun count => ?_, fun count => ?_, ?_,
      stop_not_mem_items _, nodup_items _, items_ofBounds_of_le, items_ofBounds_of_lt⟩
    · rw [performAll_calls]
    · rw [take_eq]
    · rw [length_items]
      exact remaining_lt _

/-- A range of octets that wraps around. -/
example : ((ofBounds ⟨254, by decide⟩ ⟨2, by decide⟩ : Range .u8).take 10).1.map FixedInt.toInt =
    [254, 255, 0, 1] := by decide

end CheckedExecution.Range
