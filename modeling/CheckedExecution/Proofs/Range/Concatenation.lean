import CheckedExecution.Proofs.Range.Items

/-!
# Ranges one after another

A range up to a value and the range on from it count through both distances without a gap
(`items_append_items`). The two distances come to that of the whole range, or to as many more as the
type has values, and which of the two it is can be told from the first distance alone
(`remaining_add_remaining`). The main theorem, `ranges_concatenate`, says so of the values that are
yielded.
-/

namespace CheckedExecution.Range

open FixedInt

variable {t : IntType} {start mid stop : FixedInt t}

/-- The two distances come to the distance of the whole range, but for whole rounds. -/
theorem remaining_add_emod (start mid stop : FixedInt t) :
    ((ofBounds start mid).remaining + (ofBounds mid stop).remaining) % 2 ^ t.bits =
      (ofBounds start stop).remaining := by
  have hsum : mid.toInt - start.toInt + (stop.toInt - mid.toInt) = stop.toInt - start.toInt := by
    omega
  have hint : ((ofBounds start mid).remaining + (ofBounds mid stop).remaining : Int) %
      2 ^ t.bits = (ofBounds start stop).remaining := by
    rw [natCast_remaining, natCast_remaining, natCast_remaining, ← Int.add_emod]
    show (mid.toInt - start.toInt + (stop.toInt - mid.toInt)) % 2 ^ t.bits =
      (stop.toInt - start.toInt) % 2 ^ t.bits
    rw [hsum]
  exact_mod_cast hint

/-- The two distances come to that of the whole range if the first is no longer than it, and to one
round more otherwise. -/
theorem remaining_add_remaining (start mid stop : FixedInt t) :
    (ofBounds start mid).remaining + (ofBounds mid stop).remaining =
      (ofBounds start stop).remaining +
        if (ofBounds start mid).remaining ≤ (ofBounds start stop).remaining then 0
        else 2 ^ t.bits := by
  have hmod := remaining_add_emod start mid stop
  have hfirst := (ofBounds start mid).remaining_lt
  have hsecond := (ofBounds mid stop).remaining_lt
  by_cases hround :
      (ofBounds start mid).remaining + (ofBounds mid stop).remaining < 2 ^ t.bits
  · rw [Nat.mod_eq_of_lt hround] at hmod
    rw [if_pos (by omega)]
    omega
  · -- The sum stays below two rounds, so one round is all that can be taken away.
    rw [Nat.mod_eq_sub_mod (Nat.le_of_not_lt hround), Nat.mod_eq_of_lt (by omega)] at hmod
    rw [if_neg (by omega)]
    omega

/-- The values of a range and of the one on from its stop are counted without a gap. -/
theorem items_append_items (start mid stop : FixedInt t) :
    (ofBounds start mid).items ++ (ofBounds mid stop).items =
      consecutive t start.toInt
        ((ofBounds start mid).remaining + (ofBounds mid stop).remaining) := by
  have hmid : wrap t (start.toInt + (ofBounds start mid).remaining) = mid :=
    wrap_add_remaining (ofBounds start mid)
  have hfrom : mid.toInt ≡ start.toInt + (ofBounds start mid).remaining [ZMOD 2 ^ t.bits] :=
    eq_wrap_iff.1 hmid.symm
  rw [items_eq, items_eq, consecutive_add]
  congr 1
  exact consecutive_congr hfrom _

/-- The first distance is no longer than the whole one exactly if it is so modulo the number of
values. -/
theorem remaining_le_iff :
    (ofBounds start mid).remaining ≤ (ofBounds start stop).remaining ↔
      (mid.toInt - start.toInt) % 2 ^ t.bits ≤ (stop.toInt - start.toInt) % 2 ^ t.bits := by
  rw [← Int.ofNat_le, natCast_remaining, natCast_remaining]
  rfl

/-- A range and the one on from its stop yield the values of the whole range if the first distance
is no longer than the whole one. -/
theorem items_append_of_le
    (h : (ofBounds start mid).remaining ≤ (ofBounds start stop).remaining) :
    (ofBounds start mid).items ++ (ofBounds mid stop).items = (ofBounds start stop).items := by
  rw [items_append_items, remaining_add_remaining, if_pos h, Nat.add_zero, items_eq]
  rfl

/-- Otherwise they go on through one round more, from the stop of the whole range back to it. -/
theorem items_append_of_not_le
    (h : ¬ (ofBounds start mid).remaining ≤ (ofBounds start stop).remaining) :
    (ofBounds start mid).items ++ (ofBounds mid stop).items =
      (ofBounds start stop).items ++ consecutive t stop.toInt (2 ^ t.bits) := by
  have hstop : wrap t (start.toInt + (ofBounds start stop).remaining) = stop :=
    wrap_add_remaining (ofBounds start stop)
  rw [items_append_items, remaining_add_remaining, if_neg h, consecutive_add, items_eq]
  congr 1
  exact consecutive_congr (eq_wrap_iff.1 hstop.symm).symm _

/-- The values of a range and of the one on from its stop, one after another, are those of the whole
range exactly if the distance to the middle is not greater than that to the stop, both modulo the
number of values of the type. Otherwise they are as many more as the type has values: the values of
the whole range are followed by one round through the type, in which no value occurs twice. -/
theorem ranges_concatenate (t : IntType) (start mid stop : FixedInt t) :
    ((ofBounds start mid).items ++ (ofBounds mid stop).items = (ofBounds start stop).items ↔
      (mid.toInt - start.toInt) % 2 ^ t.bits ≤ (stop.toInt - start.toInt) % 2 ^ t.bits) ∧
    (¬ (mid.toInt - start.toInt) % 2 ^ t.bits ≤ (stop.toInt - start.toInt) % 2 ^ t.bits →
      ((ofBounds start mid).items ++ (ofBounds mid stop).items).length =
        (ofBounds start stop).items.length + 2 ^ t.bits ∧
      ∃ round : List (FixedInt t), round.Nodup ∧ round.length = 2 ^ t.bits ∧
        (ofBounds start mid).items ++ (ofBounds mid stop).items =
          (ofBounds start stop).items ++ round) := by
  rw [← remaining_le_iff]
  refine ⟨⟨fun h => ?_, items_append_of_le⟩, fun h => ⟨?_, ?_⟩⟩
  · have hlength := congrArg List.length h
    rw [List.length_append, length_items, length_items, length_items] at hlength
    omega
  · rw [items_append_of_not_le h, List.length_append, length_consecutive]
  · exact ⟨consecutive t stop.toInt (2 ^ t.bits), nodup_consecutive (Nat.le_refl _),
      length_consecutive _ _, items_append_of_not_le h⟩

/-- Of two ranges of octets, the first runs past the stop of the whole, which itself passes the
greatest octet, and so they yield 256 values more. -/
theorem detour_takes_a_round :
    ¬ ((10 : Int) - 250) % 2 ^ IntType.bits .u8 ≤ (5 - 250) % 2 ^ IntType.bits .u8 ∧
    ((ofBounds (⟨250, by decide⟩ : FixedInt .u8) ⟨10, by decide⟩).items ++
      (ofBounds (⟨10, by decide⟩ : FixedInt .u8) ⟨5, by decide⟩).items).length =
        (ofBounds (⟨250, by decide⟩ : FixedInt .u8) ⟨5, by decide⟩).items.length + 256 := by
  have hbeyond : ¬ ((10 : Int) - 250) % 2 ^ IntType.bits .u8 ≤ (5 - 250) % 2 ^ IntType.bits .u8 :=
    by decide
  exact ⟨hbeyond, ((ranges_concatenate .u8 ⟨250, by decide⟩ ⟨10, by decide⟩ ⟨5, by decide⟩).2
    hbeyond).1⟩

end CheckedExecution.Range
