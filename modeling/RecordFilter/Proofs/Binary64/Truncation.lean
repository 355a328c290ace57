import RecordFilter.Binary64.Truncation
import RecordFilter.Integer
import RecordFilter.Proofs.Binary64.Rounding

/-!
# Numbers made integers are the integers that they are

The range that a number is checked against is given by two numbers, and the upper one is rounded: it
is `2 ^ 63`, the first integer past the range, and a number has to stay below it.  So the whole numbers
that pass are those of 64 bits, and for them the conversion does not come to the ends of the range.

* `toInt64?_eq`: the conversion gives the exact integer of a number if it has 64 bits, and nothing
  else.
* `toInt?_eq_some_iff`: the exact integer of a number is its value.
-/

namespace RecordFilter

theorem toInt_minValue : Int64.minValue.toInt = -9223372036854775808 := rfl

theorem toInt_maxValue : Int64.maxValue.toInt = 9223372036854775807 := rfl

theorem twoTo_63 : twoTo 63 = 9223372036854775808 := rfl

namespace Binary64

open Magnitude (unitsInOne_pos cast_unitsInOne_pos)

variable {negative : Bool} {m : Magnitude} {n : Nat}

/-! ## The range -/

/-- The least integer is a number. -/
theorem position_ofInt_minValue :
    (ofInt Int64.minValue.toInt).position = some (-(twoTo 63 : Int) * unitsInOne) := by
  decide +kernel

/-- The greatest integer is rounded to the one past it. -/
theorem position_ofInt_maxValue :
    (ofInt Int64.maxValue.toInt).position = some ((twoTo 63 : Int) * unitsInOne) := by
  decide +kernel

theorem signed_mul (negative : Bool) (n k : Nat) :
    signed negative (n * k) = signed negative n * k := by
  cases negative
  · exact Int.natCast_mul n k
  · show -((n * k : Nat) : Int) = -(n : Int) * k
    rw [Int.natCast_mul, Int.neg_mul]

/-- The place of a whole number. -/
theorem position_of_units (h : m.units = n * unitsInOne) :
    (finite negative m).position = some (signed negative n * unitsInOne) := by
  rw [position, h, signed_mul]

theorem atMost_minValue_iff (h : m.units = n * unitsInOne) :
    atMost (ofInt Int64.minValue.toInt) (finite negative m) = true ↔
      Int64.minValue.toInt ≤ signed negative n := by
  have hone : (0 : Int) < unitsInOne := Int.natCast_pos.mpr unitsInOne_pos
  unfold atMost
  rw [position_ofInt_minValue, position_of_units h]
  simp only [decide_eq_true_eq, mul_le_mul_iff_left₀ hone]
  rw [toInt_minValue, twoTo_63]
  rfl

theorem below_maxValue_iff (h : m.units = n * unitsInOne) :
    below (finite negative m) (ofInt Int64.maxValue.toInt) = true ↔
      signed negative n ≤ Int64.maxValue.toInt := by
  have hone : (0 : Int) < unitsInOne := Int.natCast_pos.mpr unitsInOne_pos
  unfold below
  rw [position_ofInt_maxValue, position_of_units h]
  simp only [decide_eq_true_eq, mul_lt_mul_iff_left₀ hone]
  rw [toInt_maxValue, twoTo_63]
  omega

/-! ## The conversion -/

theorem isWhole_finite_iff : (finite negative m).isWhole = true ↔ m.units % unitsInOne = 0 :=
  beq_iff_eq

/-- A whole number is made the integer that it is, if that has 64 bits. -/
theorem toInt64?_of_units (h : m.units = n * unitsInOne) :
    (finite negative m).toInt64? = Integer.toInt64? (signed negative n) := by
  have hwhole : (finite negative m).isWhole = true := by
    rw [isWhole_finite_iff, h, Nat.mul_mod_left]
  have htruncated : (finite negative m).truncated = Int64.ofIntClamp (signed negative n) := by
    rw [truncated, h, Nat.mul_div_cancel _ unitsInOne_pos]
  unfold toInt64? Integer.toInt64?
  simp only [hwhole, Bool.true_and, Bool.and_eq_true, atMost_minValue_iff h, below_maxValue_iff h,
    htruncated]
  split
  · rw [Int64.ofIntLE_eq_ofIntClamp]
  · rfl

/-- What is not whole is made no integer. -/
theorem toInt64?_of_not_isWhole {x : Binary64} (h : x.isWhole = false) : x.toInt64? = none := by
  rw [toInt64?, h, Bool.false_and, Bool.false_and, if_neg Bool.false_ne_true]

/-- A number is made the integer that it is, if it is one and has 64 bits. -/
theorem toInt64?_eq (x : Binary64) : x.toInt64? = x.toInt?.bind Integer.toInt64? := by
  cases x with
  | nan => exact toInt64?_of_not_isWhole rfl
  | infinite negative => exact toInt64?_of_not_isWhole rfl
  | finite negative m =>
    by_cases hwhole : m.units % unitsInOne = 0
    · have hunits : m.units = m.units / unitsInOne * unitsInOne :=
        (Nat.div_mul_cancel (Nat.dvd_of_mod_eq_zero hwhole)).symm
      rw [toInt64?_of_units hunits, toInt?, if_pos hwhole, Option.bind_some]
    · rw [toInt?, if_neg hwhole, Option.bind_none]
      exact toInt64?_of_not_isWhole (Bool.eq_false_iff.mpr (mt isWhole_finite_iff.mp hwhole))

/-! ## The value -/

/-- The value of a finite number. -/
def value? : Binary64 → Option ℚ
  | finite negative m => some (if negative then -m.value else m.value)
  | _ => none

theorem value?_finite_eq (negative : Bool) (m : Magnitude) :
    (finite negative m).value? = some (((signed negative m.units : Int) : ℚ) / unitsInOne) := by
  cases negative
  · rfl
  · show some (-(m.units / unitsInOne : ℚ)) = some (((-(m.units : Int) : Int) : ℚ) / unitsInOne)
    rw [Int.cast_neg, Int.cast_natCast, neg_div]

theorem natAbs_signed (negative : Bool) (n : Nat) : (signed negative n).natAbs = n := by
  cases negative
  · rfl
  · exact Int.natAbs_neg n

/-- A number is an integer if its place is the integer times the number one. -/
theorem toInt?_finite_eq_some_iff {k : Int} :
    (finite negative m).toInt? = some k ↔ signed negative m.units = k * unitsInOne := by
  have hone : (unitsInOne : Int) ≠ 0 := Int.natCast_ne_zero.mpr unitsInOne_pos.ne'
  rw [toInt?]
  constructor
  · intro h
    split at h
    · rename_i hwhole
      rw [← Option.some_inj.mp h, ← signed_mul, Nat.div_mul_cancel (Nat.dvd_of_mod_eq_zero hwhole)]
    · cases h
  · intro h
    have hunits : m.units = k.natAbs * unitsInOne := by
      rw [← natAbs_signed negative m.units, h, Int.natAbs_mul, Int.natAbs_natCast]
    have hsigned : signed negative k.natAbs = k := by
      rw [hunits, signed_mul] at h
      exact mul_right_cancel₀ hone h
    rw [hunits, Nat.mul_mod_left, if_pos rfl, Nat.mul_div_cancel _ unitsInOne_pos, hsigned]

/-- The integer that a number is, is its value. -/
theorem toInt?_eq_some_iff {x : Binary64} {k : Int} :
    x.toInt? = some k ↔ x.value? = some (k : ℚ) := by
  cases x with
  | nan => exact iff_of_false (fun h => nomatch h) (fun h => nomatch h)
  | infinite negative => exact iff_of_false (fun h => nomatch h) (fun h => nomatch h)
  | finite negative m =>
    rw [toInt?_finite_eq_some_iff, value?_finite_eq, Option.some_inj,
      div_eq_iff cast_unitsInOne_pos.ne']
    exact_mod_cast Iff.rfl

end Binary64

end RecordFilter
