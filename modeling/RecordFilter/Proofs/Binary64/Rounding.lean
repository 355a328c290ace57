import Mathlib.Algebra.Order.Field.Basic
import Mathlib.Algebra.Order.Field.Rat
import Mathlib.Tactic.FieldSimp
import Mathlib.Tactic.Linarith
import Mathlib.Tactic.Positivity
import RecordFilter.Proofs.Binary64.Exact

/-!
# Rounding to the nearest magnitude

A magnitude is rounded from a rational number (`Rounds`) if no other magnitude is nearer to the
number.  It is then off by at most half a unit, next to zero, or by at most one part in `2 ^ 53`.
Here the operations that round are shown to do just that.

The magnitudes at one scale or above are multiples of one place, and the multiple that a quotient is
rounded to is the nearest one.  The magnitudes at a smaller scale are all at most `2 ^ 52` places,
which is itself a multiple and does not exceed the quotient, so none of them is nearer.

* `rounds_of_nearest?`: the quotient of two natural numbers is rounded.
* `rounds_of_ofNat?`, `rounds_of_times?`, `rounds_of_dividedBy?`: so are natural numbers, products
  and quotients.
* `value_of_ofNat?`: a natural number of at most 53 binary digits is a magnitude.
-/

namespace RecordFilter.Binary64

/-! ## The nearest natural number -/

/-- No other multiple of the divisor is nearer. -/
theorem abs_divNearestEven_sub_le (num : Nat) {den : Nat} (hden : 0 < den) (k : Nat) :
    |((divNearestEven num den * den : Nat) : Int) - num| ≤ |((k * den : Nat) : Int) - num| := by
  have hdiv := Nat.div_add_mod num den
  have hmod := Nat.mod_lt num hden
  rw [Nat.mul_comm] at hdiv
  have hside : k * den ≤ num / den * den ∨ num / den * den + den ≤ k * den := by
    rw [← Nat.add_one_mul]
    exact (Nat.lt_or_ge k (num / den + 1)).imp
      (fun h => Nat.mul_le_mul_right den (Nat.le_of_lt_succ h)) (Nat.mul_le_mul_right den)
  rw [Int.abs_eq_natAbs, Int.abs_eq_natAbs]
  rcases divNearestEven_eq num den with ⟨h, hr⟩ | ⟨h, hr⟩
  · rw [h]
    generalize num / den * den = low at *
    generalize k * den = other at *
    omega
  · rw [h, Nat.add_one_mul]
    generalize num / den * den = low at *
    generalize k * den = other at *
    omega

/-- It is off by at most half of the divisor. -/
theorem two_mul_abs_divNearestEven_sub_le (num : Nat) {den : Nat} (hden : 0 < den) :
    2 * |((divNearestEven num den * den : Nat) : Int) - num| ≤ den := by
  have hdiv := Nat.div_add_mod num den
  have hmod := Nat.mod_lt num hden
  rw [Nat.mul_comm] at hdiv
  rw [Int.abs_eq_natAbs]
  rcases divNearestEven_eq num den with ⟨h, hr⟩ | ⟨h, hr⟩
  · rw [h]
    generalize num / den * den = low at *
    omega
  · rw [h, Nat.add_one_mul]
    generalize num / den * den = low at *
    omega

/-! ## The nearest magnitude -/

namespace Magnitude

variable {num den : Nat} {m : Magnitude}

theorem units_mul_of_nearest? (h : nearest? num den = some m) :
    m.units * den = divNearestEven num (den * twoTo (quotientScale num den)) *
      (den * twoTo (quotientScale num den)) := by
  rw [(units_of_nearest? h).1, quotientSignificand, Nat.mul_assoc, Nat.mul_comm (twoTo _)]

/-- No other magnitude is nearer to the quotient, counted in the divisor. -/
theorem abs_units_mul_sub_le (hden : 0 < den) (h : nearest? num den = some m) (m' : Magnitude) :
    |((m.units * den : Nat) : Int) - num| ≤ |((m'.units * den : Nat) : Int) - num| := by
  rw [units_mul_of_nearest? h]
  have hnearest := abs_divNearestEven_sub_le num
    (Nat.mul_pos hden (twoTo_pos (quotientScale num den)))
  have hlow : quotientScale num den ≠ 0 →
      twoTo 52 * (den * twoTo (quotientScale num den)) ≤ num := fun hs =>
    (Nat.le_div_iff_mul_le (Nat.mul_pos hden (twoTo_pos _))).mp (le_quotient hs)
  generalize quotientScale num den = s at *
  by_cases hscale : s ≤ m'.scale
  · -- The other magnitude is a multiple of the place that the quotient is rounded at.
    have hplaces : twoTo m'.scale = twoTo (m'.scale - s) * twoTo s := by
      rw [← twoTo_add, Nat.sub_add_cancel hscale]
    have hmultiple : m'.units * den =
        m'.significand * twoTo (m'.scale - s) * (den * twoTo s) := by
      rw [units, hplaces, Nat.mul_comm den, ← Nat.mul_assoc, ← Nat.mul_assoc]
    rw [hmultiple]
    exact hnearest _
  · -- The other magnitude is at most `2 ^ 52` places, and the quotient is at least that.
    have hplaces : twoTo 53 * twoTo (s - 1) = twoTo 52 * twoTo s := by
      rw [← twoTo_add, ← twoTo_add]
      congr 1
      omega
    have hother : m'.units ≤ twoTo 52 * twoTo s := by
      rw [← hplaces]
      exact Nat.mul_le_mul (Nat.le_of_lt m'.canonical.1) (twoTo_le_twoTo (by omega))
    have hbelow : m'.units * den ≤ twoTo 52 * (den * twoTo s) := by
      rw [Nat.mul_comm den, ← Nat.mul_assoc]
      exact Nat.mul_le_mul_right den hother
    have hquotient := hlow (by omega)
    refine le_trans (hnearest (twoTo 52)) ?_
    rw [Int.abs_eq_natAbs, Int.abs_eq_natAbs]
    generalize twoTo 52 * (den * twoTo s) = low at *
    generalize m'.units * den = other at *
    omega

/-- The magnitude is off by at most half a unit, or one part in `2 ^ 53`. -/
theorem abs_units_mul_sub_le_max (hden : 0 < den) (h : nearest? num den = some m) :
    2 * |((m.units * den : Nat) : Int) - num| ≤ den ∨
      twoTo 53 * |((m.units * den : Nat) : Int) - num| ≤ num := by
  rw [units_mul_of_nearest? h]
  have hhalf := two_mul_abs_divNearestEven_sub_le num
    (Nat.mul_pos hden (twoTo_pos (quotientScale num den)))
  by_cases hs : quotientScale num den = 0
  · rw [hs] at hhalf ⊢
    exact Or.inl (hhalf.trans_eq (by rw [show twoTo 0 = 1 from rfl, Nat.mul_one]))
  · have hlow : twoTo 52 * (den * twoTo (quotientScale num den)) ≤ num :=
      (Nat.le_div_iff_mul_le (Nat.mul_pos hden (twoTo_pos _))).mp (le_quotient hs)
    have h52 : twoTo 52 = 4503599627370496 := rfl
    have h53 : twoTo 53 = 9007199254740992 := rfl
    rw [h52] at hlow
    rw [h53]
    generalize den * twoTo (quotientScale num den) = place at *
    rw [Int.abs_eq_natAbs] at hhalf ⊢
    omega

/-! ## Rounded numbers -/

/-- The least positive magnitude, as a number. -/
def unit : ℚ := 1 / unitsInOne

/-- The number that a magnitude stands for. -/
def value (m : Magnitude) : ℚ := m.units / unitsInOne

/-- No magnitude is nearer to the number. -/
def IsNearest (m : Magnitude) (x : ℚ) : Prop := ∀ m' : Magnitude, |m.value - x| ≤ |m'.value - x|

/-- The magnitude is rounded from the number. -/
structure Rounds (m : Magnitude) (x : ℚ) : Prop where
  nearest : m.IsNearest x
  close : |m.value - x| ≤ max (unit / 2) (x / 2 ^ 53)

theorem cast_unitsInOne_pos : (0 : ℚ) < unitsInOne := Nat.cast_pos.mpr unitsInOne_pos

theorem unit_pos : 0 < unit := one_div_pos.mpr cast_unitsInOne_pos

theorem value_nonneg (m : Magnitude) : 0 ≤ m.value :=
  div_nonneg (Nat.cast_nonneg _) (Nat.cast_nonneg _)

theorem value_eq_of_units {m : Magnitude} {n : Nat} (h : m.units = n * unitsInOne) :
    m.value = n := by
  rw [value, h, Nat.cast_mul, mul_div_assoc, div_self cast_unitsInOne_pos.ne', mul_one]

/-- How far a magnitude is from a quotient of units. -/
theorem abs_value_sub_div (hden : 0 < den) (m : Magnitude) (num : Nat) :
    |m.value - num / (den * unitsInOne)| =
      ((|((m.units * den : Nat) : Int) - num| : Int) : ℚ) / (den * unitsInOne) := by
  have hd : (0 : ℚ) < den := Nat.cast_pos.mpr hden
  have hone := cast_unitsInOne_pos
  have hsub : m.value - num / (den * unitsInOne) =
      (((m.units * den : Nat) : Int) - num : Int) / (den * unitsInOne) := by
    rw [value]
    push_cast
    field_simp
  rw [hsub, abs_div, abs_of_pos (mul_pos hd hone), Int.cast_abs]

/-- The nearest magnitude is rounded from the quotient. -/
theorem rounds_of_nearest? (hden : 0 < den) (h : nearest? num den = some m) :
    m.Rounds (num / (den * unitsInOne)) := by
  have hd : (0 : ℚ) < den := Nat.cast_pos.mpr hden
  have hone := cast_unitsInOne_pos
  constructor
  · intro m'
    rw [abs_value_sub_div hden, abs_value_sub_div hden]
    exact div_le_div_of_nonneg_right (Int.cast_le.mpr (abs_units_mul_sub_le hden h m'))
      (mul_pos hd hone).le
  · rw [abs_value_sub_div hden, le_max_iff, unit]
    have hbound := abs_units_mul_sub_le_max hden h
    generalize |((m.units * den : Nat) : Int) - num| = off at *
    rcases hbound with hhalf | hpart
    · left
      have hhalf' : 2 * (off : ℚ) ≤ den := by exact_mod_cast hhalf
      have hscaled := mul_le_mul_of_nonneg_right hhalf' hone.le
      rw [div_div, div_le_div_iff₀ (mul_pos hd hone) (mul_pos hone two_pos)]
      linarith
    · right
      rw [show twoTo 53 = 2 ^ 53 from rfl] at hpart
      have hpart' : 2 ^ 53 * (off : ℚ) ≤ num := by exact_mod_cast hpart
      rw [div_right_comm]
      refine div_le_div_of_nonneg_right ?_ (mul_pos hd hone).le
      rwa [le_div_iff₀ (by positivity), mul_comm]

/-! ## Operations -/

theorem rounds_of_ofNat? {n : Nat} (h : ofNat? n = some m) : m.Rounds n := by
  have hrounds := rounds_of_nearest? Nat.one_pos h
  rwa [Nat.cast_one, one_mul, Nat.cast_mul, mul_div_assoc, div_self cast_unitsInOne_pos.ne',
    mul_one] at hrounds

theorem rounds_of_times? {x y z : Magnitude} (h : x.times? y = some z) :
    z.Rounds (x.value * y.value) := by
  have hrounds := rounds_of_nearest? unitsInOne_pos h
  rwa [Nat.cast_mul, mul_div_mul_comm] at hrounds

theorem rounds_of_dividedBy? {x y z : Magnitude} (hy : 0 < y.units)
    (h : x.dividedBy? y = some z) : z.Rounds (x.value / y.value) := by
  have hrounds := rounds_of_nearest? hy h
  rwa [Nat.cast_mul, mul_div_mul_right _ _ cast_unitsInOne_pos.ne',
    ← div_div_div_cancel_right₀ cast_unitsInOne_pos.ne'] at hrounds

/-- A number that is a magnitude is rounded to itself. -/
theorem Rounds.eq_of_value {x : ℚ} (h : m.Rounds x) {m' : Magnitude} (hm' : m'.value = x) :
    m.value = x := by
  have hle := h.nearest m'
  rw [hm', sub_self, abs_zero] at hle
  exact sub_eq_zero.mp (abs_nonpos_iff.mp hle)

theorem value_zero : zero.value = 0 := by
  rw [value, units_zero, Nat.cast_zero, zero_div]

theorem unit_le : unit ≤ 1 / 2 ^ 53 := by
  have hle : twoTo 53 ≤ unitsInOne := twoTo_le_twoTo (by decide)
  rw [show twoTo 53 = 2 ^ 53 from rfl] at hle
  exact one_div_le_one_div_of_le (by positivity) (by exact_mod_cast hle)

/-- A natural number is off by at most one part in `2 ^ 53`, since it is zero or at least one. -/
theorem abs_value_sub_le_of_ofNat? {n : Nat} (h : ofNat? n = some m) :
    |m.value - n| ≤ n / 2 ^ 53 := by
  have hrounds := rounds_of_ofNat? h
  by_cases hn : n = 0
  · rw [hn, Nat.cast_zero] at hrounds ⊢
    rw [hrounds.eq_of_value value_zero, sub_self, abs_zero, zero_div]
  · have hone : (1 : ℚ) ≤ n := Nat.one_le_cast.mpr (Nat.pos_of_ne_zero hn)
    have hunit := unit_le
    refine hrounds.close.trans (max_le ?_ le_rfl)
    rw [le_div_iff₀ (by positivity)] at hunit ⊢
    linarith

/-- A natural number of at most 53 binary digits is a magnitude. -/
theorem value_of_ofNat? {n : Nat} (hn : n < twoTo 53) (h : ofNat? n = some m) : m.value = n := by
  refine value_eq_of_units ?_
  have hscale : quotientScale (n * unitsInOne) 1 ≤ 1074 := by
    have hlt : n * unitsInOne < twoTo (53 + 1074) := by
      rw [twoTo_add, ← unitsInOne]
      exact Nat.mul_lt_mul_of_pos_right hn unitsInOne_pos
    have hlength := bitLength_le_of hlt
    rw [quotientScale, Nat.div_one]
    omega
  have hround := units_mul_of_nearest? h
  generalize quotientScale (n * unitsInOne) 1 = s at *
  have hplaces : unitsInOne = twoTo (1074 - s) * twoTo s := by
    rw [unitsInOne, ← twoTo_add, Nat.sub_add_cancel hscale]
  generalize unitsInOne = one at *
  rw [Nat.mul_one, Nat.one_mul, hplaces, ← Nat.mul_assoc, divNearestEven_mul _ (twoTo_pos s),
    Nat.mul_assoc] at hround
  rw [hround, hplaces]

/-- The powers of ten up to `10 ^ 22` are magnitudes. -/
theorem value_of_ofNat?_tenTo {k : Nat} (hk : k ≤ 22) (h : ofNat? (tenTo k) = some m) :
    m.value = tenTo k := by
  have hexact : ∀ k : Fin 23, (ofNat? (tenTo k)).map units = some (tenTo k * unitsInOne) := by
    decide +kernel
  have hunits := hexact ⟨k, Nat.lt_succ_of_le hk⟩
  rw [h, Option.map_some, Option.some_inj] at hunits
  exact value_eq_of_units hunits

end Magnitude

end RecordFilter.Binary64
