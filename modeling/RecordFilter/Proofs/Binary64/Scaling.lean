import Mathlib.Algebra.Order.Field.Power
import RecordFilter.Proofs.Binary64.Rounding
import RecordFilter.Proofs.Decimal.ReadBack

/-!
# How close scaling by powers of ten comes

A natural number is scaled by a power of ten in few steps, each of which rounds: the number itself,
the power, and their product or quotient.  Each rounding is off by at most one part in `2 ^ 53`, and
next to zero by half a unit, so the outcome is off by at most seven such parts and one unit
(`abs_value_sub_le_of_scale?`).  A number below `2 ^ 64` that is divided by more than `10 ^ 616` is
less than a unit, and becomes zero in the second step already.

If the number and the power are magnitudes, only the last step rounds, and the outcome is the
nearest magnitude (`isNearest_of_scale?`).
-/

namespace RecordFilter.Binary64.Magnitude

/-! ## Products and quotients of numbers that are off -/

section Quotients

variable {x X t T a b : ℚ}

theorem abs_mul_sub_mul_le (hX : 0 ≤ X) (hT : 0 ≤ T) (hx : |x - X| ≤ X * a)
    (ht : |t - T| ≤ T * b) : |x * t - X * T| ≤ X * T * (a * b + a + b) := by
  have hsplit : x * t - X * T = (x - X) * (t - T) + (x - X) * T + X * (t - T) := by ring
  have hboth : |(x - X) * (t - T)| ≤ X * a * (T * b) := by
    rw [abs_mul]
    exact mul_le_mul hx ht (abs_nonneg _) ((abs_nonneg _).trans hx)
  have hleft : |(x - X) * T| ≤ X * a * T := by
    rw [abs_mul, abs_of_nonneg hT]
    exact mul_le_mul_of_nonneg_right hx hT
  have hright : |X * (t - T)| ≤ X * (T * b) := by
    rw [abs_mul, abs_of_nonneg hX]
    exact mul_le_mul_of_nonneg_left ht hX
  calc |x * t - X * T| ≤ |(x - X) * (t - T)| + |(x - X) * T| + |X * (t - T)| := by
        rw [hsplit]
        exact abs_add_three _ _ _
    _ ≤ X * a * (T * b) + X * a * T + X * (T * b) := add_le_add_three hboth hleft hright
    _ = X * T * (a * b + a + b) := by ring

theorem abs_div_sub_div_le (hX : 0 ≤ X) (hT : 0 < T) (hb : b ≤ 1 / 2) (hx : |x - X| ≤ a)
    (ht : |t - T| ≤ T * b) : |x / t - X / T| ≤ (a + X * b) / T * (1 + 2 * b) := by
  have hbnonneg : 0 ≤ b := nonneg_of_mul_nonneg_right ((abs_nonneg _).trans ht) hT
  have hlow : T * (1 - b) ≤ t := by
    have := (abs_le.mp ht).1
    linarith
  have htpos : 0 < t := lt_of_lt_of_le (mul_pos hT (by linarith)) hlow
  have hsplit : x / t - X / T = ((x - X) + X * ((T - t) / T)) * (1 / t) := by
    field_simp
    ring
  have hpart : |(T - t) / T| ≤ b := by
    rwa [abs_div, abs_of_pos hT, abs_sub_comm, div_le_iff₀ hT, mul_comm]
  have hoff : |(x - X) + X * ((T - t) / T)| ≤ a + X * b := by
    refine (abs_add_le _ _).trans (add_le_add hx ?_)
    rw [abs_mul, abs_of_nonneg hX]
    exact mul_le_mul_of_nonneg_left hpart hX
  have hinverse : 1 / t ≤ 1 / T * (1 + 2 * b) := by
    rw [one_div_mul_eq_div, div_le_div_iff₀ htpos hT]
    have hone : 1 ≤ (1 - b) * (1 + 2 * b) := by nlinarith
    calc 1 * T ≤ (1 - b) * (1 + 2 * b) * T := mul_le_mul_of_nonneg_right hone hT.le
      _ = (1 + 2 * b) * (T * (1 - b)) := by ring
      _ ≤ (1 + 2 * b) * t := mul_le_mul_of_nonneg_left hlow (by linarith)
  calc |x / t - X / T| = |(x - X) + X * ((T - t) / T)| * (1 / t) := by
        rw [hsplit, abs_mul, abs_of_pos (one_div_pos.mpr htpos)]
    _ ≤ (a + X * b) * (1 / T * (1 + 2 * b)) :=
        mul_le_mul hoff hinverse (one_div_pos.mpr htpos).le ((abs_nonneg _).trans hoff)
    _ = (a + X * b) / T * (1 + 2 * b) := by ring

end Quotients

/-! ## One step -/

theorem cast_tenTo_pos (k : Nat) : (0 : ℚ) < tenTo k := Nat.cast_pos.mpr (tenTo_pos k)

theorem abs_value_sub_tenTo_le {k : Nat} {t : Magnitude} (ht : ofNat? (tenTo k) = some t) :
    |t.value - tenTo k| ≤ tenTo k * (1 / 2 ^ 53) := by
  rw [mul_one_div]
  exact abs_value_sub_le_of_ofNat? ht

theorem Rounds.abs_sub_le {m : Magnitude} {x : ℚ} (h : m.Rounds x) (hx : 0 ≤ x) :
    |m.value - x| ≤ unit / 2 + x / 2 ^ 53 := by
  have hunit := unit_pos
  have hpart : 0 ≤ x / 2 ^ 53 := by positivity
  exact h.close.trans (max_le (by linarith) (by linarith))

/-- Multiplying a number that is off by one part by a power of ten adds three parts. -/
theorem abs_value_sub_mul_le {X : ℚ} {k : Nat} {x t z : Magnitude} (hX : 0 ≤ X)
    (hx : |x.value - X| ≤ X * (1 / 2 ^ 53)) (ht : ofNat? (tenTo k) = some t)
    (hz : x.times? t = some z) :
    |z.value - X * tenTo k| ≤ X * tenTo k * (4 / 2 ^ 53) + unit := by
  have hT := cast_tenTo_pos k
  have hproduct := abs_mul_sub_mul_le hX hT.le hx (abs_value_sub_tenTo_le ht)
  have hrounded := (rounds_of_times? hz).abs_sub_le
    (mul_nonneg x.value_nonneg t.value_nonneg)
  have hunit := unit_pos
  have hpos : 0 ≤ X * tenTo k := mul_nonneg hX hT.le
  generalize X * (tenTo k : ℚ) = P at *
  generalize x.value * t.value = p at *
  rw [abs_le] at *
  constructor <;> linarith [hproduct.1, hproduct.2, hrounded.1, hrounded.2]

/-- Dividing a number that is off by a power of ten adds three parts and half a unit, and divides
what the number is off by. -/
theorem abs_value_sub_div_le {X a b : ℚ} {k : Nat} {x t z : Magnitude} (hX : 0 ≤ X) (ha : 0 ≤ a)
    (hb : b ≤ 1 / 2 ^ 3) (hbnonneg : 0 ≤ b) (hx : |x.value - X| ≤ X * b + a)
    (ht : ofNat? (tenTo k) = some t) (hpos : 0 < t.units) (hz : x.dividedBy? t = some z) :
    |z.value - X / tenTo k| ≤ X / tenTo k * (b + 3 / 2 ^ 53) + 2 * (a / tenTo k) + unit / 2 := by
  have hT := cast_tenTo_pos k
  have hquotient := abs_div_sub_div_le hX hT (by norm_num) hx (abs_value_sub_tenTo_le ht)
  have hrounded := (rounds_of_dividedBy? hpos hz).abs_sub_le
    (div_nonneg x.value_nonneg t.value_nonneg)
  have hunit := unit_pos
  have hY : 0 ≤ X / tenTo k := div_nonneg hX hT.le
  have hA : 0 ≤ a / tenTo k := div_nonneg ha hT.le
  have hYb : X / tenTo k * b ≤ X / tenTo k * (1 / 2 ^ 3) := mul_le_mul_of_nonneg_left hb hY
  have hYb' : 0 ≤ X / tenTo k * b := mul_nonneg hY hbnonneg
  have hsum : (X * b + a + X * (1 / 2 ^ 53)) / tenTo k =
      X / tenTo k * b + a / tenTo k + X / tenTo k * (1 / 2 ^ 53) := by ring
  rw [hsum] at hquotient
  rw [mul_add]
  generalize X / (tenTo k : ℚ) * b = Yb at *
  generalize X / (tenTo k : ℚ) = Y at *
  generalize a / (tenTo k : ℚ) = A at *
  generalize x.value / t.value = y at *
  rw [abs_le] at *
  constructor <;> linarith [hquotient.1, hquotient.2, hrounded.1, hrounded.2]

/-! ## Zero -/

theorem dividedBy?_zero {t : Magnitude} (ht : 0 < t.units) : zero.dividedBy? t = some zero := by
  rw [dividedBy?, units_zero, Nat.zero_mul]
  exact nearest?_eq_zero ht

/-- Zero is divided to zero. -/
theorem scaleDown?_zero (k : Nat) : zero.scaleDown? k = some zero := by
  rw [scaleDown?]
  split
  · rename_i hk
    obtain ⟨t, ht, hone⟩ := exists_ofNat?_tenTo hk
    rw [ht, Option.bind_some, dividedBy?_zero (Nat.lt_of_lt_of_le unitsInOne_pos hone)]
  · rfl

/-- A number that is rounded to zero is zero. -/
theorem eq_zero_of_ofNat? {n : Nat} (h : ofNat? n = some zero) : n = 0 := by
  have hclose := abs_value_sub_le_of_ofNat? h
  have hn : (0 : ℚ) ≤ n := Nat.cast_nonneg n
  rw [value_zero, zero_sub, abs_neg, abs_of_nonneg hn] at hclose
  have hzero : (n : ℚ) = 0 := by linarith
  exact_mod_cast hzero

theorem units_eq (m : Magnitude) : (m.units : ℚ) = m.value * unitsInOne :=
  (div_mul_cancel₀ _ cast_unitsInOne_pos.ne').symm

/-! ## Scaling -/

section Scaling

variable {n k : Nat} {x z : Magnitude}

/-- Multiplying by a power of ten is off by at most four parts. -/
theorem abs_value_sub_le_of_scaleUp? (hx : ofNat? n = some x) (hz : x.scaleUp? k = some z) :
    |z.value - n * tenTo k| ≤ n * tenTo k * (4 / 2 ^ 53) + unit := by
  unfold scaleUp? at hz
  split at hz
  · obtain ⟨t, ht, hz⟩ := Option.bind_eq_some_iff.mp hz
    refine abs_value_sub_mul_le (Nat.cast_nonneg n) ?_ ht hz
    rw [mul_one_div]
    exact abs_value_sub_le_of_ofNat? hx
  · split at hz
    · rename_i hzero
      subst hzero
      obtain rfl := Option.some_inj.mp hz
      rw [eq_zero_of_ofNat? hx, value_zero]
      simpa using unit_pos.le
    · cases hz

/-- Up to the greatest power of ten, dividing is one step. -/
theorem exists_of_scaleDown? (hk : k ≤ greatestTen) (hz : x.scaleDown? k = some z) :
    ∃ t, ofNat? (tenTo k) = some t ∧ 0 < t.units ∧ x.dividedBy? t = some z := by
  obtain ⟨t, ht, hone⟩ := exists_ofNat?_tenTo hk
  rw [scaleDown?, if_pos hk, ht, Option.bind_some] at hz
  exact ⟨t, ht, Nat.lt_of_lt_of_le unitsInOne_pos hone, hz⟩

/-- Beyond it, the greatest power of ten is taken first. -/
theorem exists_of_scaleDown?_of_lt (hk : greatestTen < k) (hz : x.scaleDown? k = some z) :
    ∃ t y, ofNat? (tenTo greatestTen) = some t ∧ 0 < t.units ∧ x.dividedBy? t = some y ∧
      y.scaleDown? (k - greatestTen) = some z := by
  obtain ⟨t, ht, hone⟩ := exists_ofNat?_tenTo (Nat.le_refl greatestTen)
  have hpos := Nat.lt_of_lt_of_le unitsInOne_pos hone
  rw [scaleDown?, if_neg (Nat.not_le.mpr hk)] at hz
  split at hz
  · rename_i hzero
    subst hzero
    exact ⟨t, zero, ht, hpos, dividedBy?_zero hpos, (scaleDown?_zero _).trans hz⟩
  · rw [ht, Option.bind_some] at hz
    obtain ⟨y, hy, hz⟩ := Option.bind_eq_some_iff.mp hz
    exact ⟨t, y, ht, hpos, hy, hz⟩

/-- A number is off by at most four parts and half a unit behind the first step. -/
theorem abs_value_sub_le_of_dividedBy? {t : Magnitude} (hx : ofNat? n = some x)
    (ht : ofNat? (tenTo k) = some t) (hpos : 0 < t.units) (hz : x.dividedBy? t = some z) :
    |z.value - n / tenTo k| ≤ n / tenTo k * (4 / 2 ^ 53) + unit / 2 := by
  have hn : (0 : ℚ) ≤ n := Nat.cast_nonneg n
  have hclose : |x.value - n| ≤ n * (1 / 2 ^ 53) + 0 := by
    rw [add_zero, mul_one_div]
    exact abs_value_sub_le_of_ofNat? hx
  have hstep := abs_value_sub_div_le hn le_rfl (by norm_num) (by norm_num) hclose ht hpos hz
  rw [zero_div, mul_zero, add_zero] at hstep
  convert hstep using 3
  norm_num

/-- A number below `2 ^ 64` that is divided by more than `10 ^ 616` is zero. -/
theorem eq_zero_of_scaleDown? (hn : n < UInt64.size) (hk : 2 * greatestTen < k)
    (hx : ofNat? n = some x) (hz : x.scaleDown? k = some z) : z = zero := by
  obtain ⟨t, y, ht, hpos, hy, hz⟩ := exists_of_scaleDown?_of_lt (by omega) hz
  obtain ⟨t', w, ht', -, hw, hz⟩ := exists_of_scaleDown?_of_lt (by omega) hz
  obtain rfl := Option.some_inj.mp (ht.symm.trans ht')
  suffices hsmall : 2 * (y.units * unitsInOne) < t.units by
    obtain rfl := Option.some_inj.mp ((nearest?_eq_zero hsmall).symm.trans hw)
    exact Option.some_inj.mp (hz.symm.trans (scaleDown?_zero _))
  -- Behind the first step less than `10 ^ 308 / 2` units are left, and `t` is at least that.
  have hbound : 8 * (n * unitsInOne) + 2 * tenTo greatestTen <
      tenTo greatestTen * tenTo greatestTen := by
    have hsize : 8 * (UInt64.size * unitsInOne) + 2 * tenTo greatestTen <
        tenTo greatestTen * tenTo greatestTen := by
      decide +kernel
    have hle := Nat.mul_le_mul_right unitsInOne (Nat.le_of_lt hn)
    omega
  have hone := cast_unitsInOne_pos
  have hT := cast_tenTo_pos greatestTen
  have hbound' : 8 * (n / tenTo greatestTen * unitsInOne) + 2 < (tenTo greatestTen : ℚ) := by
    have hcast : 8 * ((n : ℚ) * unitsInOne) + 2 * tenTo greatestTen <
        tenTo greatestTen * tenTo greatestTen := by
      exact_mod_cast hbound
    refine lt_of_mul_lt_mul_right ?_ hT.le
    calc (8 * (n / tenTo greatestTen * unitsInOne) + 2) * (tenTo greatestTen : ℚ)
        = 8 * ((n : ℚ) * unitsInOne) + 2 * tenTo greatestTen := by field_simp
      _ < tenTo greatestTen * tenTo greatestTen := hcast
  have hquotient : (0 : ℚ) ≤ n / tenTo greatestTen := div_nonneg (Nat.cast_nonneg n) hT.le
  have hclose := (abs_le.mp (abs_value_sub_le_of_dividedBy? hx ht hpos hy)).2
  have hleast := (abs_le.mp (abs_value_sub_tenTo_le ht)).1
  have hleft : 2 * (y.value * unitsInOne) < t.value := by
    have hunits : unit * unitsInOne = 1 := one_div_mul_cancel hone.ne'
    have hscaled := mul_le_mul_of_nonneg_right
      (show y.value ≤ 2 * (n / tenTo greatestTen) + unit / 2 by linarith) hone.le
    linarith
  have hcast : 2 * ((y.units : ℚ) * unitsInOne) < t.units := by
    rw [units_eq, units_eq, ← mul_assoc]
    exact mul_lt_mul_of_pos_right hleft hone
  exact_mod_cast hcast

/-- Dividing by a power of ten is off by at most seven parts and a unit. -/
theorem abs_value_sub_le_of_scaleDown? (hn : n < UInt64.size)
    (hx : ofNat? n = some x) (hz : x.scaleDown? k = some z) :
    |z.value - n / tenTo k| ≤ n / tenTo k * (7 / 2 ^ 53) + unit := by
  have hunit := unit_pos
  have hquotient : ∀ j, (0 : ℚ) ≤ n / tenTo j := fun j =>
    div_nonneg (Nat.cast_nonneg n) (cast_tenTo_pos j).le
  by_cases hshort : k ≤ greatestTen
  · obtain ⟨t, ht, hpos, hz⟩ := exists_of_scaleDown? hshort hz
    refine (abs_value_sub_le_of_dividedBy? hx ht hpos hz).trans ?_
    linarith [hquotient k]
  by_cases hlong : 2 * greatestTen < k
  · -- What is left is less than a unit.
    rw [eq_zero_of_scaleDown? hn hlong hx hz, value_zero, zero_sub, abs_neg,
      abs_of_nonneg (hquotient k)]
    have hsize : UInt64.size * unitsInOne ≤ tenTo (2 * greatestTen + 1) := by decide +kernel
    have hle : n * unitsInOne ≤ 1 * tenTo k := by
      rw [Nat.one_mul]
      exact Nat.le_trans (Nat.mul_le_mul_right _ (Nat.le_of_lt hn))
        (Nat.le_trans hsize (tenTo_le_tenTo hlong))
    have hless : (n : ℚ) / tenTo k ≤ unit := by
      rw [unit, div_le_div_iff₀ (cast_tenTo_pos k) cast_unitsInOne_pos]
      exact_mod_cast hle
    linarith [hquotient k]
  · -- The second step divides what the first one is off by.
    obtain ⟨t, y, ht, hpos, hy, hz⟩ := exists_of_scaleDown?_of_lt (Nat.lt_of_not_le hshort) hz
    have hfirst := abs_value_sub_le_of_dividedBy? hx ht hpos hy
    obtain ⟨t', ht', hpos', hz⟩ := exists_of_scaleDown? (by omega) hz
    have hsecond := abs_value_sub_div_le (hquotient _) (by linarith) (by norm_num) (by norm_num)
      hfirst ht' hpos' hz
    have hpowers : tenTo greatestTen * tenTo (k - greatestTen) = tenTo k := by
      rw [← tenTo_add, Nat.add_sub_cancel' (Nat.le_of_not_le hshort)]
    have hten : (10 : ℚ) ≤ tenTo (k - greatestTen) := by
      have hle : tenTo 1 ≤ tenTo (k - greatestTen) := tenTo_le_tenTo (by omega)
      exact_mod_cast hle
    have hleft : unit / 2 / tenTo (k - greatestTen) ≤ unit / 2 / 10 :=
      div_le_div_of_nonneg_left (by linarith) (by norm_num) hten
    rw [div_div, ← Nat.cast_mul, hpowers] at hsecond
    refine hsecond.trans ?_
    linarith [hquotient k]

theorem mul_zpow_ofNat (n k : Nat) : (n : ℚ) * 10 ^ Int.ofNat k = n * tenTo k := by
  rw [Int.ofNat_eq_natCast, zpow_natCast, show tenTo k = 10 ^ k from rfl, Nat.cast_pow]
  rfl

theorem mul_zpow_negSucc (n k : Nat) : (n : ℚ) * 10 ^ Int.negSucc k = n / tenTo (k + 1) := by
  rw [zpow_negSucc, show tenTo (k + 1) = 10 ^ (k + 1) from rfl, Nat.cast_pow, div_eq_mul_inv]
  rfl

/-- **Scaling by a power of ten is close.**  A number below `2 ^ 64` is scaled to a magnitude that is
off by at most seven parts in `2 ^ 53`, and a unit. -/
theorem abs_value_sub_le_of_scale? {e : Int} (hn : n < UInt64.size) (hx : ofNat? n = some x)
    (hz : x.scale? e = some z) : |z.value - n * 10 ^ e| ≤ n * 10 ^ e * (7 / 2 ^ 53) + unit := by
  cases e with
  | ofNat k =>
    have hup := abs_value_sub_le_of_scaleUp? hx hz
    have hpos : (0 : ℚ) ≤ n * tenTo k := mul_nonneg (Nat.cast_nonneg n) (cast_tenTo_pos k).le
    rw [mul_zpow_ofNat]
    linarith
  | negSucc k =>
    rw [mul_zpow_negSucc]
    exact abs_value_sub_le_of_scaleDown? hn hx hz

/-- **A short number is scaled to the nearest magnitude.**  A number of at most 53 binary digits and a
power of ten up to `10 ^ 22` are magnitudes, so only their product or quotient is rounded. -/
theorem isNearest_of_scale? {e : Int} (hn : n < twoTo 53) (he : e.natAbs ≤ 22)
    (hx : ofNat? n = some x) (hz : x.scale? e = some z) : z.IsNearest (n * 10 ^ e) := by
  have hvalue := value_of_ofNat? hn hx
  have hgreatest : 22 ≤ greatestTen := by decide
  cases e with
  | ofNat k =>
    have hk : k ≤ 22 := he
    change x.scaleUp? k = some z at hz
    rw [scaleUp?, if_pos (Nat.le_trans hk hgreatest)] at hz
    obtain ⟨t, ht, hz⟩ := Option.bind_eq_some_iff.mp hz
    rw [mul_zpow_ofNat, ← hvalue, ← value_of_ofNat?_tenTo hk ht]
    exact (rounds_of_times? hz).nearest
  | negSucc k =>
    have hk : k + 1 ≤ 22 := he
    obtain ⟨t, ht, hpos, hz⟩ := exists_of_scaleDown? (Nat.le_trans hk hgreatest) hz
    rw [mul_zpow_negSucc, ← hvalue, ← value_of_ofNat?_tenTo hk ht]
    exact (rounds_of_dividedBy? hpos hz).nearest

end Scaling

end RecordFilter.Binary64.Magnitude
