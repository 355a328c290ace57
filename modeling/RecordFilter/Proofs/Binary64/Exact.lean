import RecordFilter.Proofs.Binary64.Nearest

/-!
# Where rounding is exact, and where it decides

A quotient that is a magnitude is its own nearest magnitude (`nearest?_units`), and rounding sees the
quotient alone, not the two numbers that it is given by (`nearest?_mul_mul`).

The nearest magnitude is above a power of two if the quotient passes the power by a place
(`twoTo_lt_of_nearest?`).
-/

namespace RecordFilter.Binary64

/-! ## Binary digits -/

theorem bitLength_eq_of {n k : Nat} (hlow : twoTo k ≤ n) (hhigh : n < twoTo (k + 1)) :
    bitLength n = k + 1 := by
  have hn : n ≠ 0 := Nat.ne_of_gt (Nat.lt_of_lt_of_le (twoTo_pos k) hlow)
  rw [bitLength, if_neg hn, (Nat.log2_eq_iff hn).mpr ⟨hlow, hhigh⟩]

theorem bitLength_le_of {n k : Nat} (h : n < twoTo k) : bitLength n ≤ k := by
  unfold bitLength
  split
  · exact Nat.zero_le k
  · rename_i hn
    exact (Nat.log2_lt hn).mpr h

/-! ## The nearest natural number -/

theorem divNearestEven_mul (n : Nat) {d : Nat} (hd : 0 < d) : divNearestEven (n * d) d = n := by
  simp [divNearestEven, Nat.mul_div_cancel n hd, hd]

/-- A common factor does not matter. -/
theorem divNearestEven_mul_mul (num den : Nat) {c : Nat} (hc : 0 < c) :
    divNearestEven (num * c) (den * c) = divNearestEven num den := by
  have hlow : 2 * (num % den * c) < den * c ↔ 2 * (num % den) < den := by
    rw [← Nat.mul_assoc, Nat.mul_lt_mul_right hc]
  have hhigh : den * c < 2 * (num % den * c) ↔ den < 2 * (num % den) := by
    rw [← Nat.mul_assoc, Nat.mul_lt_mul_right hc]
  simp only [divNearestEven, Nat.mul_div_mul_right _ _ hc, Nat.mul_mod_mul_right, hlow, hhigh]

namespace Magnitude

/-! ## The nearest magnitude -/

theorem nearest?_congr {num den num' den' : Nat}
    (hscale : quotientScale num den = quotientScale num' den')
    (hsignificand : quotientSignificand num den = quotientSignificand num' den') :
    nearest? num den = nearest? num' den' := by
  simp only [nearest?, hscale, hsignificand]

/-- A common factor of the two numbers does not matter. -/
theorem nearest?_mul_mul (num den : Nat) {c : Nat} (hc : 0 < c) :
    nearest? (num * c) (den * c) = nearest? num den := by
  have hscale : quotientScale (num * c) (den * c) = quotientScale num den := by
    rw [quotientScale, quotientScale, Nat.mul_div_mul_right _ _ hc]
  refine nearest?_congr hscale ?_
  rw [quotientSignificand, quotientSignificand, hscale, Nat.mul_right_comm,
    divNearestEven_mul_mul _ _ hc]

/-- The scale of a magnitude is the one that its binary digits ask for. -/
theorem bitLength_units_sub (m : Magnitude) : bitLength m.units - 53 = m.scale := by
  obtain ⟨hsignificand, -, hnormal⟩ := m.canonical
  rcases hnormal with hscale | hlow
  · have hunits : m.units < twoTo 53 := by
      rw [units, hscale, show twoTo 0 = 1 from rfl, Nat.mul_one]
      exact hsignificand
    have := bitLength_le_of hunits
    omega
  · have hunits : bitLength m.units = 52 + m.scale + 1 := by
      refine bitLength_eq_of ?_ ?_
      · rw [units, twoTo_add]
        exact Nat.mul_le_mul_right _ hlow
      · rw [units, show 52 + m.scale + 1 = 53 + m.scale by omega, twoTo_add]
        exact Nat.mul_lt_mul_of_pos_right hsignificand (twoTo_pos _)
    omega

/-- A quotient that is a magnitude is its own nearest magnitude. -/
theorem nearest?_units (m : Magnitude) {d : Nat} (hd : 0 < d) :
    nearest? (m.units * d) d = some m := by
  have hscale : quotientScale (m.units * d) d = m.scale := by
    rw [quotientScale, Nat.mul_div_cancel _ hd, bitLength_units_sub]
  have hsignificand : quotientSignificand (m.units * d) d = m.significand := by
    rw [quotientSignificand, hscale, units, Nat.mul_assoc, Nat.mul_comm (twoTo m.scale)]
    exact divNearestEven_mul _ (Nat.mul_pos hd (twoTo_pos _))
  obtain ⟨significand, scale, hcanonical⟩ := m
  unfold nearest?
  rw [dif_neg (by rw [hsignificand]; exact Nat.ne_of_lt hcanonical.1),
    dif_pos (by rw [hscale]; exact hcanonical.2.1)]
  simp only [hsignificand, hscale]

/-- A quotient that passes a power of two by a place of its last digit is rounded to a greater
magnitude. -/
theorem twoTo_lt_of_nearest? {num den j : Nat} (hden : 0 < den) {m : Magnitude}
    (h : nearest? num den = some m) (hj : (twoTo (52 + j) + twoTo j) * den ≤ num) :
    twoTo (52 + j) < m.units := by
  by_contra hle
  have hunits : m.units ≤ twoTo (52 + j) := Nat.le_of_not_lt hle
  have hscale : m.scale ≤ j := by
    by_contra hgreater
    have hlow : twoTo 52 ≤ m.significand := by
      rcases m.canonical.2.2 with hzero | hlow
      · omega
      · exact hlow
    have hpast : twoTo 52 * twoTo (j + 1) ≤ m.units :=
      Nat.mul_le_mul hlow (twoTo_le_twoTo (by omega))
    have hdouble : twoTo 52 * twoTo (j + 1) = 2 * twoTo (52 + j) := by
      rw [twoTo_add, twoTo_add, Nat.mul_comm (twoTo j), Nat.mul_left_comm]
      rfl
    have hpos := twoTo_pos (52 + j)
    omega
  have hlt := lt_of_nearest? hden h
  have hsum : m.units + twoTo m.scale ≤ twoTo (52 + j) + twoTo j :=
    Nat.add_le_add hunits (twoTo_le_twoTo hscale)
  exact absurd (Nat.lt_of_lt_of_le hlt (Nat.mul_le_mul_right den hsum)) (Nat.not_lt.mpr hj)

end Magnitude

end RecordFilter.Binary64
