import Mathlib.Tactic.Ring
import RecordFilter.Binary64.Scale

/-!
# How far rounding goes

A quotient of units is rounded to a magnitude that is off by less than one place of its last binary
digit (`lt_of_nearest?`), and an integer grows by at most one part in `2 ^ 53`
(`units_le_of_nearest?`).  Only a quotient that lies at least halfway between the largest magnitude
and the limit is past the magnitudes (`nearest?_ne_none`).

A product of two rounded numbers is rounded three times, so it stays among the magnitudes if the
exact product keeps away from the limit by three places (`times?_ne_none`).  A quotient by a power
of ten never comes near it (`scaleDown?_ne_none`).
-/

namespace RecordFilter.Binary64

/-! ## The nearest natural number -/

theorem divNearestEven_eq (num den : Nat) :
    divNearestEven num den = num / den ∧ 2 * (num % den) ≤ den ∨
      divNearestEven num den = num / den + 1 ∧ den ≤ 2 * (num % den) := by
  simp only [divNearestEven]
  split
  · exact Or.inl ⟨rfl, by omega⟩
  · split
    · exact Or.inr ⟨rfl, by omega⟩
    · split
      · exact Or.inl ⟨rfl, by omega⟩
      · exact Or.inr ⟨rfl, by omega⟩

/-- Rounding goes up by at most one half. -/
theorem two_mul_divNearestEven_le (num den : Nat) :
    2 * (divNearestEven num den * den) ≤ 2 * num + den := by
  have hdiv := Nat.div_add_mod num den
  have hcomm := Nat.mul_comm den (num / den)
  rcases divNearestEven_eq num den with ⟨h, hr⟩ | ⟨h, hr⟩
  · rw [h]
    omega
  · rw [h, Nat.add_mul]
    omega

/-- Rounding goes down by less than one. -/
theorem lt_divNearestEven_succ_mul (num : Nat) {den : Nat} (hden : 0 < den) :
    num < (divNearestEven num den + 1) * den := by
  have hle := Nat.mul_le_mul_right den (Nat.add_le_add_right (le_divNearestEven num den) 1)
  exact Nat.lt_of_lt_of_le (Nat.lt_mul_of_div_lt (Nat.lt_succ_self _) hden) hle

theorem divNearestEven_one (num : Nat) : divNearestEven num 1 = num := by
  simp [divNearestEven, Nat.mod_one]

/-! ## The nearest magnitude -/

namespace Magnitude

/-- The nearest magnitude is the rounded significand at the scale of the quotient. -/
theorem units_of_nearest? {num den : Nat} {m : Magnitude} (h : nearest? num den = some m) :
    m.units = quotientSignificand num den * twoTo (quotientScale num den) ∧
      quotientScale num den ≤ m.scale := by
  unfold nearest? at h
  split at h
  · rename_i hcarry
    split at h
    · rw [← Option.some_inj.mp h]
      refine ⟨?_, Nat.le_succ _⟩
      show twoTo 52 * twoTo (quotientScale num den + 1) = _
      rw [hcarry, Nat.add_comm, twoTo_add, ← Nat.mul_assoc]
      rfl
    · cases h
  · split at h
    · rw [← Option.some_inj.mp h]
      exact ⟨rfl, Nat.le_refl _⟩
    · cases h

/-- A quotient lies less than one place above its nearest magnitude. -/
theorem lt_of_nearest? {num den : Nat} (hden : 0 < den) {m : Magnitude}
    (h : nearest? num den = some m) : num < (m.units + twoTo m.scale) * den := by
  obtain ⟨hunits, hscale⟩ := units_of_nearest? h
  have hlt := lt_divNearestEven_succ_mul num
    (Nat.mul_pos hden (twoTo_pos (quotientScale num den)))
  have heq : (quotientSignificand num den + 1) * (den * twoTo (quotientScale num den)) =
      (m.units + twoTo (quotientScale num den)) * den := by
    rw [hunits, ← Nat.add_one_mul, Nat.mul_assoc, Nat.mul_comm den]
  refine Nat.lt_of_lt_of_le (Nat.lt_of_lt_of_eq hlt heq) (Nat.mul_le_mul_right den ?_)
  exact Nat.add_le_add_left (twoTo_le_twoTo hscale) m.units

/-- An integer grows by at most one part in `2 ^ 53`. -/
theorem units_le_of_nearest? {num : Nat} {m : Magnitude} (h : nearest? num 1 = some m) :
    m.units * twoTo 53 ≤ num * (twoTo 53 + 1) := by
  obtain ⟨hunits, -⟩ := units_of_nearest? h
  rw [hunits, quotientSignificand, Nat.one_mul]
  by_cases hs : quotientScale num 1 = 0
  · rw [hs]
    change divNearestEven num 1 * 1 * twoTo 53 ≤ num * (twoTo 53 + 1)
    rw [divNearestEven_one, Nat.mul_one]
    exact Nat.mul_le_mul_left num (Nat.le_succ _)
  · have hup := two_mul_divNearestEven_le num (twoTo (quotientScale num 1))
    have hlow := le_quotient hs
    rw [Nat.one_mul, Nat.le_div_iff_mul_le (twoTo_pos _)] at hlow
    generalize divNearestEven num (twoTo (quotientScale num 1)) * twoTo (quotientScale num 1) = u
      at hup
    generalize twoTo (quotientScale num 1) = place at hup hlow
    have h52 : twoTo 52 = 4503599627370496 := rfl
    have h53 : twoTo 53 = 9007199254740992 := rfl
    rw [h52] at hlow
    rw [h53]
    omega

/-- A quotient that is at least a power of two is rounded to at least this power. -/
theorem twoTo_le_of_nearest? {num den j : Nat} (hden : 0 < den) {m : Magnitude}
    (h : nearest? num den = some m) (hj : twoTo j * den ≤ num) : twoTo j ≤ m.units := by
  obtain ⟨hunits, -⟩ := units_of_nearest? h
  rw [hunits]
  by_cases hs : quotientScale num den ≤ j
  · have hsplit : twoTo j = twoTo (j - quotientScale num den) * twoTo (quotientScale num den) := by
      rw [← twoTo_add, Nat.sub_add_cancel hs]
    rw [hsplit]
    refine Nat.mul_le_mul_right _ (Nat.le_trans ?_ (le_divNearestEven _ _))
    rw [Nat.le_div_iff_mul_le (Nat.mul_pos hden (twoTo_pos _)), Nat.mul_left_comm, ← hsplit,
      Nat.mul_comm]
    exact hj
  · have hsig : 0 < quotientSignificand num den :=
      Nat.lt_of_lt_of_le (twoTo_pos 52) (le_quotientSignificand (by omega))
    exact Nat.le_trans (twoTo_le_twoTo (by omega)) (Nat.le_mul_of_pos_left _ hsig)

/-- A quotient that is nearer to the largest magnitude than to the limit has a nearest magnitude. -/
theorem nearest?_ne_none {num den : Nat}
    (h : 2 * num < (twoTo 54 - 1) * (den * twoTo 2045)) : nearest? num den ≠ none := by
  have h54 : twoTo 54 = 18014398509481984 := rfl
  have h53 : twoTo 53 = 9007199254740992 := rfl
  have h52 : twoTo 52 = 4503599627370496 := rfl
  have hq := quotient_lt num den
  have hdiv := Nat.div_add_mod num (den * twoTo (quotientScale num den))
  rw [h54] at h
  unfold nearest?
  split
  · rename_i hcarry
    split
    · exact fun hnone => nomatch hnone
    · -- The significand was rounded up to `2 ^ 53`, from one half below it at least.
      rename_i hs
      exfalso
      have hplace : den * twoTo 2045 ≤ den * twoTo (quotientScale num den) :=
        Nat.mul_le_mul_left den (twoTo_le_twoTo (by omega))
      have hround := divNearestEven_eq num (den * twoTo (quotientScale num den))
      rw [quotientSignificand] at hcarry
      rw [hcarry] at hround
      generalize num / (den * twoTo (quotientScale num den)) = q at *
      generalize num % (den * twoTo (quotientScale num den)) = r at *
      obtain rfl : q = 9007199254740991 := by omega
      omega
  · split
    · exact fun hnone => nomatch hnone
    · -- The quotient has more binary digits than the largest magnitude.
      rename_i hs
      exfalso
      have hplace : den * twoTo 2046 ≤ den * twoTo (quotientScale num den) :=
        Nat.mul_le_mul_left den (twoTo_le_twoTo (by omega))
      have hdouble : den * twoTo 2046 = 2 * (den * twoTo 2045) := by
        rw [show 2046 = 1 + 2045 from rfl, twoTo_add, Nat.mul_left_comm]
        rfl
      have hlow := le_quotient (show quotientScale num den ≠ 0 by omega)
      generalize num / (den * twoTo (quotientScale num den)) = q at *
      have hprod := Nat.mul_le_mul_left (den * twoTo (quotientScale num den)) hlow
      rw [h52] at hprod
      omega

/-! ## Scaling -/

theorem unitsInOne_pos : 0 < unitsInOne := twoTo_pos _

/-- A product of two rounded integers is a magnitude if the exact product stays three places below
the limit. -/
theorem times?_ne_none {a b : Nat} {x y : Magnitude} (hx : ofNat? a = some x)
    (hy : ofNat? b = some y) (h : a * b * unitsInOne < (twoTo 53 - 3) * twoTo 2045) :
    x.times? y ≠ none := by
  refine nearest?_ne_none ?_
  have hxu := units_le_of_nearest? hx
  have hyu := units_le_of_nearest? hy
  have hone := unitsInOne_pos
  generalize x.units = xu at *
  generalize y.units = yu at *
  generalize unitsInOne = one at *
  generalize twoTo 2045 = top at *
  have h53 : twoTo 53 = 9007199254740992 := rfl
  have h54 : twoTo 54 = 18014398509481984 := rfl
  rw [h53] at hxu hyu h
  rw [h54]
  have hprod := Nat.mul_le_mul hxu hyu
  have hexact := Nat.mul_lt_mul_of_pos_right h hone
  have hleft : xu * 9007199254740992 * (yu * 9007199254740992) =
      81129638414606681695789005144064 * (xu * yu) := by
    ring
  have hright : a * one * (9007199254740992 + 1) * (b * one * (9007199254740992 + 1)) =
      81129638414606699710187514626049 * (a * b * one * one) := by
    ring
  rw [hleft, hright] at hprod
  have htop : (9007199254740992 - 3) * top * one = 9007199254740989 * (one * top) := by
    ring
  rw [htop] at hexact
  generalize a * b * one * one = exact at *
  omega

/-- A quotient by a magnitude that is at least one is a magnitude. -/
theorem dividedBy?_ne_none (x : Magnitude) {y : Magnitude} (hy : unitsInOne ≤ y.units) :
    x.dividedBy? y ≠ none := by
  refine nearest?_ne_none ?_
  obtain ⟨hsig, hscale, -⟩ := x.canonical
  have hone := unitsInOne_pos
  have hx : x.units ≤ (twoTo 53 - 1) * twoTo 2045 :=
    Nat.mul_le_mul (Nat.le_sub_one_of_lt hsig) (twoTo_le_twoTo hscale)
  have hprod := Nat.mul_le_mul hx hy
  have htop : 0 < twoTo 2045 := twoTo_pos _
  have hpos : 0 < y.units * twoTo 2045 := Nat.mul_pos (Nat.lt_of_lt_of_le hone hy) htop
  have h53 : twoTo 53 = 9007199254740992 := rfl
  have h54 : twoTo 54 = 18014398509481984 := rfl
  rw [h53, Nat.mul_assoc, Nat.mul_comm (twoTo 2045)] at hprod
  rw [h54]
  generalize y.units * twoTo 2045 = bound at *
  generalize x.units * unitsInOne = num at *
  omega

/-- An integer below `2 ^ 1024` by more than one place has a nearest magnitude. -/
theorem exists_ofNat? {n : Nat} (hn : n ≤ tenTo greatestTen) : ∃ x, ofNat? n = some x := by
  refine Option.ne_none_iff_exists'.mp (nearest?_ne_none ?_)
  have htop : 2 * (tenTo greatestTen * unitsInOne) < (twoTo 54 - 1) * (1 * twoTo 2045) := by
    decide +kernel
  have hle := Nat.mul_le_mul_right unitsInOne hn
  generalize tenTo greatestTen * unitsInOne = most at *
  generalize (twoTo 54 - 1) * (1 * twoTo 2045) = bound at *
  omega

/-- The powers of ten up to the greatest are magnitudes, and at least one. -/
theorem exists_ofNat?_tenTo {k : Nat} (hk : k ≤ greatestTen) :
    ∃ y, ofNat? (tenTo k) = some y ∧ unitsInOne ≤ y.units := by
  obtain ⟨y, hy⟩ := exists_ofNat? (tenTo_le_tenTo hk)
  refine ⟨y, hy, twoTo_le_of_nearest? Nat.one_pos hy ?_⟩
  rw [Nat.mul_one]
  exact Nat.le_mul_of_pos_left _ (tenTo_pos k)

/-- Dividing by a power of ten stays among the magnitudes. -/
theorem scaleDown?_ne_none (x : Magnitude) (k : Nat) : x.scaleDown? k ≠ none := by
  induction k using Nat.strongRecOn generalizing x with
  | ind k ih =>
    rw [scaleDown?]
    split
    · rename_i hk
      obtain ⟨y, hy, hone⟩ := exists_ofNat?_tenTo hk
      rw [hy, Option.bind_some]
      exact x.dividedBy?_ne_none hone
    · rename_i hk
      split
      · exact fun h => nomatch h
      · obtain ⟨y, hy, hone⟩ := exists_ofNat?_tenTo (Nat.le_refl greatestTen)
        obtain ⟨z, hz⟩ := Option.ne_none_iff_exists'.mp (x.dividedBy?_ne_none hone)
        rw [hy, Option.bind_some, hz, Option.bind_some]
        exact ih (k - greatestTen) (by unfold greatestTen at *; omega) z

theorem ofNat?_zero : ofNat? 0 = some zero := by
  decide +kernel

/-- Multiplying by a power of ten stays among the magnitudes if the exact product stays three places
below the limit. -/
theorem scaleUp?_ne_none {n k : Nat} {x : Magnitude} (hx : ofNat? n = some x)
    (h : n * tenTo k * unitsInOne < (twoTo 53 - 3) * twoTo 2045) : x.scaleUp? k ≠ none := by
  unfold scaleUp?
  split
  · rename_i hk
    obtain ⟨y, hy, -⟩ := exists_ofNat?_tenTo hk
    rw [hy, Option.bind_some]
    exact times?_ne_none hx hy h
  · rename_i hk
    split
    · exact fun h => nomatch h
    · -- A number other than zero would exceed the limit.
      rename_i hzero
      exfalso
      have hn : n ≠ 0 := by
        rintro rfl
        exact hzero (Option.some_inj.mp (hx.symm.trans ofNat?_zero))
      have hpast : (twoTo 53 - 3) * twoTo 2045 ≤ tenTo 309 * unitsInOne := by decide +kernel
      have hpower : tenTo 309 ≤ n * tenTo k :=
        Nat.le_trans (tenTo_le_tenTo (Nat.lt_of_not_le hk))
          (Nat.le_mul_of_pos_left _ (Nat.pos_of_ne_zero hn))
      have hle := Nat.mul_le_mul_right unitsInOne hpower
      exact absurd h (Nat.not_lt.mpr (Nat.le_trans hpast hle))

/-- Scaling by a power of ten stays among the magnitudes if the exact result stays three places
below the limit. -/
theorem scale?_ne_none {n : Nat} {k : Int} {x : Magnitude} (hx : ofNat? n = some x)
    (h : 0 ≤ k → n * tenTo k.toNat * unitsInOne < (twoTo 53 - 3) * twoTo 2045) :
    x.scale? k ≠ none := by
  cases k with
  | ofNat k => exact scaleUp?_ne_none hx (h (Int.natCast_nonneg k))
  | negSucc k => exact x.scaleDown?_ne_none (k + 1)

end Magnitude

end RecordFilter.Binary64
