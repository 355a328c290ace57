import RecordFilter.Proofs.Binary64.Nearest
import RecordFilter.Proofs.Json.Floats

/-!
# The text of a finite number is always read

A number whose text denotes more than the largest magnitude would be refused.  What is read of a
text may be larger than what it denotes, since it is rounded three times, and the shortest decimal
of the largest magnitude is itself larger than this magnitude.  So the two have to be compared.

* A decimal that is read as a magnitude exceeds it by less than one place (`lt_of_shortest`).
* What is kept of a numeral is at most the decimal that it spells (`atLeast_kept`).
* The three roundings go up by less than three places (`Magnitude.scale?_ne_none`), so nothing but
  the three largest magnitudes comes near the limit, and these are read (`isSome_toFloat?_top`).
-/

namespace RecordFilter

/-! ## Decimals and magnitudes -/

/-- The decimal is at least the natural number. -/
def Decimal.AtLeast (d : Decimal) (n : Nat) : Prop :=
  n * tenTo (-d.exponent).toNat ≤ d.digits * tenTo d.exponent.toNat

namespace Binary64.Magnitude

theorem tenTo_zero : tenTo 0 = 1 := rfl

theorem twoTo_le_tenTo (k : Nat) : twoTo k ≤ tenTo k :=
  Nat.pow_le_pow_left (by decide) k

theorem nearest?_of_ofQuotient {negative : Bool} {num den : Nat} {m : Magnitude}
    (h : ofQuotient negative num den = finite negative m) : nearest? num den = some m := by
  unfold ofQuotient at h
  cases hm : nearest? num den with
  | none =>
    rw [hm] at h
    cases h
  | some m' =>
    rw [hm] at h
    injection h with _ hmm
    rw [hmm]

/-- A natural number is less than one place above the magnitude that a decimal not below it is read
as. -/
theorem lt_of_ofDecimal {negative : Bool} {d : Decimal} {m : Magnitude}
    (h : ofDecimal negative d.digits d.exponent = finite negative m) {n : Nat}
    (hn : d.AtLeast n) : n * unitsInOne < m.units + twoTo m.scale := by
  have hpos : 0 < m.units + twoTo m.scale := Nat.add_pos_right _ (twoTo_pos _)
  have hzero : n = 0 → n * unitsInOne < m.units + twoTo m.scale := by
    rintro rfl
    rwa [Nat.zero_mul]
  obtain ⟨digits, exponent⟩ := d
  unfold Decimal.AtLeast at hn
  unfold ofDecimal at h
  split at h
  · rename_i hdigits
    refine hzero ?_
    rw [hdigits, Nat.zero_mul] at hn
    exact (Nat.mul_eq_zero.mp (Nat.le_zero.mp hn)).resolve_right (Nat.ne_of_gt (tenTo_pos _))
  split at h
  · cases h
  split at h
  · -- The decimal is below one, and so far below that its power of ten exceeds its digits.
    rename_i hsmall
    refine hzero (Nat.eq_zero_of_not_pos fun hpos => ?_)
    simp only at hsmall
    have hexponent : exponent.toNat = 0 := by omega
    have hdigits : digits < tenTo (-exponent).toNat :=
      Nat.lt_of_lt_of_le (lt_two_pow_bitLength digits)
        (Nat.le_trans (twoTo_le_tenTo _) (tenTo_le_tenTo (by omega)))
    have hpower := Nat.le_mul_of_pos_left (tenTo (-exponent).toNat) hpos
    rw [hexponent] at hn
    change n * tenTo (-exponent).toNat ≤ digits * 1 at hn
    omega
  · cases exponent with
    | ofNat e =>
      have hlt := lt_of_nearest? Nat.one_pos (nearest?_of_ofQuotient h)
      have hexponent : (-Int.ofNat e).toNat = 0 := Int.toNat_neg_natCast e
      rw [Nat.mul_one] at hlt
      rw [hexponent] at hn
      change n * 1 ≤ digits * tenTo e at hn
      rw [Nat.mul_one] at hn
      exact Nat.lt_of_le_of_lt (Nat.mul_le_mul_right unitsInOne hn) hlt
    | negSucc e =>
      have hlt := lt_of_nearest? (tenTo_pos (e + 1)) (nearest?_of_ofQuotient h)
      change n * tenTo (e + 1) ≤ digits * 1 at hn
      have hle := Nat.mul_le_mul_right unitsInOne hn
      rw [Nat.mul_one, Nat.mul_right_comm] at hle
      exact Nat.lt_of_mul_lt_mul_right (Nat.lt_of_le_of_lt hle hlt)

/-- A natural number is less than one place above a magnitude if it is at most the decimal that the
magnitude is written as. -/
theorem lt_of_shortestFrom {tie : Decimal.Tie} {m : Magnitude} {n : Nat} (drop : Nat)
    (hn : (m.shortestFrom tie drop).AtLeast n) : n * unitsInOne < m.units + twoTo m.scale := by
  induction drop with
  | zero =>
    have hten : tenTo 1074 = unitsInOne * expansionFactor := by decide +kernel
    have hle : n * tenTo 1074 ≤ m.units * expansionFactor * tenTo 0 := hn
    rw [hten, ← Nat.mul_assoc, tenTo_zero, Nat.mul_one] at hle
    exact Nat.lt_of_le_of_lt (Nat.le_of_mul_le_mul_right hle expansionFactor_pos)
      (Nat.lt_add_of_pos_right (twoTo_pos _))
  | succ drop ih =>
    rw [shortestFrom] at hn
    cases hgrid : m.onGrid? tie (drop + 1) with
    | none =>
      rw [hgrid] at hn
      exact ih hn
    | some d =>
      rw [hgrid] at hn
      exact lt_of_ofDecimal (readsBack_iff.mp (readsBack_of_onGrid? hgrid)) hn

theorem lt_of_shortest {tie : Decimal.Tie} {m : Magnitude} {n : Nat}
    (hn : (m.shortest tie).AtLeast n) : n * unitsInOne < m.units + twoTo m.scale := by
  unfold shortest at hn
  split at hn
  · have hzero : n * 1 ≤ 0 * 1 := hn
    obtain rfl : n = 0 := by omega
    rw [Nat.zero_mul]
    exact Nat.add_pos_right _ (twoTo_pos _)
  · exact lt_of_shortestFrom _ hn

end Binary64.Magnitude

/-! ## What is kept of a numeral -/

namespace Json

/-- Appending digits multiplies by a power of ten at least. -/
theorem mul_tenTo_le_ofDigitChars (n : Nat) (cs : List Char) :
    n * tenTo cs.length ≤ Nat.ofDigitChars 10 cs n := by
  rw [Nat.ofDigitChars_eq_ofDigitChars_zero, Nat.mul_comm n]
  exact Nat.le_add_right _ _

/-- The number that is kept of some digits, with a zero for each of the others, is at most the
number that they all make. -/
theorem keepDigits_mul_le (n : Nat) (cs : List Char) :
    (keepDigits n cs).1 * tenTo (keepDigits n cs).2.length ≤ Nat.ofDigitChars 10 cs n := by
  rw [← ofDigitChars_keepDigits]
  exact mul_tenTo_le_ofDigitChars _ _

theorem length_keepDigits_le (n : Nat) (cs : List Char) :
    (keepDigits n cs).2.length ≤ cs.length := by
  induction cs generalizing n with
  | nil => exact Nat.le_refl _
  | cons c cs ih =>
    rw [keepDigits]
    split
    · exact Nat.le_succ_of_le (ih _)
    · exact Nat.le_refl _

namespace Numeral

theorem kept_lt (n : Numeral) : n.kept.1 < UInt64.size :=
  keepDigits_lt (keepDigits_lt (by decide) _) _

/-- Only digits left out of the whole part raise the power of ten above the exponent. -/
theorem kept_snd_le (n : Numeral) : n.kept.2 ≤ n.whole.length + n.exponent.getD 0 := by
  have hwhole := length_keepDigits_le 0 n.whole
  simp only [kept]
  omega

/-- A numeral is read as a number if the number that is kept of it can be scaled. -/
theorem isSome_toFloat?_of {n : Numeral}
    (h : 0 ≤ n.kept.2 →
      n.kept.1 * tenTo n.kept.2.toNat * Binary64.unitsInOne < (twoTo 53 - 3) * twoTo 2045) :
    n.toFloat?.isSome = true := by
  have hsize : UInt64.size ≤ tenTo Binary64.Magnitude.greatestTen := by decide +kernel
  obtain ⟨x, hx⟩ := Binary64.Magnitude.exists_ofNat?
    (Nat.le_trans (Nat.le_of_lt n.kept_lt) hsize)
  obtain ⟨y, hy⟩ := Option.ne_none_iff_exists'.mp (Binary64.Magnitude.scale?_ne_none hx h)
  simp [toFloat?, hx, hy]

end Numeral

end Json

/-! ## Written decimals -/

namespace Decimal

open Json (keepDigits)

/-- What a positional numeral keeps is scaled by few powers of ten. -/
theorem kept_numeral_snd_le {d : Decimal} (negative : Bool)
    (h : Json.numberLayout.writesPositionally (d.point - 1) = true) :
    (d.numeral negative).kept.2 ≤ 16 := by
  have hpoint : d.point ≤ 16 := by
    have hgreatest := (Bool.and_eq_true_iff.mp h).2
    have : d.point - 1 ≤ 15 := of_decide_eq_true hgreatest
    omega
  have hlength : (d.numeral negative).whole.length ≤ 16 ∧
      (d.numeral negative).exponent = none := by
    unfold numeral
    simp only [h, if_true]
    split
    · exact ⟨by simp, rfl⟩
    · split
      · refine ⟨?_, rfl⟩
        show (d.significant ++ _).length ≤ 16
        rw [List.length_append, List.length_replicate]
        omega
      · refine ⟨?_, rfl⟩
        show (d.significant.take _).length ≤ 16
        rw [List.length_take]
        omega
  have hkept := (d.numeral negative).kept_snd_le
  rw [hlength.2, Option.getD_none] at hkept
  omega

/-- The significant digits, with a zero for each of the others, make all digits. -/
theorem exists_significant_mul (d : Decimal) :
    ∃ zeros, (Integer.digits d.digits).length = d.significant.length + zeros ∧
      d.digits = Integer.ofDigits d.significant * tenTo zeros := by
  obtain ⟨zeros, hdigits⟩ := exists_digits_eq d
  refine ⟨zeros, by rw [hdigits, List.length_append, List.length_replicate], ?_⟩
  rw [← Integer.ofDigits_digits d.digits, hdigits, Integer.ofDigits_append_zeros]

theorem keepDigits_singleton {c : Char} (hc : c.isDigit = true) :
    keepDigits 0 [c] = (Nat.ofDigitChars 10 [c] 0, []) := by
  have hnine : c.toNat ≤ 57 := (Char.isDigit_iff_toNat.mp hc).2
  have hsize : UInt64.size = 18446744073709551616 := rfl
  have hlt : 10 * 0 + (c.toNat - '0'.toNat) < UInt64.size := by omega
  rw [keepDigits]
  simp only [if_pos hlt]
  rfl

/-- An exponential numeral keeps all of its whole part, a single digit. -/
theorem kept_numeral {d : Decimal} (negative : Bool)
    (h : ¬ Json.numberLayout.writesPositionally (d.point - 1) = true) {c : Char}
    {cs : List Char} (hcons : d.significant = c :: cs) (hc : c.isDigit = true) :
    (d.numeral negative).kept =
      ((keepDigits (Nat.ofDigitChars 10 [c] 0) cs).1,
        ((keepDigits (Nat.ofDigitChars 10 [c] 0) cs).2.length : Int) - cs.length +
          (d.point - 1)) := by
  have hlength := Json.length_keepDigits_le (Nat.ofDigitChars 10 [c] 0) cs
  have hwhole : (d.numeral negative).whole = [c] := by
    unfold numeral
    simp only [h, if_false, hcons, Bool.false_eq_true, List.take_succ_cons, List.take_zero]
  have hfraction : (d.numeral negative).fraction.getD [] = cs := by
    unfold numeral
    simp only [h, if_false, hcons, Bool.false_eq_true, List.drop_succ_cons, List.drop_zero]
    cases cs with
    | nil => rfl
    | cons c' cs => simp
  have hexponent : (d.numeral negative).exponent = some (d.point - 1) := by
    unfold numeral
    simp only [h, if_false, Bool.false_eq_true]
  unfold Json.Numeral.kept
  simp only [hwhole, hfraction, hexponent, keepDigits_singleton hc, Option.getD_some,
    List.length_nil, Prod.mk.injEq, true_and]
  omega

/-- What an exponential numeral keeps is at most the decimal. -/
theorem atLeast_kept {d : Decimal} (negative : Bool)
    (h : ¬ Json.numberLayout.writesPositionally (d.point - 1) = true)
    (hk : 0 ≤ (d.numeral negative).kept.2) :
    d.AtLeast ((d.numeral negative).kept.1 * tenTo (d.numeral negative).kept.2.toNat) := by
  obtain ⟨zeros, hlength, hdigits⟩ := d.exists_significant_mul
  obtain ⟨c, cs, hcons, hc⟩ := (isDigits_significant d).exists_cons
  have hkept := kept_numeral negative h hcons hc
  have hkeep := Json.keepDigits_mul_le (Nat.ofDigitChars 10 [c] 0) cs
  have hall : Nat.ofDigitChars 10 cs (Nat.ofDigitChars 10 [c] 0) =
      Integer.ofDigits d.significant := by
    rw [← Nat.ofDigitChars_append, hcons]
    rfl
  rw [hall] at hkeep
  rw [hkept] at hk ⊢
  generalize (keepDigits (Nat.ofDigitChars 10 [c] 0) cs).1 = kept at *
  generalize (keepDigits (Nat.ofDigitChars 10 [c] 0) cs).2.length = left at *
  have hpoint : d.point = (cs.length : Int) + 1 + zeros + d.exponent := by
    rw [point, hlength, hcons, List.length_cons]
    omega
  have hpowers : ((left : Int) - cs.length + (d.point - 1)).toNat + (-d.exponent).toNat =
      left + zeros + d.exponent.toNat := by
    simp only at hk
    omega
  have hproduct : kept * tenTo (left + zeros) ≤ d.digits := by
    rw [tenTo_add, ← Nat.mul_assoc]
    exact Nat.le_trans (Nat.mul_le_mul_right _ hkeep) (Nat.le_of_eq hdigits.symm)
  unfold AtLeast
  rw [Nat.mul_assoc, ← tenTo_add, hpowers, tenTo_add, ← Nat.mul_assoc]
  exact Nat.mul_le_mul_right _ hproduct

end Decimal

/-! ## Every finite number is read -/

namespace Binary64

/-- The largest magnitudes, counted downwards. -/
def Magnitude.top (j : Fin 3) : Magnitude where
  significand := twoTo 53 - 1 - j
  scale := 2045
  canonical := by
    revert j
    decide

/-- The texts of the three largest magnitudes are read. -/
theorem isSome_toFloat?_top : ∀ j, (((Magnitude.top j).shortest Json.numberLayout.tie).numeral
    false).toFloat?.isSome = true := by
  decide +kernel

/-- All other magnitudes stay three places below the limit, with the next place added. -/
theorem Magnitude.eq_top_or_le (m : Magnitude) :
    (∃ j, m = top j) ∨ m.units + twoTo m.scale ≤ (twoTo 53 - 3) * twoTo 2045 := by
  have h53 : twoTo 53 = 9007199254740992 := rfl
  obtain ⟨hsig, hscale, -⟩ := m.canonical
  have hunits : m.units + twoTo m.scale = (m.significand + 1) * twoTo m.scale := by
    rw [units, Nat.add_one_mul]
  rw [hunits]
  by_cases hlow : m.significand + 1 ≤ twoTo 53 - 3
  · exact Or.inr (Nat.mul_le_mul hlow (twoTo_le_twoTo hscale))
  · by_cases htop : m.scale = 2045
    · refine Or.inl ⟨⟨twoTo 53 - 1 - m.significand, by omega⟩, ?_⟩
      obtain ⟨significand, scale, canonical⟩ := m
      simp only at hsig hlow htop
      subst htop
      simp only [top, Magnitude.mk.injEq, and_true]
      omega
    · refine Or.inr ?_
      have htwo : twoTo 1 = 2 := rfl
      have hdouble : twoTo 2045 = 2 * twoTo 2044 := by rw [← htwo, ← twoTo_add]
      have hprod := Nat.mul_le_mul (Nat.succ_le_of_lt hsig)
        (twoTo_le_twoTo (show m.scale ≤ 2044 by omega))
      rw [hdouble]
      rw [h53] at hprod ⊢
      generalize (m.significand + 1) * twoTo m.scale = next at *
      generalize twoTo 2044 = place at *
      omega

theorem kept_numeral_eq (d : Decimal) (negative : Bool) :
    (d.numeral negative).kept = (d.numeral false).kept := by
  unfold Decimal.numeral
  simp only
  split
  · split
    · rfl
    · split <;> rfl
  · rfl

/-- The text of a finite number is read if that of its absolute value is. -/
theorem isSome_toFloat?_numeral (d : Decimal) (negative : Bool) :
    (d.numeral negative).toFloat?.isSome = (d.numeral false).toFloat?.isSome := by
  unfold Json.Numeral.toFloat?
  rw [kept_numeral_eq d negative]
  cases h : Magnitude.ofNat? (d.numeral false).kept.1 with
  | none => simp [h]
  | some x => cases hscale : x.scale? (d.numeral false).kept.2 <;> simp [h, hscale]

/-- The text of every finite number is read. -/
theorem isSome_reread?_iff {x : Binary64} : x.reread?.isSome = true ↔ x.isFinite = true := by
  cases x with
  | nan => exact Iff.rfl
  | infinite negative => exact Iff.rfl
  | finite negative m =>
    refine ⟨fun _ => rfl, fun _ => ?_⟩
    rw [reread?, isSome_toFloat?_numeral]
    rcases m.eq_top_or_le with ⟨j, rfl⟩ | hm
    · exact isSome_toFloat?_top j
    refine Json.Numeral.isSome_toFloat?_of fun hk => ?_
    generalize hd : m.shortest Json.numberLayout.tie = d at *
    by_cases hlayout : Json.numberLayout.writesPositionally (d.point - 1) = true
    · -- Less than `2 ^ 64` is kept, with at most sixteen zeros.
      have hbound : UInt64.size * tenTo 16 * unitsInOne < (twoTo 53 - 3) * twoTo 2045 := by
        decide +kernel
      have hpower := Decimal.kept_numeral_snd_le false hlayout
      refine Nat.lt_of_le_of_lt (Nat.mul_le_mul_right _ (Nat.mul_le_mul ?_ ?_)) hbound
      · exact Nat.le_of_lt (d.numeral false).kept_lt
      · exact tenTo_le_tenTo (by omega)
    · have hle := Decimal.atLeast_kept false hlayout hk
      rw [← hd] at hle
      rw [← hd]
      exact Nat.lt_of_lt_of_le (Magnitude.lt_of_shortest hle) hm

end Binary64

end RecordFilter
