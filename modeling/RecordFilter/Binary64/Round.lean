import RecordFilter.Binary64.Basic

/-!
# Rounding to the 64-bit binary format

`Magnitude.nearest? num den` is the magnitude nearest to the quotient `num / den` of units, a half
going to the even significand; there is none when the quotient rounds past the largest magnitude.
The quotient is cut to 53 binary digits by choosing the scale from its length, and rounding up may
carry into one digit more, which the next scale takes up.

Decimals and integers are rounded through it: a decimal is a quotient of two natural numbers.
-/

namespace RecordFilter.Binary64

/-- The number of binary digits of a natural number; zero has none. -/
def bitLength (n : Nat) : Nat := if n = 0 then 0 else n.log2 + 1

theorem lt_two_pow_bitLength (n : Nat) : n < twoTo (bitLength n) := by
  unfold bitLength
  split
  · rename_i h
    exact h ▸ twoTo_pos 0
  · exact Nat.lt_log2_self

theorem two_pow_le_of_bitLength {n k : Nat} (h : bitLength n = k + 1) : twoTo k ≤ n := by
  unfold bitLength at h
  split at h
  · omega
  · rename_i hn
    obtain rfl : n.log2 = k := by omega
    exact Nat.log2_self_le hn

/-- The natural number nearest to a quotient, a half going to the even one. -/
def divNearestEven (num den : Nat) : Nat :=
  let q := num / den
  let r := num % den
  if 2 * r < den then q
  else if den < 2 * r then q + 1
  else if q % 2 = 0 then q else q + 1

theorem le_divNearestEven (num den : Nat) : num / den ≤ divNearestEven num den := by
  simp only [divNearestEven]
  split
  · exact Nat.le_refl _
  · split
    · omega
    · split <;> omega

theorem divNearestEven_le (num den : Nat) : divNearestEven num den ≤ num / den + 1 := by
  simp only [divNearestEven]
  split
  · omega
  · split
    · omega
    · split <;> omega

/-- The scale at which a quotient has at most 53 binary digits. -/
def quotientScale (num den : Nat) : Nat := bitLength (num / den) - 53

theorem quotient_lt (num den : Nat) : num / (den * twoTo (quotientScale num den)) < twoTo 53 := by
  rw [← Nat.div_div_eq_div_mul, Nat.div_lt_iff_lt_mul (twoTo_pos _), ← twoTo_add]
  refine Nat.lt_of_lt_of_le (lt_two_pow_bitLength _) (twoTo_le_twoTo ?_)
  unfold quotientScale
  omega

theorem le_quotient {num den : Nat} (h : quotientScale num den ≠ 0) :
    twoTo 52 ≤ num / (den * twoTo (quotientScale num den)) := by
  rw [← Nat.div_div_eq_div_mul, Nat.le_div_iff_mul_le (twoTo_pos _), ← twoTo_add]
  refine two_pow_le_of_bitLength ?_
  unfold quotientScale at *
  omega

/-- The significand of a quotient at that scale; rounding up may give it a digit too many. -/
def quotientSignificand (num den : Nat) : Nat :=
  divNearestEven num (den * twoTo (quotientScale num den))

theorem quotientSignificand_le (num den : Nat) : quotientSignificand num den ≤ twoTo 53 :=
  Nat.le_trans (divNearestEven_le _ _) (quotient_lt num den)

theorem le_quotientSignificand {num den : Nat} (h : quotientScale num den ≠ 0) :
    twoTo 52 ≤ quotientSignificand num den :=
  Nat.le_trans (le_quotient h) (le_divNearestEven _ _)

/-- The magnitude nearest to a quotient of units. -/
def Magnitude.nearest? (num den : Nat) : Option Magnitude :=
  if h : quotientSignificand num den = twoTo 53 then
    if hs : quotientScale num den + 1 ≤ 2045 then
      some ⟨twoTo 52, quotientScale num den + 1, by decide, hs, Or.inr (Nat.le_refl _)⟩
    else none
  else
    if hs : quotientScale num den ≤ 2045 then
      some ⟨quotientSignificand num den, quotientScale num den,
        Nat.lt_of_le_of_ne (quotientSignificand_le num den) h, hs,
        (Decidable.em (quotientScale num den = 0)).imp_right le_quotientSignificand⟩
    else none

/-- The number nearest to a signed quotient of units; past the largest magnitude, an infinity. -/
def ofQuotient (negative : Bool) (num den : Nat) : Binary64 :=
  match Magnitude.nearest? num den with
  | some m => finite negative m
  | none => infinite negative

/-- The number nearest to an integer. -/
def ofInt (n : Int) : Binary64 := ofQuotient (n < 0) (n.natAbs * unitsInOne) 1

/-- The number nearest to `digits * 10 ^ exponent` with the given sign.

An exponent from 310 on makes every decimal but zero larger than all finite numbers.  An exponent so
far below zero that the decimal is less than half a unit makes it zero.  Both are answered without
forming the power. -/
def ofDecimal (negative : Bool) (digits : Nat) (exponent : Int) : Binary64 :=
  if digits = 0 then finite negative .zero
  else if 310 ≤ exponent then infinite negative
  else if exponent + (bitLength digits + 1080 : Nat) < 0 then finite negative .zero
  else match exponent with
    | .ofNat e => ofQuotient negative (digits * tenTo e * unitsInOne) 1
    | .negSucc e => ofQuotient negative (digits * unitsInOne) (tenTo (e + 1))

end RecordFilter.Binary64
