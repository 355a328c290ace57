import RecordFilter.Integer
import RecordFilter.Proofs.Json.Scalars

/-!
# The numerals of integers

A numeral is a row of digits, at most with a sign before it (`Spells`).  The reader of numerals
decides between its three forms by the first character, and a digit is no sign, so it reads exactly
the numerals, and of each the integer that it denotes (`ofNumeral?_eq_some_iff`).  An integer has many
numerals, with a plus sign and with leading zeros; the one that it is written with is among them
(`spells_numeralChars`).
-/

namespace RecordFilter.Integer

open Json.Reader (IsDigits isDigits_digits)

/-- The text is a numeral of the integer: digits, at most with a sign before them. -/
inductive Spells : List Char → Int → Prop where
  | unsigned {ds : List Char} : IsDigits ds → Spells ds (ofDigits ds)
  | plus {ds : List Char} : IsDigits ds → Spells ('+' :: ds) (ofDigits ds)
  | minus {ds : List Char} : IsDigits ds → Spells ('-' :: ds) (-(ofDigits ds : Int))

theorem ofDigits_zeros_append (zeros : Nat) (ds : List Char) :
    ofDigits (List.replicate zeros '0' ++ ds) = ofDigits ds := by
  rw [ofDigits, Nat.ofDigitChars_append, Nat.ofDigitChars_replicate_zero, Nat.mul_zero, ofDigits]

/-- A digit is none of the characters that are no digits, such as a sign. -/
theorem ne_of_isDigit {c d : Char} (hc : c.isDigit = true) (hd : d.isDigit = false) :
    c ≠ d := by
  rintro rfl
  rw [hd] at hc
  cases hc

theorem ofUnsigned?_eq_some_iff {cs : List Char} {n : Nat} :
    ofUnsigned? cs = some n ↔ IsDigits cs ∧ ofDigits cs = n := by
  rw [ofUnsigned?, Option.ite_none_right_eq_some, List.all_eq_true, Option.some_inj]
  exact Iff.rfl

theorem ofUnsigned?_of_isDigits {ds : List Char} (h : IsDigits ds) :
    ofUnsigned? ds = some (ofDigits ds) :=
  ofUnsigned?_eq_some_iff.mpr ⟨h, rfl⟩

theorem ofNumeral?_of_isDigits {ds : List Char} (h : IsDigits ds) :
    ofNumeral? ds = some (ofDigits ds : Int) := by
  have hunsigned := ofUnsigned?_of_isDigits h
  obtain ⟨c, cs, rfl, hc⟩ := h.exists_cons
  unfold ofNumeral?
  split
  · rename_i heq
    exact absurd (List.cons.inj heq).1 (ne_of_isDigit hc (by decide))
  · rename_i heq
    exact absurd (List.cons.inj heq).1 (ne_of_isDigit hc (by decide))
  · rw [hunsigned]
    rfl

/-- The reader takes the numerals, and reads of each the integer that it denotes. -/
theorem ofNumeral?_eq_some_iff {cs : List Char} {k : Int} : ofNumeral? cs = some k ↔ Spells cs k := by
  constructor
  · intro h
    unfold ofNumeral? at h
    split at h <;>
      obtain ⟨n, hn, rfl⟩ := Option.map_eq_some_iff.mp h <;>
      obtain ⟨hds, rfl⟩ := ofUnsigned?_eq_some_iff.mp hn
    · exact .plus hds
    · exact .minus hds
    · exact .unsigned hds
  · intro h
    cases h with
    | unsigned hds => exact ofNumeral?_of_isDigits hds
    | @plus ds hds =>
      show (ofUnsigned? ds).map Int.ofNat = _
      rw [ofUnsigned?_of_isDigits hds]
      rfl
    | @minus ds hds =>
      show (ofUnsigned? ds).map (fun n => -(Int.ofNat n)) = _
      rw [ofUnsigned?_of_isDigits hds]
      rfl

/-- An integer is written with a numeral of its own. -/
theorem spells_numeralChars (n : Int) : Spells (numeralChars n) n := by
  have hdigits := isDigits_digits n.natAbs
  have hvalue := ofDigits_digits n.natAbs
  unfold numeralChars
  split
  · rename_i hn
    have h := Spells.minus hdigits
    rwa [hvalue, show -(n.natAbs : Int) = n by omega] at h
  · rename_i hn
    have h := Spells.unsigned hdigits
    rwa [hvalue, show (n.natAbs : Int) = n by omega] at h

/-- The numeral of an integer denotes this integer, also with a plus sign. -/
theorem ofNumeral?_numeralChars (n : Int) (plus : List Char)
    (hplus : plus = [] ∨ plus = ['+'] ∧ 0 ≤ n) :
    ofNumeral? (plus ++ numeralChars n) = some n := by
  rw [ofNumeral?_eq_some_iff]
  rcases hplus with rfl | ⟨rfl, hn⟩
  · exact spells_numeralChars n
  · have h := Spells.plus (isDigits_digits n.natAbs)
    rw [ofDigits_digits, show (n.natAbs : Int) = n by omega] at h
    rwa [numeralChars, if_neg (by omega)]

end RecordFilter.Integer
