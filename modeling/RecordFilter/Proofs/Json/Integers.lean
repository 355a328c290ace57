import RecordFilter.Proofs.Binary64.Exact
import RecordFilter.Proofs.Binary64.Truncation
import RecordFilter.Proofs.Json.Range
import RecordFilter.Proofs.Json.Writing
import RecordFilter.Value.Coercion
import RecordFilter.Value.Json

/-!
# What becomes of an integer in a text

A numeral without a fraction and an exponent denotes an integer of any size, and it takes three steps
before a field is compared with it.  The text is read as an integer of 64 bits, or as a number if
none holds it; the value is one of 64 bits with a sign, or a number; and a number that is an integer
is made one again.  Each of the steps has its own limits, and the second one rounds.

Above all integers with a sign nothing is lost: a number there is at least `2 ^ 63`, which is no such
integer.  Below them the nearest number of the first 1024 integers is `-2 ^ 63`, which is one.

* `units_ofNat?_of_past`: the rounding of integers just past `2 ^ 63`.
* `lt_units_of_toFloat?`: a numeral past `2 ^ 64` is read as a number past `2 ^ 63`, if as any.
* `exists_toInteger?_value?`, `toInteger?_value?_eq_none`: the integer that the value of a numeral is
  taken for, if for any.
-/

namespace RecordFilter

open Binary64 (unitsInOne)

/-! ## The limits of 64 bits -/

theorem size_uint64 : UInt64.size = 18446744073709551616 := rfl

theorem twoTo_64 : twoTo 64 = 18446744073709551616 := rfl

/-! ## Rounding past `2 ^ 63` -/

namespace Binary64.Magnitude

theorem twoTo_mul_unitsInOne (j : Nat) : twoTo j * unitsInOne = twoTo (j + 1074) :=
  (twoTo_add j 1074).symm

/-- The magnitude one. -/
def one : Magnitude := ⟨twoTo 52, 1022, by decide⟩

theorem units_zero_eq : zero.units = 0 * unitsInOne := by rw [units_zero, Nat.zero_mul]

theorem units_one : one.units = unitsInOne := by decide +kernel

theorem ofNat?_one : ofNat? (tenTo 0) = some one := by
  have h := nearest?_units one Nat.one_pos
  rw [units_one, Nat.mul_one] at h
  rw [ofNat?, tenTo_zero, Nat.one_mul]
  exact h

/-- Scaling by no power of ten changes nothing. -/
theorem scale?_zero (x : Magnitude) : x.scale? 0 = some x := by
  have hone : x.times? one = some x := by
    rw [times?, units_one]
    exact x.nearest?_units unitsInOne_pos
  change x.scaleUp? 0 = some x
  rw [scaleUp?, if_pos (Nat.zero_le _), ofNat?_one, Option.bind_some, hone]

/-- An integer that is at least a power of two is rounded to no less. -/
theorem twoTo_mul_le_of_ofNat? {j k : Nat} (hk : twoTo j ≤ k) {m : Magnitude}
    (h : ofNat? k = some m) : twoTo j * unitsInOne ≤ m.units := by
  rw [twoTo_mul_unitsInOne]
  refine twoTo_le_of_nearest? Nat.one_pos h ?_
  rw [Nat.mul_one, ← twoTo_mul_unitsInOne]
  exact Nat.mul_le_mul_right _ hk

/-- An integer of 64 bits from `2 ^ 63` on has eleven binary digits too many, and is rounded to a
multiple of 2048. -/
theorem units_ofNat?_of_long {k : Nat} (hlow : twoTo 63 ≤ k) (hhigh : k < twoTo 64) {m : Magnitude}
    (h : ofNat? k = some m) : m.units = divNearestEven k 2048 * twoTo 1085 := by
  have hplace : twoTo 1085 = 2048 * unitsInOne := by
    rw [show 2048 = twoTo 11 from rfl, twoTo_mul_unitsInOne]
  have hlength : bitLength (k * unitsInOne) = 1137 + 1 := by
    refine bitLength_eq_of ?_ ?_
    · rw [show 1137 = 63 + 1074 from rfl, ← twoTo_mul_unitsInOne]
      exact Nat.mul_le_mul_right _ hlow
    · rw [show 1137 + 1 = 64 + 1074 from rfl, ← twoTo_mul_unitsInOne]
      exact Nat.mul_lt_mul_of_pos_right hhigh unitsInOne_pos
  have hscale : quotientScale (k * unitsInOne) 1 = 1085 := by
    rw [quotientScale, Nat.div_one, hlength]
  obtain ⟨hunits, -⟩ := units_of_nearest? h
  rw [hunits, hscale, quotientSignificand, hscale, Nat.one_mul, hplace,
    divNearestEven_mul_mul _ _ unitsInOne_pos]

/-- Of the integers past `2 ^ 63`, the first 1024 are rounded to it and all others of 64 bits are
not. -/
theorem units_ofNat?_of_past {k : Nat} (hlow : twoTo 63 ≤ k) (hhigh : k < twoTo 64) {m : Magnitude}
    (h : ofNat? k = some m) : (k ≤ twoTo 63 + 1024 → m.units = twoTo 63 * unitsInOne) ∧
      (twoTo 63 + 1024 < k → twoTo 63 * unitsInOne < m.units) := by
  have hsplit : twoTo 63 * unitsInOne = twoTo 52 * twoTo 1085 := by
    rw [twoTo_mul_unitsInOne, ← twoTo_add]
  rw [units_ofNat?_of_long hlow hhigh h, hsplit]
  have hround := divNearestEven_eq k 2048
  rw [twoTo_63] at hlow ⊢
  constructor
  · intro hk
    have heven : divNearestEven k 2048 = 4503599627370496 := by
      simp only [divNearestEven]
      split
      · omega
      · split
        · omega
        · split <;> omega
    rw [heven, show twoTo 52 = 4503599627370496 from rfl]
  · intro hk
    refine Nat.mul_lt_mul_of_pos_right ?_ (twoTo_pos _)
    change 4503599627370496 < divNearestEven k 2048
    omega

/-- Powers of ten from the first on are rounded to no less than ten. -/
theorem ten_mul_le_of_ofNat? {e : Nat} (he : e ≠ 0) {y : Magnitude}
    (h : ofNat? (tenTo e) = some y) : 10 * unitsInOne ≤ y.units := by
  by_cases hone : e = 1
  · have hten : (ofNat? (tenTo 1)).map units = some (10 * unitsInOne) := by decide +kernel
    rw [hone] at h
    rw [h, Option.map_some, Option.some_inj] at hten
    exact Nat.le_of_eq hten.symm
  · have hpower : twoTo 6 ≤ tenTo e :=
      Nat.le_trans (show twoTo 6 ≤ tenTo 2 by decide) (tenTo_le_tenTo (by omega))
    exact Nat.le_trans (Nat.mul_le_mul_right _ (by decide)) (twoTo_mul_le_of_ofNat? hpower h)

/-- A number of at least 61 binary digits that is scaled up by ten at least is past `2 ^ 63`. -/
theorem lt_units_of_scaleUp? {s e : Nat} (hs : twoTo 60 ≤ s) (he : e ≠ 0) {x z : Magnitude}
    (hx : ofNat? s = some x) (h : x.scaleUp? e = some z) : twoTo 63 * unitsInOne < z.units := by
  have hxu := twoTo_mul_le_of_ofNat? hs hx
  unfold scaleUp? at h
  split at h
  · obtain ⟨y, hy, hz⟩ := Option.bind_eq_some_iff.mp h
    have hprod := Nat.mul_le_mul hxu (ten_mul_le_of_ofNat? he hy)
    rw [twoTo_mul_unitsInOne, show 63 + 1074 = 52 + 1085 from rfl]
    refine twoTo_lt_of_nearest? unitsInOne_pos hz (Nat.le_trans ?_ hprod)
    have hpast : twoTo (52 + 1085) + twoTo 1085 ≤ twoTo 60 * unitsInOne * 10 := by decide +kernel
    rw [← Nat.mul_assoc]
    exact Nat.mul_le_mul_right _ hpast
  · split at h
    · rename_i hzero
      rw [hzero, units_zero] at hxu
      exact absurd hxu (Nat.not_le.mpr (Nat.mul_pos (twoTo_pos _) unitsInOne_pos))
    · cases h

end Binary64.Magnitude

theorem Binary64.ofQuotient_eq_or (negative : Bool) (num den : Nat) :
    (∃ m, Magnitude.nearest? num den = some m ∧ ofQuotient negative num den = finite negative m) ∨
      ofQuotient negative num den = infinite negative := by
  unfold ofQuotient
  split
  · exact Or.inl ⟨_, ‹_›, rfl⟩
  · exact Or.inr rfl

/-! ## Numerals -/

namespace Json

/-- The first digit left out would make a number of more than 64 bits. -/
theorem size_le_of_keepDigits {n : Nat} {cs : List Char} {c : Char} {rest : List Char}
    (h : (keepDigits n cs).2 = c :: rest) :
    UInt64.size ≤ 10 * (keepDigits n cs).1 + (c.toNat - '0'.toNat) := by
  induction cs generalizing n with
  | nil => cases h
  | cons d cs ih =>
    rw [keepDigits] at h ⊢
    split
    · rename_i hfits
      rw [if_pos hfits] at h
      exact ih h
    · rename_i hfull
      rw [if_neg hfull] at h
      cases h
      exact Nat.le_of_not_lt hfull

theorem keepDigits_suffix (n : Nat) (cs : List Char) : (keepDigits n cs).2 <:+ cs := by
  induction cs generalizing n with
  | nil => exact List.suffix_refl _
  | cons c cs ih =>
    rw [keepDigits]
    split
    · exact (ih _).trans (List.suffix_cons c cs)
    · exact List.suffix_refl _

/-- No digit is left out of a number of 64 bits, and some are left out of any other. -/
theorem keepDigits_snd_eq_nil_iff {n : Nat} (hn : n < UInt64.size) {cs : List Char} :
    (keepDigits n cs).2 = [] ↔ Nat.ofDigitChars 10 cs n < UInt64.size := by
  have hall := ofDigitChars_keepDigits n cs
  constructor
  · intro h
    rw [h, Nat.ofDigitChars_nil] at hall
    rw [← hall]
    exact keepDigits_lt hn cs
  · intro h
    cases hleft : (keepDigits n cs).2 with
    | nil => rfl
    | cons c rest =>
      exfalso
      rw [hleft, Nat.ofDigitChars_cons] at hall
      have hsize := size_le_of_keepDigits hleft
      have hrest := mul_tenTo_le_ofDigitChars
        (10 * (keepDigits n cs).1 + (c.toNat - '0'.toNat)) rest
      have hpos := Nat.le_mul_of_pos_right
        (10 * (keepDigits n cs).1 + (c.toNat - '0'.toNat)) (tenTo_pos rest.length)
      omega

/-- What is kept of digits of which some are left out has 61 binary digits at least. -/
theorem twoTo_le_keepDigits {n : Nat} {cs : List Char} (hcs : ∀ c ∈ cs, c.isDigit = true)
    (h : (keepDigits n cs).2 ≠ []) : twoTo 60 ≤ (keepDigits n cs).1 := by
  obtain ⟨c, rest, hleft⟩ := List.exists_cons_of_ne_nil h
  have hsize := size_le_of_keepDigits hleft
  have hmem : c ∈ cs := (keepDigits_suffix n cs).mem (by rw [hleft]; exact List.mem_cons_self)
  have hdigit := hcs c hmem
  simp only [Char.isDigit, Bool.and_eq_true, decide_eq_true_eq] at hdigit
  have hnine : c.toNat ≤ 57 := hdigit.2
  have hzero : '0'.toNat = 48 := rfl
  rw [size_uint64] at hsize
  have h60 : twoTo 60 = 1152921504606846976 := rfl
  omega

namespace Numeral

/-- The numeral keeps to the grammar, and has neither a fraction nor an exponent. -/
structure IsInteger (n : Numeral) : Prop where
  proper : n.IsProper
  fraction : n.fraction = none
  exponent : n.exponent = none

/-- The integer that a numeral without a fraction and an exponent denotes. -/
def integer (n : Numeral) : Int := Binary64.signed n.negative (Integer.ofDigits n.whole)

/-- The value that is read of a numeral; there is none for a number too large for the format. -/
def value? (n : Numeral) : Option Value := (n.token?.bind Token.scalar?).bind Value.ofJson?

variable {n : Numeral}

theorem IsInteger.kept_eq (h : n.IsInteger) :
    n.kept = ((keepDigits 0 n.whole).1, ((keepDigits 0 n.whole).2.length : Int)) := by
  simp [kept, h.fraction, h.exponent, keepDigits]

/-- An integer of 64 bits is rounded once. -/
theorem IsInteger.toFloat?_of_short (h : n.IsInteger)
    (hshort : Integer.ofDigits n.whole < UInt64.size) :
    n.toFloat? = (Binary64.Magnitude.ofNat? (Integer.ofDigits n.whole)).map
      (Binary64.finite n.negative) := by
  have hleft := (keepDigits_snd_eq_nil_iff (by decide)).mpr hshort
  have hall := ofDigitChars_keepDigits 0 n.whole
  rw [hleft, Nat.ofDigitChars_nil, ← Integer.ofDigits] at hall
  have hkept : n.kept = (Integer.ofDigits n.whole, 0) := by
    rw [h.kept_eq, hall, hleft]
    rfl
  rw [toFloat?, hkept]
  simp only [Binary64.Magnitude.scale?_zero]
  cases Binary64.Magnitude.ofNat? (Integer.ofDigits n.whole) <;> rfl

/-- A longer integer is read as a number past `2 ^ 63`, if as any. -/
theorem IsInteger.lt_units_of_toFloat? (h : n.IsInteger)
    (hlong : UInt64.size ≤ Integer.ofDigits n.whole) {x : Binary64} (hx : n.toFloat? = some x) :
    ∃ m, x = .finite n.negative m ∧ twoTo 63 * unitsInOne < m.units := by
  have hleft : (keepDigits 0 n.whole).2 ≠ [] := fun hnil =>
    absurd ((keepDigits_snd_eq_nil_iff (by decide)).mp hnil) (Nat.not_lt.mpr hlong)
  rw [toFloat?, h.kept_eq] at hx
  obtain ⟨y, hy, hx⟩ := Option.bind_eq_some_iff.mp hx
  obtain ⟨z, hz, hx⟩ := Option.bind_eq_some_iff.mp hx
  cases hx
  refine ⟨z, rfl, ?_⟩
  exact Binary64.Magnitude.lt_units_of_scaleUp? (twoTo_le_keepDigits h.proper.whole.2 hleft)
    (fun hlength => hleft (List.length_eq_zero_iff.mp hlength)) hy hz

end Numeral

end Json

/-! ## Numbers taken for integers -/

namespace Value

theorem toInteger?_float_of_units {negative : Bool} {m : Binary64.Magnitude} {k : Nat}
    (h : m.units = k * unitsInOne) :
    (float (.finite negative m)).toInteger? = Integer.toInt64? (Binary64.signed negative k) :=
  Binary64.toInt64?_of_units h

/-- No integer of 64 bits with a sign is a number from `2 ^ 63` on or below `-2 ^ 63`. -/
theorem toInteger?_float_eq_none {negative : Bool} {m : Binary64.Magnitude}
    (hle : twoTo 63 * unitsInOne ≤ m.units)
    (hlt : negative = true → twoTo 63 * unitsInOne < m.units) :
    (float (.finite negative m)).toInteger? = none := by
  by_cases hwhole : m.units % unitsInOne = 0
  · have hunits : m.units = m.units / unitsInOne * unitsInOne :=
      (Nat.div_mul_cancel (Nat.dvd_of_mod_eq_zero hwhole)).symm
    rw [toInteger?_float_of_units hunits, Integer.toInt64?, dif_neg]
    generalize m.units / unitsInOne = k at hunits
    rw [hunits] at hle hlt
    have hk := Nat.le_of_mul_le_mul_right hle Binary64.Magnitude.unitsInOne_pos
    have hneg : negative = true → twoTo 63 < k := fun h => Nat.lt_of_mul_lt_mul_right (hlt h)
    rw [twoTo_63] at hk hneg
    rw [toInt_minValue, toInt_maxValue]
    cases negative with
    | false =>
      rw [Binary64.signed, if_neg Bool.false_ne_true]
      omega
    | true =>
      have := hneg rfl
      rw [Binary64.signed, if_pos rfl]
      omega
  · rw [toInteger?, Binary64.toInt64?_eq, Binary64.toInt?, if_neg hwhole, Option.bind_none]

/-- The number nearest to an integer from `2 ^ 63` on stands for none. -/
theorem toInteger?_float_ofInt_eq_none {k : Int} (h : 9223372036854775808 ≤ k) :
    (float (Binary64.ofInt k)).toInteger? = none := by
  have hnegative : decide (k < 0) = false := decide_eq_false (by omega)
  have hpast : twoTo 63 ≤ k.natAbs := by
    rw [twoTo_63]
    omega
  rw [Binary64.ofInt, hnegative]
  rcases Binary64.ofQuotient_eq_or false (k.natAbs * unitsInOne) 1 with ⟨m, hm, hx⟩ | hx
  · rw [hx]
    exact toInteger?_float_eq_none (Binary64.Magnitude.twoTo_mul_le_of_ofNat? hpast hm)
      fun hfalse => nomatch hfalse
  · rw [hx]
    exact Binary64.toInt64?_of_not_isWhole rfl

end Value

/-! ## The value of a numeral -/

namespace Json.Numeral

variable {n : Numeral}

theorem value?_of_toInteger? {k : Int} (h : n.toInteger? = some k) :
    n.value? = Value.ofJson? (.integer k) := by
  rw [value?, token?, h]
  rfl

theorem value?_of_toInteger?_eq_none (h : n.toInteger? = none) :
    n.value? = n.toFloat?.map Value.float := by
  rw [value?, token?, h]
  cases n.toFloat? <;> rfl

theorem IsInteger.toInteger?_eq (h : n.IsInteger) : n.toInteger? =
    if n.negative then
      if 0 < Integer.ofDigits n.whole ∧ Int64.minValue.toInt ≤ n.integer then some n.integer
      else none
    else if Integer.ofDigits n.whole < UInt64.size then some n.integer else none := by
  rw [toInteger?, h.fraction, h.exponent, integer]
  cases n.negative <;> rfl

theorem integer_of_negative (h : n.negative = true) :
    n.integer = -(Integer.ofDigits n.whole : Int) := by
  rw [integer, Binary64.signed, if_pos h]

theorem integer_of_not_negative (h : n.negative = false) :
    n.integer = (Integer.ofDigits n.whole : Int) := by
  rw [integer, Binary64.signed, h, if_neg Bool.false_ne_true]

theorem natAbs_integer (n : Numeral) : n.integer.natAbs = Integer.ofDigits n.whole := by
  cases h : n.negative with
  | true => rw [integer_of_negative h, Int.natAbs_neg, Int.natAbs_natCast]
  | false => rw [integer_of_not_negative h, Int.natAbs_natCast]

/-- A numeral is refused only if it is so great that it may be rounded past the numbers. -/
theorem IsInteger.le_of_value?_eq_none (h : n.IsInteger) (hv : n.value? = none) :
    (twoTo 53 - 3) * twoTo 971 ≤ n.integer.natAbs := by
  have hfloat : n.toFloat? = none := by
    cases hinteger : n.toInteger? with
    | some k =>
      rw [value?_of_toInteger? hinteger, Value.ofJson?] at hv
      split at hv <;> cases hv
    | none =>
      rw [value?_of_toInteger?_eq_none hinteger] at hv
      exact Option.map_eq_none_iff.mp hv
  by_contra hless
  have hread : n.toFloat?.isSome = true := by
    refine isSome_toFloat?_of fun _ => ?_
    have htop : (twoTo 53 - 3) * twoTo 2045 = (twoTo 53 - 3) * twoTo 971 * unitsInOne := by
      rw [Nat.mul_assoc, Binary64.Magnitude.twoTo_mul_unitsInOne]
    rw [htop]
    refine Nat.mul_lt_mul_of_pos_right ?_ Binary64.Magnitude.unitsInOne_pos
    rw [h.kept_eq]
    refine Nat.lt_of_le_of_lt (keepDigits_mul_le 0 n.whole) ?_
    rw [← Integer.ofDigits, ← natAbs_integer]
    exact Nat.lt_of_not_le hless
  rw [hfloat] at hread
  cases hread

/-- An integer of 64 bits with a sign is read as it is, but for minus zero. -/
theorem IsInteger.toInteger?_of_within (h : n.IsInteger) (hlow : Int64.minValue.toInt ≤ n.integer)
    (hhigh : n.integer ≤ Int64.maxValue.toInt)
    (hzero : n.negative = true → Integer.ofDigits n.whole ≠ 0) :
    n.toInteger? = some n.integer := by
  rw [h.toInteger?_eq]
  cases hnegative : n.negative with
  | true =>
    have hpos := Nat.pos_of_ne_zero (hzero hnegative)
    rw [if_pos rfl, if_pos ⟨hpos, hlow⟩]
  | false =>
    have hinteger := integer_of_not_negative hnegative
    rw [toInt_maxValue] at hhigh
    rw [if_neg Bool.false_ne_true, if_pos (by rw [size_uint64]; omega)]

/-- Minus zero is a number, and it stands for the integer without the sign. -/
theorem IsInteger.value?_of_minus_zero (h : n.IsInteger) (hnegative : n.negative = true)
    (hzero : Integer.ofDigits n.whole = 0) :
    n.value? = some (.float (.finite true .zero)) := by
  have hinteger : n.toInteger? = none := by
    rw [h.toInteger?_eq, if_pos hnegative, hzero, if_neg (fun hpos => Nat.lt_irrefl 0 hpos.1)]
  have hnumber := h.toFloat?_of_short (by rw [hzero]; decide)
  rw [hnegative, hzero, Binary64.Magnitude.ofNat?_zero, Option.map_some] at hnumber
  rw [value?_of_toInteger?_eq_none hinteger, hnumber, Option.map_some]

/-- An integer below those of 64 bits with a sign is read as the nearest number, if it has no more
than 64 binary digits. -/
theorem IsInteger.exists_value?_of_below (h : n.IsInteger)
    (hbelow : n.integer < Int64.minValue.toInt)
    (hshort : Integer.ofDigits n.whole < UInt64.size) :
    ∃ m, Binary64.Magnitude.ofNat? (Integer.ofDigits n.whole) = some m ∧
      n.value? = some (.float (.finite true m)) := by
  have hnegative : n.negative = true := by
    by_contra hfalse
    have hinteger := integer_of_not_negative (Bool.eq_false_iff.mpr hfalse)
    rw [toInt_minValue] at hbelow
    omega
  have hinteger : n.toInteger? = none := by
    rw [h.toInteger?_eq, if_pos hnegative, if_neg fun hlow => absurd hbelow (by omega)]
  have hsize : UInt64.size ≤ tenTo Binary64.Magnitude.greatestTen := by decide +kernel
  obtain ⟨m, hm⟩ := Binary64.Magnitude.exists_ofNat?
    (Nat.le_trans (Nat.le_of_lt hshort) hsize)
  refine ⟨m, hm, ?_⟩
  rw [value?_of_toInteger?_eq_none hinteger, h.toFloat?_of_short hshort, hm, Option.map_some,
    Option.map_some, hnegative]

/-- A numeral of an integer of 64 bits with a sign, or of one of the first 1024 below them, has a
value that stands for an integer: the one that it denotes, or the least there is. -/
theorem IsInteger.exists_toInteger?_value? (h : n.IsInteger)
    (hlow : Int64.minValue.toInt - 1024 ≤ n.integer) (hhigh : n.integer ≤ Int64.maxValue.toInt) :
    ∃ v i, n.value? = some v ∧ v.toInteger? = some i ∧
      i.toInt = max n.integer Int64.minValue.toInt := by
  by_cases hleast : Int64.minValue.toInt ≤ n.integer
  · rw [Int.max_eq_left hleast]
    by_cases hzero : n.negative = true ∧ Integer.ofDigits n.whole = 0
    · refine ⟨_, 0, h.value?_of_minus_zero hzero.1 hzero.2, ?_, ?_⟩
      · rw [Value.toInteger?_float_of_units Binary64.Magnitude.units_zero_eq,
          Integer.toInt64?_eq_some_iff]
        rfl
      · rw [integer_of_negative hzero.1, hzero.2]
        rfl
    · have hinteger := h.toInteger?_of_within hleast hhigh fun hnegative h0 =>
        hzero ⟨hnegative, h0⟩
      have hfits : Integer.toInt64? n.integer = some (Int64.ofIntLE n.integer hleast hhigh) :=
        dif_pos ⟨hleast, hhigh⟩
      refine ⟨.integer (Int64.ofIntLE n.integer hleast hhigh), _, ?_, rfl, Int64.toInt_ofIntLE⟩
      rw [value?_of_toInteger? hinteger, Value.ofJson?, hfits]
  · have habs := n.natAbs_integer
    rw [toInt_minValue] at hlow hleast
    obtain ⟨m, hm, hvalue⟩ := h.exists_value?_of_below (by rw [toInt_minValue]; omega)
      (by rw [size_uint64]; omega)
    have hunits := (Binary64.Magnitude.units_ofNat?_of_past (by rw [twoTo_63]; omega)
      (by rw [twoTo_64]; omega) hm).1 (by rw [twoTo_63]; omega)
    refine ⟨_, Int64.minValue, hvalue, ?_, by rw [toInt_minValue]; omega⟩
    rw [Value.toInteger?_float_of_units hunits, Integer.toInt64?_eq_some_iff]
    rfl

/-- The value of any other numeral stands for no integer. -/
theorem IsInteger.toInteger?_value?_eq_none (h : n.IsInteger)
    (hpast : n.integer < Int64.minValue.toInt - 1024 ∨ Int64.maxValue.toInt < n.integer)
    {v : Value} (hv : n.value? = some v) : v.toInteger? = none := by
  have habs := n.natAbs_integer
  rw [toInt_minValue, toInt_maxValue] at hpast
  by_cases hlong : UInt64.size ≤ Integer.ofDigits n.whole
  · have hnone : n.toInteger? = none := by
      rw [h.toInteger?_eq, toInt_minValue]
      rw [size_uint64] at hlong ⊢
      cases hnegative : n.negative with
      | true =>
        have hinteger := integer_of_negative hnegative
        rw [if_pos rfl, if_neg (by omega)]
      | false => rw [if_neg Bool.false_ne_true, if_neg (by omega)]
    rw [value?_of_toInteger?_eq_none hnone] at hv
    obtain ⟨x, hx, rfl⟩ := Option.map_eq_some_iff.mp hv
    obtain ⟨m, rfl, hm⟩ := h.lt_units_of_toFloat? hlong hx
    exact Value.toInteger?_float_eq_none (Nat.le_of_lt hm) fun _ => hm
  · have hshort := Nat.lt_of_not_le hlong
    rcases hpast with hbelow | habove
    · obtain ⟨m, hm, hvalue⟩ := h.exists_value?_of_below (by rw [toInt_minValue]; omega) hshort
      rw [hvalue] at hv
      cases hv
      rw [size_uint64] at hshort
      have hunits := (Binary64.Magnitude.units_ofNat?_of_past (by rw [twoTo_63]; omega)
        (by rw [twoTo_64]; omega) hm).2 (by rw [twoTo_63]; omega)
      exact Value.toInteger?_float_eq_none (Nat.le_of_lt hunits) fun _ => hunits
    · have hnegative : n.negative = false := by
        by_contra htrue
        have hinteger := integer_of_negative (Bool.eq_true_of_not_eq_false htrue)
        omega
      have hinteger : n.toInteger? = some n.integer := by
        rw [h.toInteger?_eq, hnegative, if_neg Bool.false_ne_true, if_pos hshort]
      have hnone : Integer.toInt64? n.integer = none :=
        dif_neg fun hfits => absurd hfits.2 (by rw [toInt_maxValue]; omega)
      rw [value?_of_toInteger? hinteger, Value.ofJson?, hnone] at hv
      cases hv
      exact Value.toInteger?_float_ofInt_eq_none (by omega)

end Json.Numeral

end RecordFilter
