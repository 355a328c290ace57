import RecordFilter.Proofs.Binary64.Scaling
import RecordFilter.Proofs.Json.Integers
import RecordFilter.Proofs.Json.Shapes

/-!
# How close a numeral is read

A numeral denotes a rational number, its digits scaled by a power of ten (`Numeral.absValue`).  What
is kept of the digits comes within one part in `2 ^ 60` of it, because digits are left out of a
number of 61 binary digits at least, and those that are kept are at most one short of all of them.
What is kept is then scaled, which is off by seven parts in `2 ^ 53` and a unit.

* `abs_kept_sub_le`: what is kept of a numeral is close to it.
* `approximates_of_toFloat?`: so is the number that is read, and it is the nearest one if the
  numeral is short.
* `exists_toFloat?`: a numeral that keeps away from the limit is read.
* `Denotes.value?_eq`, `approximates_of_value?`: a number is an integer if it is written as one of
  64 bits, and otherwise a number of the format close to it.
-/

namespace RecordFilter.Json

open Reader
open Binary64 (Magnitude)

/-! ## Digits that are kept -/

theorem ofDigitChars_lt {cs : List Char} (hcs : ∀ c ∈ cs, c.isDigit = true) (n : Nat) :
    Nat.ofDigitChars 10 cs n < (n + 1) * tenTo cs.length := by
  induction cs generalizing n with
  | nil =>
    rw [Nat.ofDigitChars_nil]
    exact Nat.lt_of_lt_of_eq (Nat.lt_succ_self n) (Nat.mul_one _).symm
  | cons c cs ih =>
    rw [List.forall_mem_cons] at hcs
    have hnine : c.toNat ≤ 57 := (Char.isDigit_iff_toNat.mp hcs.1).2
    have hzero : '0'.toNat = 48 := rfl
    have hten : tenTo (cs.length + 1) = 10 * tenTo cs.length := by
      rw [Nat.add_comm, tenTo_add]
      rfl
    rw [Nat.ofDigitChars_cons, List.length_cons, hten, ← Nat.mul_assoc]
    exact Nat.lt_of_lt_of_le (ih hcs.2 _) (Nat.mul_le_mul_right _ (by omega))

/-- What is kept, with a zero for each digit left out, is at least what it starts from, with a zero
for each digit. -/
theorem mul_tenTo_le_keepDigits (n : Nat) (cs : List Char) :
    n * tenTo cs.length ≤ (keepDigits n cs).1 * tenTo (keepDigits n cs).2.length := by
  induction cs generalizing n with
  | nil => exact Nat.le_refl _
  | cons c cs ih =>
    have hten : tenTo (cs.length + 1) = 10 * tenTo cs.length := by
      rw [Nat.add_comm, tenTo_add]
      rfl
    rw [keepDigits]
    split
    · refine Nat.le_trans ?_ (ih _)
      rw [List.length_cons, hten, ← Nat.mul_assoc]
      exact Nat.mul_le_mul_right _ (by omega)
    · exact Nat.le_refl _

/-- The number that is kept of some digits, with a zero for each of the others, is less than one
short of the number that they all make. -/
theorem ofDigitChars_lt_keepDigits (n : Nat) {cs : List Char} (hcs : ∀ c ∈ cs, c.isDigit = true) :
    Nat.ofDigitChars 10 cs n <
      ((keepDigits n cs).1 + 1) * tenTo (keepDigits n cs).2.length := by
  rw [← ofDigitChars_keepDigits n cs]
  exact ofDigitChars_lt (fun c hc => hcs c ((keepDigits_suffix n cs).mem hc)) _

/-- All digits of a number of 64 bits are kept. -/
theorem keepDigits_of_lt {n : Nat} {cs : List Char} (hn : n < UInt64.size)
    (h : Nat.ofDigitChars 10 cs n < UInt64.size) :
    keepDigits n cs = (Nat.ofDigitChars 10 cs n, []) := by
  have hleft := (keepDigits_snd_eq_nil_iff hn).mpr h
  have hall := ofDigitChars_keepDigits n cs
  rw [hleft, Nat.ofDigitChars_nil] at hall
  exact Prod.ext hall hleft

/-- Two numbers lie between the same bounds, which differ by at most one part in `2 ^ 60`. -/
def Close (a b : Nat) : Prop := ∃ low width, twoTo 60 * width ≤ low ∧
  (low ≤ a ∧ a ≤ low + width) ∧ (low ≤ b ∧ b ≤ low + width)

/-- What is kept of some digits, with a zero for each of the others, is close to the number that
they all make. -/
theorem close_keepDigits {n : Nat} {cs : List Char} (hcs : ∀ c ∈ cs, c.isDigit = true) :
    Close (Nat.ofDigitChars 10 cs n) ((keepDigits n cs).1 * tenTo (keepDigits n cs).2.length) := by
  have hlow := keepDigits_mul_le n cs
  by_cases hleft : (keepDigits n cs).2 = []
  · have hall := ofDigitChars_keepDigits n cs
    rw [hleft, Nat.ofDigitChars_nil] at hall
    rw [hleft, hall]
    exact ⟨Nat.ofDigitChars 10 cs n, 0, Nat.zero_le _, ⟨Nat.le_refl _, Nat.le_refl _⟩,
      Nat.le_of_eq (Nat.mul_one _).symm, Nat.le_of_eq (Nat.mul_one _)⟩
  · have hhigh := ofDigitChars_lt_keepDigits n hcs
    rw [Nat.add_one_mul] at hhigh
    exact ⟨_, tenTo (keepDigits n cs).2.length,
      Nat.mul_le_mul_right _ (twoTo_le_keepDigits hcs hleft), ⟨hlow, Nat.le_of_lt hhigh⟩,
      Nat.le_refl _, Nat.le_add_right _ _⟩

namespace Numeral

/-! ## What a numeral denotes -/

/-- The number that all digits of a numeral make. -/
def digits (n : Numeral) : Nat := Integer.ofDigits (n.whole ++ n.fraction.getD [])

/-- The power of ten that the digits are scaled by. -/
def power (n : Numeral) : Int := n.exponent.getD 0 - (n.fraction.getD []).length

/-- The absolute value that a numeral denotes. -/
def absValue (n : Numeral) : ℚ := n.digits * 10 ^ n.power

/-- The numeral is scaled by a small power of ten, and its digits make a small number, or it is not
scaled and its digits make a number of 64 bits. -/
def IsShort (n : Numeral) : Prop :=
  n.digits < 2 ^ 53 ∧ n.power.natAbs ≤ 22 ∨ n.digits < 2 ^ 64 ∧ n.power = 0

variable {n : Numeral}

theorem absValue_nonneg (n : Numeral) : 0 ≤ n.absValue :=
  mul_nonneg (Nat.cast_nonneg _) (zpow_nonneg (by norm_num) _)

theorem digits_eq (n : Numeral) :
    n.digits = Nat.ofDigitChars 10 (n.fraction.getD []) (Integer.ofDigits n.whole) := by
  rw [digits, Integer.ofDigits, Nat.ofDigitChars_append]
  rfl

/-- A numeral of 64 bits keeps all of its digits. -/
theorem kept_of_lt (h : n.digits < UInt64.size) : n.kept = (n.digits, n.power) := by
  have hwhole : Integer.ofDigits n.whole < UInt64.size := by
    have hle := mul_tenTo_le_ofDigitChars (Integer.ofDigits n.whole) (n.fraction.getD [])
    rw [← digits_eq] at hle
    exact Nat.lt_of_le_of_lt
      (Nat.le_trans (Nat.le_mul_of_pos_right _ (tenTo_pos _)) hle) h
  have hfirst : keepDigits 0 n.whole = (Integer.ofDigits n.whole, []) :=
    keepDigits_of_lt (by decide) hwhole
  rw [digits_eq] at h
  have hsecond := keepDigits_of_lt hwhole h
  rw [kept]
  simp only [hfirst, hsecond, ← digits_eq]
  refine Prod.ext rfl ?_
  simp only [List.length_nil, power]
  omega

/-! ## What is kept -/

theorem fraction_isDigit (h : n.IsProper) : ∀ c ∈ n.fraction.getD [], c.isDigit = true := by
  cases hf : n.fraction with
  | none => exact fun c hc => nomatch hc
  | some ds => exact (h.fraction ds hf).2

/-- What is kept of a numeral, with zeros behind it, is close to the number that its digits make. -/
theorem exists_close_kept (h : n.IsProper) :
    ∃ zeros : Nat, n.kept.2 = n.power + zeros ∧ Close n.digits (n.kept.1 * tenTo zeros) := by
  have hfraction := fraction_isDigit h
  have hwhole := ofDigitChars_keepDigits 0 n.whole
  rw [digits_eq, Integer.ofDigits, kept, power]
  simp only
  generalize n.fraction.getD [] = fraction at *
  have hlength := length_keepDigits_le (keepDigits 0 n.whole).1 fraction
  refine ⟨(keepDigits 0 n.whole).2.length +
    (keepDigits (keepDigits 0 n.whole).1 fraction).2.length, by omega, ?_⟩
  by_cases hleft : (keepDigits 0 n.whole).2 = []
  · rw [hleft, Nat.ofDigitChars_nil] at hwhole
    rw [← hwhole, hleft, List.length_nil, Nat.zero_add]
    exact close_keepDigits hfraction
  · -- The digits left out of the whole part count more than all of the fraction.
    have hlow := mul_tenTo_le_keepDigits (keepDigits 0 n.whole).1 fraction
    have hkeep := keepDigits_mul_le (keepDigits 0 n.whole).1 fraction
    have hmore := ofDigitChars_lt hfraction (keepDigits 0 n.whole).1
    have hwholeLow := keepDigits_mul_le 0 n.whole
    have hwholeHigh := ofDigitChars_lt_keepDigits 0 h.whole.2
    have hall := mul_tenTo_le_ofDigitChars (Nat.ofDigitChars 10 n.whole 0) fraction
    have hallHigh := ofDigitChars_lt hfraction (Nat.ofDigitChars 10 n.whole 0)
    have hlarge := twoTo_le_keepDigits h.whole.2 hleft
    generalize keepDigits (keepDigits 0 n.whole).1 fraction = behind at *
    generalize keepDigits 0 n.whole = front at *
    obtain ⟨k, left⟩ := front
    obtain ⟨d, dropped⟩ := behind
    rw [tenTo_add]
    generalize tenTo left.length = p at *
    generalize tenTo fraction.length = q at *
    generalize tenTo dropped.length = r at *
    refine ⟨k * p * q, p * q, ?_, ⟨?_, ?_⟩, ?_, ?_⟩
    · rw [Nat.mul_assoc]
      exact Nat.mul_le_mul_right _ hlarge
    · exact Nat.le_trans (Nat.mul_le_mul_right q hwholeLow) hall
    · refine Nat.le_trans (Nat.le_of_lt hallHigh) ?_
      rw [← Nat.add_mul, ← Nat.add_one_mul]
      exact Nat.mul_le_mul_right q hwholeHigh
    · rw [Nat.mul_right_comm, Nat.mul_left_comm, Nat.mul_comm p]
      exact Nat.mul_le_mul_right p hlow
    · have hless := Nat.le_of_lt (Nat.lt_of_le_of_lt hkeep hmore)
      have hscaled := Nat.mul_le_mul_right p hless
      linarith

/-- What is kept of a numeral denotes nearly the same number. -/
theorem abs_kept_sub_le (h : n.IsProper) :
    |(n.kept.1 : ℚ) * 10 ^ n.kept.2 - n.absValue| ≤ n.absValue / 2 ^ 60 := by
  obtain ⟨zeros, hpower, low, width, hwidth, ⟨hlow, hhigh⟩, hlow', hhigh'⟩ := exists_close_kept h
  have hten : (0 : ℚ) < 10 ^ n.power := zpow_pos (by norm_num) _
  have hkept : (n.kept.1 : ℚ) * 10 ^ n.kept.2 =
      ((n.kept.1 * tenTo zeros : Nat) : ℚ) * 10 ^ n.power := by
    rw [hpower, zpow_add₀ (by norm_num), zpow_natCast, Nat.cast_mul,
      show tenTo zeros = 10 ^ zeros from rfl, Nat.cast_pow]
    push_cast
    ring
  rw [hkept, absValue, ← sub_mul, abs_mul, abs_of_pos hten, mul_div_right_comm]
  refine mul_le_mul_of_nonneg_right ?_ hten.le
  generalize n.kept.1 * tenTo zeros = kept at *
  rw [show twoTo 60 = 2 ^ 60 from rfl] at hwidth
  have hwidth' : 2 ^ 60 * (width : ℚ) ≤ low := by exact_mod_cast hwidth
  have hlowD : (low : ℚ) ≤ n.digits := Nat.cast_le.mpr hlow
  have hlowK : (low : ℚ) ≤ kept := Nat.cast_le.mpr hlow'
  have hhighD : (n.digits : ℚ) ≤ low + width := by exact_mod_cast hhigh
  have hhighK : (kept : ℚ) ≤ low + width := by exact_mod_cast hhigh'
  rw [le_div_iff₀ (by positivity)]
  have hwide : |(kept : ℚ) - n.digits| ≤ width := abs_le.mpr ⟨by linarith, by linarith⟩
  linarith

/-! ## Numbers of the format -/

/-- The magnitude is close to the absolute value of the numeral, and no magnitude is nearer if the
numeral is short. -/
structure Approximates (m : Magnitude) (n : Numeral) : Prop where
  close : |m.value - n.absValue| ≤ n.absValue / 2 ^ 50 + Magnitude.unit
  nearest : n.IsShort → m.IsNearest n.absValue

/-- What is kept is rounded, and then scaled. -/
theorem exists_of_toFloat? {x : Binary64} (hx : n.toFloat? = some x) :
    ∃ y z, Magnitude.ofNat? n.kept.1 = some y ∧ y.scale? n.kept.2 = some z ∧
      x = .finite n.negative z := by
  unfold toFloat? at hx
  generalize n.kept = kept at *
  obtain ⟨y, hy, hx⟩ := Option.bind_eq_some_iff.mp hx
  obtain ⟨z, hz, hx⟩ := Option.bind_eq_some_iff.mp hx
  exact ⟨y, z, hy, hz, (Option.some_inj.mp hx).symm⟩

/-- A number that is read of a numeral approximates it, and has its sign. -/
theorem approximates_of_toFloat? (h : n.IsProper) {x : Binary64} (hx : n.toFloat? = some x) :
    ∃ m, x = .finite n.negative m ∧ Approximates m n := by
  obtain ⟨y, z, hy, hz, rfl⟩ := exists_of_toFloat? hx
  refine ⟨z, rfl, ?_, fun hshort => ?_⟩
  · have hscaled := Magnitude.abs_value_sub_le_of_scale? n.kept_lt hy hz
    have hkept := abs_kept_sub_le h
    have habs := n.absValue_nonneg
    generalize (n.kept.1 : ℚ) * 10 ^ n.kept.2 = kept at *
    rw [abs_le] at *
    constructor <;> linarith [hscaled.1, hscaled.2, hkept.1, hkept.2]
  · have hlt : n.digits < UInt64.size := by
      have hsize : 2 ^ 53 < UInt64.size ∧ 2 ^ 64 = UInt64.size := by decide
      rcases hshort with ⟨hdigits, -⟩ | ⟨hdigits, -⟩
      · exact Nat.lt_trans hdigits hsize.1
      · exact Nat.lt_of_lt_of_eq hdigits hsize.2
    rw [kept_of_lt hlt] at hy hz
    rcases hshort with ⟨hdigits, hpower⟩ | ⟨-, hpower⟩
    · exact Magnitude.isNearest_of_scale? hdigits hpower hy hz
    · rw [hpower, Magnitude.scale?_zero, Option.some_inj] at hz
      rw [absValue, hpower, zpow_zero, mul_one, ← hz]
      exact (Magnitude.rounds_of_ofNat? hy).nearest

/-- A numeral that stays four places below the limit is read. -/
theorem exists_toFloat? (h : n.IsProper) (hn : n.absValue < (twoTo 1024 : ℚ) - twoTo 973) :
    ∃ x, n.toFloat? = some x := by
  refine Option.isSome_iff_exists.mp (isSome_toFloat?_of fun hpower => ?_)
  have hkept := (abs_le.mp (abs_kept_sub_le h)).2
  have hcast : (n.kept.1 : ℚ) * 10 ^ n.kept.2 = (n.kept.1 * tenTo n.kept.2.toNat : Nat) := by
    rw [Nat.cast_mul, ← Magnitude.mul_zpow_ofNat, Int.ofNat_eq_natCast, Int.toNat_of_nonneg hpower]
  have hlimit : twoTo 1024 = twoTo 53 * twoTo 971 := twoTo_add 53 971
  have hgap : twoTo 973 = twoTo 2 * twoTo 971 := twoTo_add 2 971
  have hplaces : twoTo 2045 = twoTo 971 * Binary64.unitsInOne := by
    rw [Binary64.unitsInOne, ← twoTo_add]
  have htop : (0 : ℚ) < twoTo 971 := Nat.cast_pos.mpr (twoTo_pos 971)
  rw [hplaces, ← Nat.mul_assoc]
  refine Nat.mul_lt_mul_of_pos_right ?_ Magnitude.unitsInOne_pos
  rw [hcast] at hkept
  rw [hlimit, hgap, show twoTo 53 = 9007199254740992 from rfl, show twoTo 2 = 4 from rfl] at hn
  rw [show twoTo 53 - 3 = 9007199254740989 from rfl]
  generalize n.kept.1 * tenTo n.kept.2.toNat = kept at *
  generalize twoTo 971 = top at *
  push_cast at hn
  have hless : (kept : ℚ) < 9007199254740989 * top := by linarith
  exact_mod_cast hless

/-! ## Values -/

/-- The numeral is written as an integer of 64 bits.  Minus zero is not, since no integer has its
sign. -/
structure Denotes (n : Numeral) (i : Int64) : Prop where
  fraction : n.fraction = none
  exponent : n.exponent = none
  integer : i.toInt = n.integer
  sign : n.negative = true → n.integer ≠ 0

/-- The numeral stays four places below the limit, or is read although it comes nearer. -/
def Fits (n : Numeral) : Prop :=
  n.absValue < (twoTo 1024 : ℚ) - twoTo 973 ∨ ∃ t, n.token? = some t

theorem exists_token? (h : n.IsProper) (hfits : n.Fits) : ∃ t, n.token? = some t := by
  rcases hfits with hlimit | htoken
  · cases hinteger : n.toInteger? with
    | some k => exact ⟨_, token?_of_toInteger? hinteger⟩
    | none =>
      obtain ⟨x, hx⟩ := exists_toFloat? h hlimit
      exact ⟨.float x, by rw [token?_of_toInteger?_eq_none hinteger, hx, Option.map_some]⟩
  · exact htoken

/-- A number that is taken is a value. -/
theorem exists_value? {t : Token} (h : n.token? = some t) : ∃ v, n.value? = some v := by
  cases hinteger : n.toInteger? with
  | some k =>
    rw [value?_of_toInteger? hinteger, Value.ofJson?]
    cases Integer.toInt64? k with
    | some i => exact ⟨_, rfl⟩
    | none => exact ⟨_, rfl⟩
  | none =>
    rw [token?_of_toInteger?_eq_none hinteger] at h
    obtain ⟨x, hx, -⟩ := Option.map_eq_some_iff.mp h
    exact ⟨.float x, by rw [value?_of_toInteger?_eq_none hinteger, hx, Option.map_some]⟩

/-- An integer of 64 bits is this integer. -/
theorem Denotes.value?_eq {i : Int64} (h : n.IsProper) (hi : n.Denotes i) :
    n.value? = some (.integer i) := by
  have hinteger : n.IsInteger := ⟨h, hi.fraction, hi.exponent⟩
  have hzero : n.negative = true → Integer.ofDigits n.whole ≠ 0 := fun hnegative => by
    rw [← natAbs_integer, ne_eq, Int.natAbs_eq_zero]
    exact hi.sign hnegative
  have hwithin := hinteger.toInteger?_of_within (hi.integer ▸ Int64.minValue_le_toInt i)
    (hi.integer ▸ Int64.toInt_le i) hzero
  rw [value?_of_toInteger? hwithin, ← hi.integer, Value.ofJson?, Integer.toInt64?_toInt]

theorem toInteger?_eq_some {k : Int} (h : n.toInteger? = some k) :
    n.fraction = none ∧ n.exponent = none := by
  unfold toInteger? at h
  split at h
  · exact ⟨‹_›, ‹_›⟩
  · cases h

theorem IsInteger.absValue_eq (h : n.IsInteger) : n.absValue = Integer.ofDigits n.whole := by
  rw [absValue, digits, power, h.fraction, h.exponent]
  simp

/-- An integer that is read has the sign of its numeral, and is not minus zero. -/
theorem IsInteger.of_toInteger? (h : n.IsInteger) {k : Int} (hk : n.toInteger? = some k) :
    k = n.integer ∧ (n.negative = true → k < 0 ∧ Int64.minValue.toInt ≤ k) ∧
      Integer.ofDigits n.whole ≤ UInt64.size := by
  rw [h.toInteger?_eq] at hk
  cases hnegative : n.negative with
  | true =>
    rw [if_pos hnegative, Option.ite_none_right_eq_some] at hk
    obtain ⟨⟨hpos, hlow⟩, hk⟩ := hk
    obtain rfl := Option.some_inj.mp hk
    have hinteger := integer_of_negative hnegative
    rw [toInt_minValue] at hlow
    have hsize := size_uint64
    exact ⟨rfl, fun _ => ⟨by omega, by rw [toInt_minValue]; omega⟩, by omega⟩
  | false =>
    rw [if_neg (by simp [hnegative]), Option.ite_none_right_eq_some] at hk
    obtain ⟨hlt, hk⟩ := hk
    exact ⟨(Option.some_inj.mp hk).symm, (fun h => nomatch h), Nat.le_of_lt hlt⟩

/-- An integer past those of 64 bits with a sign is rounded. -/
theorem approximates_of_toInteger? (h : n.IsProper) {k : Int} (hk : n.toInteger? = some k)
    (hnot : ∀ i, ¬ n.Denotes i) {v : Value} (hv : n.value? = some v) :
    ∃ m, v = .float (.finite n.negative m) ∧ Approximates m n := by
  obtain ⟨hfraction, hexponent⟩ := toInteger?_eq_some hk
  have hinteger : n.IsInteger := ⟨h, hfraction, hexponent⟩
  obtain ⟨rfl, hnegative, hsize⟩ := hinteger.of_toInteger? hk
  rw [value?_of_toInteger? hk, Value.ofJson?] at hv
  cases hrange : Integer.toInt64? n.integer with
  | some i =>
    refine absurd ⟨hfraction, hexponent, Integer.toInt64?_eq_some_iff.mp hrange, ?_⟩ (hnot i)
    exact fun hsign => Int.ne_of_lt (hnegative hsign).1
  | none =>
    have hsign : n.negative = false := by
      by_contra hsign
      obtain ⟨hless, hlow⟩ := hnegative (Bool.eq_true_of_not_eq_false hsign)
      have hgreatest := toInt_maxValue
      rw [Integer.toInt64?, dif_pos ⟨hlow, by omega⟩] at hrange
      cases hrange
    have hfew : UInt64.size ≤ tenTo Magnitude.greatestTen := by decide +kernel
    obtain ⟨m, hm⟩ := Magnitude.exists_ofNat? (Nat.le_trans hsize hfew)
    have hrounds := Magnitude.rounds_of_ofNat? hm
    rw [← hinteger.absValue_eq] at hrounds
    have hnumber : Binary64.ofInt n.integer = .finite n.negative m := by
      rw [Binary64.ofInt, natAbs_integer, hsign, integer_of_not_negative hsign,
        decide_eq_false (Int.not_lt.mpr (Int.natCast_nonneg _))]
      exact Binary64.ofQuotient_of_nearest? false hm
    rw [hrange, hnumber] at hv
    refine ⟨m, (Option.some_inj.mp hv).symm, ?_, fun _ => hrounds.nearest⟩
    refine (hrounds.abs_sub_le n.absValue_nonneg).trans ?_
    linarith [n.absValue_nonneg, Magnitude.unit_pos]

/-- Any other number is a number of the format that approximates the numeral. -/
theorem approximates_of_value? (h : n.IsProper) (hnot : ∀ i, ¬ n.Denotes i) {v : Value}
    (hv : n.value? = some v) : ∃ m, v = .float (.finite n.negative m) ∧ Approximates m n := by
  cases hinteger : n.toInteger? with
  | some k => exact approximates_of_toInteger? h hinteger hnot hv
  | none =>
    rw [value?_of_toInteger?_eq_none hinteger] at hv
    obtain ⟨x, hx, rfl⟩ := Option.map_eq_some_iff.mp hv
    obtain ⟨m, rfl, hm⟩ := approximates_of_toFloat? h hx
    exact ⟨m, rfl, hm⟩

end Numeral

end RecordFilter.Json
