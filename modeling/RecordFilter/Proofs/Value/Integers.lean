import RecordFilter.Proofs.Binary64.Truncation
import RecordFilter.Proofs.Text.Trimming
import RecordFilter.Value.Coercion

/-!
# The integers that values stand for

What integer a value stands for does not depend on any width (`StandsForInteger`).  A value stands for
one integer at most, since the numerals of a text and the value of a number are unique.  The coercion
to a field of 64 bits finds that integer and then asks whether it has 64 bits, whichever way the
value gives it; a number asks this of its own limits, and the answer is the same.

* `toInteger?_exact`: a value is coerced to the integer that it stands for, if that has 64 bits, and
  is refused otherwise.
-/

namespace RecordFilter.Value

open Text (IsBlanks)

/-- The value stands for the integer: it is this integer itself, a number of this value, a numeral of
it between blanks, or a truth value, true for one and false for zero. -/
inductive StandsForInteger : Value → Int → Prop where
  | integer (i : Int64) : StandsForInteger (integer i) i.toInt
  | float {x : Binary64} {k : Int} : x.value? = some (k : ℚ) → StandsForInteger (float x) k
  | string {s : String} {before numeral behind : List Char} {k : Int} : IsBlanks before →
      Integer.Spells numeral k → IsBlanks behind → s.toList = before ++ numeral ++ behind →
      StandsForInteger (string s) k
  | boolean (b : Bool) : StandsForInteger (boolean b) (if b then 1 else 0)

/-- The integer that a value stands for, of any size. -/
def integer? : Value → Option Int
  | integer i => some i.toInt
  | float x => x.toInt?
  | string s => Integer.ofNumeral? (trimmed s)
  | boolean b => some (if b then 1 else 0)
  | list _ => none

/-- A numeral is left of a string without its blanks if there are only blanks around it. -/
theorem ofNumeral?_trimmed_eq_some_iff {s : String} {k : Int} :
    Integer.ofNumeral? (trimmed s) = some k ↔ StandsForInteger (string s) k := by
  rw [Integer.ofNumeral?_eq_some_iff]
  constructor
  · intro h
    obtain ⟨before, behind, hbefore, hbehind, hs⟩ := Text.exists_blanks_trim s.toList
    exact .string hbefore h hbehind hs
  · intro h
    cases h with
    | string hbefore h hbehind hs =>
      have hsolid := Text.isSolid_of_isNumeric (Decimal.isNumeric_of_spells h)
      rwa [trimmed, (Text.trim_eq_iff hsolid).mpr ⟨_, _, hbefore, hbehind, hs⟩]

theorem integer?_eq_some_iff {v : Value} {k : Int} :
    v.integer? = some k ↔ v.StandsForInteger k := by
  cases v with
  | boolean b =>
    constructor
    · intro h
      exact Option.some_inj.mp h ▸ .boolean b
    · intro h
      cases h
      rfl
  | integer i =>
    constructor
    · intro h
      exact Option.some_inj.mp h ▸ .integer i
    · intro h
      cases h
      rfl
  | float x =>
    rw [integer?, Binary64.toInt?_eq_some_iff]
    exact ⟨.float, fun h => by cases h; assumption⟩
  | string s => exact ofNumeral?_trimmed_eq_some_iff
  | list items => exact iff_of_false (fun h => nomatch h) (fun h => nomatch h)

/-- The coercion asks of the integer that a value stands for whether it has 64 bits. -/
theorem toInteger?_eq (v : Value) : v.toInteger? = v.integer?.bind Integer.toInt64? := by
  cases v with
  | boolean b => cases b <;> rfl
  | integer i => exact (Integer.toInt64?_toInt i).symm
  | float x => exact Binary64.toInt64?_eq x
  | string s => rfl
  | list items => rfl

theorem toInteger?_eq_some_iff {v : Value} {n : Int64} :
    v.toInteger? = some n ↔ v.StandsForInteger n.toInt := by
  rw [toInteger?_eq, ← integer?_eq_some_iff, Option.bind_eq_some_iff]
  constructor
  · rintro ⟨k, hk, hn⟩
    rw [hk, Integer.toInt64?_eq_some_iff.mp hn]
  · intro h
    exact ⟨n.toInt, h, Integer.toInt64?_toInt n⟩

theorem StandsForInteger.unique {v : Value} {j k : Int} (hj : v.StandsForInteger j)
    (hk : v.StandsForInteger k) : j = k := by
  rw [← integer?_eq_some_iff] at hj hk
  exact Option.some_inj.mp (hj.symm.trans hk)

/-- A value is coerced to the integer that it stands for, to each of 64 bits and to none past them. -/
theorem toInteger?_exact (v : Value) :
    (∀ n : Int64, v.toInteger? = some n ↔ v.StandsForInteger n.toInt) ∧
    (∀ k : Int, v.StandsForInteger k → -(twoTo 63 : Int) ≤ k → k < twoTo 63 →
      ∃ n : Int64, v.toInteger? = some n ∧ n.toInt = k) ∧
    ∀ k : Int, v.StandsForInteger k → k < -(twoTo 63 : Int) ∨ (twoTo 63 : Int) ≤ k →
      v.toInteger? = none := by
  refine ⟨fun n => toInteger?_eq_some_iff, fun k hk hlow hhigh => ?_, fun k hk hpast => ?_⟩
  · have hn : (Int64.ofInt k).toInt = k := Int64.toInt_ofInt_of_le hlow hhigh
    exact ⟨Int64.ofInt k, toInteger?_eq_some_iff.mpr (hn.symm ▸ hk), hn⟩
  · rw [Option.eq_none_iff_forall_ne_some]
    intro n hn
    have heq := (toInteger?_eq_some_iff.mp hn).unique hk
    have hlow := Int64.minValue_le_toInt n
    have hhigh := Int64.toInt_le n
    rw [heq, toInt_minValue] at hlow
    rw [heq, toInt_maxValue] at hhigh
    rw [twoTo_63] at hpast
    omega

/-- The least integer as a number, which is one, and the first past the greatest. -/
theorem toInteger?_exact_limits :
    (float (.finite true ⟨twoTo 52, 1085, by decide⟩)).toInteger? = some Int64.minValue ∧
      (float (.finite false ⟨twoTo 52, 1085, by decide⟩)).toInteger? = none ∧
      (string "\u00A0+007 ").toInteger? = some 7 := by
  have hvalue : (⟨twoTo 52, 1085, by decide⟩ : Binary64.Magnitude).value = (twoTo 63 : Nat) :=
    Binary64.Magnitude.value_eq_of_units (by decide +kernel)
  refine ⟨((toInteger?_exact _).1 _).mpr (.float ?_),
    (toInteger?_exact _).2.2 (twoTo 63) (.float ?_) (.inr (Int.le_refl _)),
    ((toInteger?_exact _).1 _).mpr ?_⟩
  · rw [Binary64.value?, if_pos rfl, hvalue]
    rfl
  · rw [Binary64.value?, if_neg Bool.false_ne_true, hvalue]
    rfl
  · have hbefore : IsBlanks ['\u00A0'] := by decide
    have hbehind : IsBlanks [' '] := by decide
    have hnumeral : Integer.Spells ['+', '0', '0', '7'] 7 :=
      .plus ⟨by decide, List.all_eq_true.mp (by decide)⟩
    exact .string hbefore hnumeral hbehind rfl

end RecordFilter.Value
