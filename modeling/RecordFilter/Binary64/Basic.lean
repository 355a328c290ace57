import RecordFilter.Power

/-!
# The numbers of the 64-bit binary format

A finite number is a sign and a magnitude, `significand * 2 ^ scale` units of `2 ^ (-1074)`, the
unit being the least positive number.  Every magnitude has one form: the significand has 53 binary
digits unless the scale is zero.  Beside the finite numbers there are two infinities and one value
that is not a number.

## Comparison

Numbers are compared by their place on the line, `position`, counted in units.  An infinity stands
where the next binary digit would start, past all finite numbers.  The value that is not a number
has no place, so every comparison with it fails; the two zeros have the same place.

## Exactness

Nothing here is computed approximately: `units`, `position` and `toInt?` are exact, so an integer
that `toInt?` gives is the number itself.
-/

namespace RecordFilter

namespace Binary64

/-- The number one in units of `2 ^ (-1074)`. -/
def unitsInOne : Nat := twoTo 1074

/-- The first power of two, in units, that is past the finite numbers. -/
def limit : Nat := twoTo (53 + 2045)

/-- The magnitude of a finite number, in its one form. -/
structure Magnitude where
  /-- The leading 53 binary digits, or fewer for a number next to zero. -/
  significand : Nat
  /-- How many binary places the significand is moved up. -/
  scale : Nat
  /-- The form is the only one of its value, and within the format. -/
  canonical : significand < twoTo 53 ∧ scale ≤ 2045 ∧ (scale = 0 ∨ twoTo 52 ≤ significand)
  deriving DecidableEq

namespace Magnitude

/-- The magnitude in units of `2 ^ (-1074)`. -/
def units (m : Magnitude) : Nat := m.significand * twoTo m.scale

/-- The magnitude zero. -/
def zero : Magnitude := ⟨0, 0, by decide⟩

@[simp] theorem units_zero : zero.units = 0 := rfl

/-- Every finite magnitude lies below the limit. -/
theorem units_lt_limit (m : Magnitude) : m.units < limit := by
  obtain ⟨h, hs, -⟩ := m.canonical
  rw [limit, twoTo_add]
  exact Nat.lt_of_lt_of_le (Nat.mul_lt_mul_of_pos_right h (twoTo_pos _))
    (Nat.mul_le_mul_left _ (twoTo_le_twoTo hs))

end Magnitude

end Binary64

/-- A number of the 64-bit binary format. -/
inductive Binary64 where
  /-- The value that is not a number. -/
  | nan
  /-- One of the two infinities. -/
  | infinite (negative : Bool)
  /-- A finite number; zero has both signs. -/
  | finite (negative : Bool) (magnitude : Binary64.Magnitude)
  deriving DecidableEq

namespace Binary64

/-- The integer of the given sign and magnitude. -/
def signed (negative : Bool) (n : Nat) : Int := if negative then -(n : Int) else n

/-- Zero without a minus sign. -/
def zero : Binary64 := finite false .zero

instance : Inhabited Binary64 := ⟨zero⟩

/-- The number is neither infinite nor the value that is not a number. -/
def isFinite : Binary64 → Bool
  | finite _ _ => true
  | _ => false

/-- The place of a number on the line, in units of `2 ^ (-1074)`. -/
def position : Binary64 → Option Int
  | nan => none
  | infinite negative => some (signed negative limit)
  | finite negative m => some (signed negative m.units)

/-- Two numbers are at the same place. -/
def same (x y : Binary64) : Bool :=
  match x.position, y.position with
  | some a, some b => a == b
  | _, _ => false

/-- The first number is not to the right of the second. -/
def atMost (x y : Binary64) : Bool :=
  match x.position, y.position with
  | some a, some b => a ≤ b
  | _, _ => false

theorem same_iff {x y : Binary64} :
    same x y = true ↔ ∃ a, x.position = some a ∧ y.position = some a := by
  unfold same
  split
  · rename_i a b hx hy
    constructor
    · intro h
      obtain rfl := eq_of_beq h
      exact ⟨a, hx, hy⟩
    · rintro ⟨c, hx', hy'⟩
      obtain rfl := Option.some_inj.1 (hx.symm.trans hx')
      obtain rfl := Option.some_inj.1 (hy.symm.trans hy')
      exact beq_self_eq_true _
  · rename_i h
    constructor
    · exact fun h => (Bool.false_ne_true h).elim
    · rintro ⟨a, hx, hy⟩
      exact absurd hy (h a a hx)

theorem atMost_iff {x y : Binary64} :
    atMost x y = true ↔ ∃ a b, x.position = some a ∧ y.position = some b ∧ a ≤ b := by
  unfold atMost
  split
  · rename_i a b hx hy
    constructor
    · exact fun h => ⟨a, b, hx, hy, of_decide_eq_true h⟩
    · rintro ⟨a', b', hx', hy', h⟩
      obtain rfl := Option.some_inj.1 (hx.symm.trans hx')
      obtain rfl := Option.some_inj.1 (hy.symm.trans hy')
      exact decide_eq_true h
  · rename_i h
    constructor
    · exact fun h => (Bool.false_ne_true h).elim
    · rintro ⟨a, b, hx, hy, -⟩
      exact absurd hy (h a b hx)

/-- The integer that a number is, if it is one. -/
def toInt? : Binary64 → Option Int
  | finite negative m =>
    if m.units % unitsInOne = 0 then some (signed negative (m.units / unitsInOne)) else none
  | _ => none

end Binary64

end RecordFilter
