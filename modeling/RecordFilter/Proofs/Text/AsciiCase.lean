import RecordFilter.Text.AsciiCase
import Mathlib.Data.List.Forall2

/-!
# Texts that differ in the case of ASCII letters

Two texts are equal up to case if they have the same length and, at each place, the same character
or the two forms of one of the letters `A` to `Z` (`SameLetters`).  This is said here of the
characters themselves; that comparing the folded texts comes to the same is
`sameIgnoringCase_iff_sameLetters`.  So outside ASCII the two texts agree at every place
(`SameLetters.getElem?_eq_some_iff`).
-/

namespace RecordFilter.Text

/-! ## Letters -/

/-- The first character is one of the letters `A` to `Z`, and the second is its small form. -/
def IsCapitalOf (c d : Char) : Prop := 'A' ≤ c ∧ c ≤ 'Z' ∧ d.toNat = c.toNat + 32

/-- The two characters are equal, or the two forms of one of the letters `A` to `Z`. -/
def SameLetter (c d : Char) : Prop := c = d ∨ IsCapitalOf c d ∨ IsCapitalOf d c

theorem isCapitalOf_iff {c d : Char} :
    IsCapitalOf c d ↔ 65 ≤ c.toNat ∧ c.toNat ≤ 90 ∧ d.toNat = c.toNat + 32 :=
  Iff.rfl

/-- Folding adds thirty-two to the code points of the capitals. -/
theorem toNat_toLower (c : Char) :
    c.toLower.toNat = if 65 ≤ c.toNat ∧ c.toNat ≤ 90 then c.toNat + 32 else c.toNat := by
  unfold Char.toLower
  split
  · rename_i h
    rw [if_pos ⟨h.1, h.2⟩]
    have hbound : c.toNat + 32 < UInt32.size :=
      Nat.lt_of_le_of_lt (Nat.add_le_add_right h.2 32) (by decide)
    exact (UInt32.toNat_add _ _).trans (Nat.mod_eq_of_lt hbound)
  · rename_i h
    rw [if_neg fun h' => h ⟨h'.1, h'.2⟩]

theorem toLower_eq_toLower_iff {c d : Char} : c.toLower = d.toLower ↔ SameLetter c d := by
  rw [← Char.toNat_inj, toNat_toLower, toNat_toLower, SameLetter, isCapitalOf_iff, isCapitalOf_iff,
    ← Char.toNat_inj]
  split <;> split <;> omega

/-- A character outside ASCII is the same letter as itself alone. -/
theorem SameLetter.eq_of_not_ascii {c d : Char} (h : SameLetter c d)
    (hascii : 128 ≤ c.toNat ∨ 128 ≤ d.toNat) : c = d := by
  rw [SameLetter, isCapitalOf_iff, isCapitalOf_iff] at h
  exact h.resolve_right fun hcase => by omega

/-! ## Texts -/

/-- The two texts have the same letters, in whatever case, and are otherwise equal. -/
def SameLetters (s t : String) : Prop := List.Forall₂ SameLetter s.toList t.toList

theorem sameLetters_iff {s t : String} : SameLetters s t ↔ foldCase s = foldCase t := by
  rw [foldCase, foldCase, ← List.forall₂_eq_eq_eq, List.forall₂_map_left_iff,
    List.forall₂_map_right_iff, SameLetters]
  simp only [toLower_eq_toLower_iff]

theorem sameIgnoringCase_iff_sameLetters {s t : String} :
    sameIgnoringCase s t = true ↔ SameLetters s t := by
  rw [sameIgnoringCase_iff, sameLetters_iff]

instance (s t : String) : Decidable (SameLetters s t) :=
  decidable_of_iff _ sameIgnoringCase_iff_sameLetters

namespace SameLetters

variable {s t u : String}

theorem refl (s : String) : SameLetters s s := sameLetters_iff.mpr rfl

theorem symm (h : SameLetters s t) : SameLetters t s :=
  sameLetters_iff.mpr (sameLetters_iff.mp h).symm

theorem trans (h : SameLetters s t) (h' : SameLetters t u) : SameLetters s u :=
  sameLetters_iff.mpr ((sameLetters_iff.mp h).trans (sameLetters_iff.mp h'))

theorem eq_empty_iff (h : SameLetters s t) : s = "" ↔ t = "" := by
  rw [← String.toList_eq_nil_iff, ← String.toList_eq_nil_iff, ← List.length_eq_zero_iff,
    ← List.length_eq_zero_iff, List.Forall₂.length_eq h]

/-- A character outside ASCII stands at the same places in both texts. -/
theorem getElem?_eq_some_iff (h : SameLetters s t) {i : Nat} {c : Char} (hc : 128 ≤ c.toNat) :
    s.toList[i]? = some c ↔ t.toList[i]? = some c := by
  obtain ⟨hlength, hget⟩ := List.forall₂_iff_get.mp h
  rw [List.getElem?_eq_some_iff, List.getElem?_eq_some_iff]
  constructor
  · rintro ⟨hi, rfl⟩
    exact ⟨hlength ▸ hi, ((hget i hi (hlength ▸ hi)).eq_of_not_ascii (Or.inl hc)).symm⟩
  · rintro ⟨hi, rfl⟩
    exact ⟨hlength ▸ hi, (hget i (hlength ▸ hi) hi).eq_of_not_ascii (Or.inr hc)⟩

end SameLetters

end RecordFilter.Text
