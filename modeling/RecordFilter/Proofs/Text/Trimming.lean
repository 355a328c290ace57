import RecordFilter.Proofs.Decimal.ReadBack
import RecordFilter.Text.Blank

/-!
# What stands between blanks

Trimming takes off a text the blanks at its ends, and nothing else (`exists_blanks_trim`).  So a text
without blanks in it is what is left of a longer text exactly if the longer one is made of it and
blanks around it (`trim_eq_iff`).  Numerals, dates and the words for truth values have no blanks in
them.
-/

namespace RecordFilter.Text

/-- The characters are all blank. -/
def IsBlanks (w : List Char) : Prop := ∀ c ∈ w, isBlank c = true

instance (w : List Char) : Decidable (IsBlanks w) :=
  decidable_of_iff (w.all isBlank = true) List.all_eq_true

/-- The characters are none of them blank. -/
def IsSolid (s : List Char) : Prop := ∀ c ∈ s, isBlank c = false

theorem exists_blanks_trimLeft (s : List Char) : ∃ w, IsBlanks w ∧ s = w ++ trimLeft s :=
  ⟨s.takeWhile isBlank, fun _ hc => List.mem_takeWhile_imp hc, List.takeWhile_append_dropWhile.symm⟩

theorem trimLeft_of_solid {s : List Char} (h : IsSolid s) : trimLeft s = s := by
  cases s with
  | nil => rfl
  | cons c s => rw [trimLeft_cons, h c List.mem_cons_self, if_neg Bool.false_ne_true]

/-- Trimming takes blanks off the ends. -/
theorem exists_blanks_trim (s : List Char) :
    ∃ before behind, IsBlanks before ∧ IsBlanks behind ∧ s = before ++ trim s ++ behind := by
  obtain ⟨before, hbefore, hs⟩ := exists_blanks_trimLeft s
  obtain ⟨behind, hbehind, hrest⟩ := exists_blanks_trimLeft (trimLeft s).reverse
  refine ⟨before, behind.reverse, hbefore, fun c hc => hbehind c (List.mem_reverse.mp hc), ?_⟩
  have hleft : trimLeft s = trim s ++ behind.reverse := by
    rw [trim, ← List.reverse_append, ← hrest, List.reverse_reverse]
  rw [List.append_assoc, ← hleft, ← hs]

/-- Blanks around a text are invisible to trimming. -/
theorem trim_between {before behind : List Char} (hbefore : IsBlanks before)
    (hbehind : IsBlanks behind) (s : List Char) : trim (before ++ s ++ behind) = trim s := by
  rw [trim_append_blank hbehind, trim_blank_append hbefore]

theorem trim_of_solid {s : List Char} (h : IsSolid s) : trim s = s := by
  have hreverse : IsSolid s.reverse := fun c hc => h c (List.mem_reverse.mp hc)
  rw [trim, trimLeft_of_solid h, trimLeft_of_solid hreverse, List.reverse_reverse]

/-- A text without blanks in it is left of the texts that have it between blanks. -/
theorem trim_eq_iff {s t : List Char} (ht : IsSolid t) : trim s = t ↔
    ∃ before behind, IsBlanks before ∧ IsBlanks behind ∧ s = before ++ t ++ behind := by
  constructor
  · rintro rfl
    exact exists_blanks_trim s
  · rintro ⟨before, behind, hbefore, hbehind, rfl⟩
    rw [trim_between hbefore hbehind, trim_of_solid ht]

/-- Letters, digits, signs and points have their places between those of blanks. -/
theorem isBlank_of_isNumeric {c : Char} (h : Decimal.isNumeric c = true) : isBlank c = false := by
  have hupper : c.isUpper = true → 65 ≤ c.toNat ∧ c.toNat ≤ 90 := of_decide_eq_true
  have hlower : c.isLower = true → 97 ≤ c.toNat ∧ c.toNat ≤ 122 := fun h =>
    ((Bool.and_eq_true _ _).mp h).imp of_decide_eq_true of_decide_eq_true
  have hdigit : c.isDigit = true → 48 ≤ c.toNat ∧ c.toNat ≤ 57 := Char.isDigit_iff_toNat.mp
  have hrange : 43 ≤ c.toNat ∧ c.toNat ≤ 122 := by
    change (c.isUpper || c.isLower || c.isDigit || decide (c ∈ ['.', '-', '+'])) = true at h
    simp only [Bool.or_eq_true, decide_eq_true_eq, List.mem_cons, List.not_mem_nil, or_false] at h
    rcases h with ((h | h) | h) | rfl | rfl | rfl
    · have := hupper h
      omega
    · have := hlower h
      omega
    · have := hdigit h
      omega
    all_goals decide
  simp [isBlank]
  omega

/-- Numbers, dates and truth values are written without blanks. -/
theorem isSolid_of_isNumeric {s : List Char} (h : ∀ c ∈ s, Decimal.isNumeric c = true) :
    IsSolid s := fun c hc => isBlank_of_isNumeric (h c hc)

end RecordFilter.Text
