import Mathlib.Data.List.TakeWhile
import RecordFilter.Proofs.Json.Scalars

/-!
# Reading numbers of the binary format that were written

A finite number is written as its shortest decimal, positionally or with an exponent.
`Decimal.numeral` is the parts of this text, and `write_numeral` says that they are.  The layout of
JSON never leaves out both the fraction and the exponent, so the text is never that of an integer,
and what is read is `Binary64.reread?`: the number that these parts make.

* `digits_shortestFrom_ne_zero`: only zero is written with the digit zero alone.
* `reads_float`: a finite number is read as `Binary64.reread?` says.
-/

namespace RecordFilter

/-! ## The digits of a shortest decimal -/

namespace Binary64

theorem ofDecimal_zero (negative : Bool) (exponent : Int) :
    ofDecimal negative 0 exponent = finite negative .zero := by
  unfold ofDecimal
  rw [if_pos rfl]

namespace Magnitude

theorem expansionFactor_pos : 0 < expansionFactor := by
  decide +kernel

theorem expansion_ne_zero {m : Magnitude} (hm : m.units ≠ 0) : m.expansion ≠ 0 :=
  Nat.mul_ne_zero hm (Nat.ne_of_gt expansionFactor_pos)

theorem readsBack_iff {m : Magnitude} {d : Decimal} :
    m.readsBack d = true ↔ ofDecimal false d.digits d.exponent = finite false m := by
  unfold readsBack
  exact decide_eq_true_iff

/-- The decimal zero is read as zero. -/
theorem digits_ne_zero_of_readsBack {m : Magnitude} (hm : m.units ≠ 0) {d : Decimal}
    (h : m.readsBack d = true) : d.digits ≠ 0 := by
  intro hd
  rw [readsBack_iff, hd, ofDecimal_zero] at h
  injection h with _ hzero
  rw [← hzero] at hm
  exact hm units_zero

theorem readsBack_of_onGrid? {tie : Decimal.Tie} {m : Magnitude} {drop : Nat} {d : Decimal}
    (h : m.onGrid? tie drop = some d) : m.readsBack d = true := by
  unfold onGrid? at h
  generalize m.gridBelow drop = below at h
  generalize m.gridAbove drop = above at h
  by_cases hbelow : m.readsBack below = true
  · rw [if_pos hbelow] at h
    by_cases habove : (m.readsBack above && m.prefersAbove tie drop) = true
    · rw [if_pos habove] at h
      rw [← Option.some_inj.mp h]
      exact (Bool.and_eq_true_iff.mp habove).1
    · rw [if_neg habove] at h
      rw [← Option.some_inj.mp h]
      exact hbelow
  · rw [if_neg hbelow] at h
    by_cases habove : m.readsBack above = true
    · rw [if_pos habove] at h
      rw [← Option.some_inj.mp h]
      exact habove
    · rw [if_neg habove] at h
      cases h

theorem digits_shortestFrom_ne_zero {m : Magnitude} (hm : m.units ≠ 0) (tie : Decimal.Tie)
    (drop : Nat) : (m.shortestFrom tie drop).digits ≠ 0 := by
  induction drop with
  | zero => exact expansion_ne_zero hm
  | succ drop ih =>
    rw [shortestFrom]
    cases h : m.onGrid? tie (drop + 1) with
    | none => exact ih
    | some d => exact digits_ne_zero_of_readsBack hm (readsBack_of_onGrid? h)

/-- Only zero is written with the digit zero alone, and that without an exponent. -/
theorem exponent_shortest_of_digits {tie : Decimal.Tie} {m : Magnitude}
    (h : (m.shortest tie).digits = 0) : (m.shortest tie).exponent = 0 := by
  unfold shortest at *
  split
  · rfl
  · rename_i hm
    rw [if_neg hm] at h
    exact absurd h (digits_shortestFrom_ne_zero hm tie _)

end Magnitude

end Binary64

/-! ## Significant digits -/

theorem Integer.ofDigits_append_zeros (ds : List Char) (zeros : Nat) :
    ofDigits (ds ++ List.replicate zeros '0') = ofDigits ds * tenTo zeros := by
  rw [ofDigits, Nat.ofDigitChars_append, Nat.ofDigitChars_replicate_zero, Nat.mul_comm]
  rfl

namespace Decimal

open Json.Reader

theorem significant_of_zero {d : Decimal} (hd : d.digits = 0) : d.significant = ['0'] := by
  rw [significant, hd]
  rfl

/-- What follows the significant digits are zeros. -/
theorem exists_digits_eq (d : Decimal) :
    ∃ zeros, Integer.digits d.digits = d.significant ++ List.replicate zeros '0' := by
  have hsplit : Integer.digits d.digits =
      ((Integer.digits d.digits).reverse.dropWhile (· == '0')).reverse ++
        ((Integer.digits d.digits).reverse.takeWhile (· == '0')).reverse := by
    rw [← List.reverse_append, List.takeWhile_append_dropWhile, List.reverse_reverse]
  have hzeros :
      ∀ c ∈ ((Integer.digits d.digits).reverse.takeWhile (· == '0')).reverse, c = '0' := by
    intro c hc
    have hzero := List.mem_takeWhile_imp (List.mem_reverse.mp hc)
    exact eq_of_beq hzero
  unfold significant
  split
  · -- All digits are zeros, so the number is zero and has a single one.
    rename_i hnil
    rw [hnil, List.nil_append] at hsplit
    have hd : d.digits = 0 := by
      by_contra hd
      obtain ⟨c, cs, hcons, -⟩ := (isDigits_digits d.digits).exists_cons
      refine head?_digits_ne hd ?_
      rw [← hsplit, hcons] at hzeros
      rw [hcons, List.head?_cons, hzeros c List.mem_cons_self]
    exact ⟨0, by rw [hd]; rfl⟩
  · exact ⟨_, hsplit.trans (congrArg _ (List.eq_replicate_of_mem hzeros))⟩

theorem significant_ne_nil (d : Decimal) : d.significant ≠ [] := by
  unfold significant
  split
  · exact List.cons_ne_nil _ _
  · assumption

theorem isDigits_zero : IsDigits ['0'] := by
  refine ⟨List.cons_ne_nil _ _, fun c hc => ?_⟩
  rw [List.mem_singleton.mp hc]
  rfl

theorem isDigits_significant (d : Decimal) : IsDigits d.significant := by
  obtain ⟨zeros, hdigits⟩ := exists_digits_eq d
  refine ⟨significant_ne_nil d, fun c hc => (isDigits_digits d.digits).2 c ?_⟩
  rw [hdigits]
  exact List.mem_append_left _ hc

theorem head?_significant_ne {d : Decimal} (hd : d.digits ≠ 0) :
    d.significant.head? ≠ some '0' := by
  obtain ⟨zeros, hdigits⟩ := exists_digits_eq d
  intro h
  refine head?_digits_ne hd ?_
  rw [hdigits, List.head?_append, h, Option.some_or]

theorem length_significant_of_zero {d : Decimal} (hd : d.digits = 0) :
    d.significant.length = 1 := by
  rw [significant_of_zero hd, List.length_singleton]

theorem point_of_zero {d : Decimal} (hd : d.digits = 0) (he : d.exponent = 0) : d.point = 1 := by
  rw [point, hd, he]
  rfl

/-! ## The numeral of a decimal -/

/-- The parts of the text of a decimal in JSON. -/
def numeral (negative : Bool) (d : Decimal) : Json.Numeral :=
  let digits := d.significant
  if Json.numberLayout.writesPositionally (d.point - 1) then
    if d.point ≤ 0 then
      ⟨negative, ['0'], some (List.replicate (-d.point).toNat '0' ++ digits), none⟩
    else if digits.length ≤ d.point then
      ⟨negative, digits ++ List.replicate (d.point.toNat - digits.length) '0', some ['0'], none⟩
    else ⟨negative, digits.take d.point.toNat, some (digits.drop d.point.toNat), none⟩
  else
    ⟨negative, digits.take 1, if digits.length = 1 then none else some (digits.drop 1),
      some (d.point - 1)⟩

/-- The text of a decimal in JSON is that of its numeral. -/
theorem write_numeral (negative : Bool) (d : Decimal) :
    (d.numeral negative).write =
      (if negative then ['-'] else []) ++ Json.numberLayout.write d := by
  unfold numeral Layout.write
  simp only
  by_cases hlayout : Json.numberLayout.writesPositionally (d.point - 1) = true
  · rw [if_pos hlayout, if_pos hlayout, Layout.positional]
    by_cases hpoint : d.point ≤ 0
    · rw [if_pos hpoint, if_pos hpoint]
      simp [Json.Numeral.write, Json.Numeral.writeFraction, Json.Numeral.writeExponent]
    · rw [if_neg hpoint, if_neg hpoint]
      by_cases hlength : (d.significant.length : Int) ≤ d.point
      · rw [if_pos hlength, if_pos hlength]
        simp [Json.Numeral.write, Json.Numeral.writeFraction, Json.Numeral.writeExponent,
          Json.numberLayout]
      · rw [if_neg hlength, if_neg hlength]
        simp [Json.Numeral.write, Json.Numeral.writeFraction, Json.Numeral.writeExponent]
  · rw [if_neg hlayout, if_neg hlayout]
    unfold Layout.exponential
    obtain ⟨c, cs, hcons, -⟩ := (isDigits_significant d).exists_cons
    rw [hcons]
    cases cs with
    | nil =>
      simp [Json.Numeral.write, Json.Numeral.writeFraction, Json.Numeral.writeExponent,
        Json.numberLayout]
    | cons c' cs =>
      simp [Json.Numeral.write, Json.Numeral.writeFraction, Json.Numeral.writeExponent,
        Json.numberLayout]

theorem isDigits_append {ds es : List Char} (hds : ∀ c ∈ ds, c.isDigit = true)
    (hes : ∀ c ∈ es, c.isDigit = true) (hne : ds ≠ [] ∨ es ≠ []) : IsDigits (ds ++ es) := by
  refine ⟨fun h => ?_, fun c hc => ?_⟩
  · obtain ⟨hnil, hnil'⟩ := List.append_eq_nil_iff.mp h
    exact hne.elim (fun hds => hds hnil) fun hes => hes hnil'
  · rcases List.mem_append.mp hc with hc | hc
    · exact hds c hc
    · exact hes c hc

theorem isDigit_replicate (n : Nat) : ∀ c ∈ List.replicate n '0', c.isDigit = true := by
  intro c hc
  rw [(List.mem_replicate.mp hc).2]
  decide

theorem head?_take_significant {d : Decimal} (hd : d.digits ≠ 0) (n : Nat) :
    (d.significant.take n).head? ≠ some '0' := by
  intro h
  rw [List.head?_take] at h
  split at h
  · cases h
  · exact head?_significant_ne hd h

theorem isDigits_take {ds : List Char} (hds : IsDigits ds) {n : Nat} (hn : 0 < n) :
    IsDigits (ds.take n) := by
  refine ⟨fun hnil => ?_, fun c hc => hds.2 c (List.mem_of_mem_take hc)⟩
  rcases List.take_eq_nil_iff.mp hnil with hzero | hnil
  · exact absurd hzero (Nat.ne_of_gt hn)
  · exact hds.1 hnil

theorem isDigits_drop_significant {d : Decimal} {n : Nat} (hn : n < d.significant.length) :
    IsDigits (d.significant.drop n) := by
  have hdigits := isDigits_significant d
  refine ⟨fun hnil => ?_, fun c hc => hdigits.2 c (List.mem_of_mem_drop hc)⟩
  exact absurd (List.drop_eq_nil_iff.mp hnil) (Nat.not_le_of_lt hn)

/-- A decimal has a proper numeral if zero has no exponent. -/
theorem isProper_numeral {d : Decimal} (h : d.digits = 0 → d.exponent = 0) (negative : Bool) :
    (d.numeral negative).IsProper := by
  have hdigits := isDigits_significant d
  have hlength : d.significant.length ≠ 0 := fun h => hdigits.1 (List.length_eq_zero_iff.mp h)
  unfold numeral
  simp only
  split
  · split
    · -- Zeros stand between the point and the digits.
      refine ⟨isDigits_zero, fun _ => rfl, ?_⟩
      rintro ds ⟨rfl⟩
      exact isDigits_append (isDigit_replicate _) hdigits.2 (Or.inr hdigits.1)
    · rename_i hpoint
      split
      · -- Zeros stand between the digits and the point, but none behind a zero.
        refine ⟨isDigits_append hdigits.2 (isDigit_replicate _) (Or.inl hdigits.1), ?_, ?_⟩
        · intro hhead
          by_cases hd : d.digits = 0
          · rw [List.length_append, List.length_replicate, length_significant_of_zero hd,
              point_of_zero hd (h hd)]
            rfl
          · rw [List.head?_append, List.head?_eq_some_head hdigits.1, Option.some_or,
              ← List.head?_eq_some_head hdigits.1] at hhead
            exact absurd hhead (head?_significant_ne hd)
        · rintro ds ⟨rfl⟩
          exact isDigits_zero
      · -- The point stands among the digits, of which there are two at least.
        rename_i hlong
        have hd : d.digits ≠ 0 := by
          intro hd
          rw [length_significant_of_zero hd] at hlong
          omega
        refine ⟨isDigits_take hdigits (by omega), ?_, ?_⟩
        · intro hhead
          exact absurd hhead (head?_take_significant hd _)
        · rintro ds ⟨rfl⟩
          exact isDigits_drop_significant (by omega)
  · -- One digit stands before the point, and a point only before other digits.
    refine ⟨isDigits_take hdigits Nat.one_pos, ?_, ?_⟩
    · intro _
      show (d.significant.take 1).length = 1
      rw [List.length_take]
      omega
    · intro ds hds
      split at hds
      · cases hds
      · obtain rfl := Option.some_inj.mp hds
        exact isDigits_drop_significant (by omega)

/-- The numeral of a decimal is never that of an integer. -/
theorem token?_numeral (negative : Bool) (d : Decimal) :
    (d.numeral negative).token? = (d.numeral negative).toFloat?.map .float := by
  have hinteger : (d.numeral negative).toInteger? = none := by
    unfold numeral
    simp only
    split
    · split
      · rfl
      · split <;> rfl
    · unfold Json.Numeral.toInteger?
      split
      · rename_i h
        cases h
      · rfl
  rw [Json.Numeral.token?, hinteger]

end Decimal

/-! ## Numbers -/

namespace Binary64

open Json.Reader

/-- The number that the text of a number in JSON is read as.  There is none if the number is not
finite, or if its text is taken to be past the largest. -/
def reread? : Binary64 → Option Binary64
  | finite negative m => ((m.shortest Json.numberLayout.tie).numeral negative).toFloat?
  | _ => none

theorem reread?_eq_none {x : Binary64} (hx : x.isFinite = false) : x.reread? = none := by
  cases x with
  | nan => rfl
  | infinite negative => rfl
  | finite negative m => cases hx

theorem write_finite (negative : Bool) (m : Magnitude) :
    (finite negative m).write Json.numberLayout =
      ((m.shortest Json.numberLayout.tie).numeral negative).write := by
  rw [Decimal.write_numeral, write]

/-- A finite number is read from its text. -/
theorem reads_float {x : Binary64} (hx : x.isFinite = true) :
    Reads token (x.write Json.numberLayout ++ ·) (x.reread?.map .float) := by
  cases x with
  | nan => cases hx
  | infinite negative => cases hx
  | finite negative m =>
    rw [write_finite, reread?, ← Decimal.token?_numeral]
    exact reads_numeral (Decimal.isProper_numeral Magnitude.exponent_shortest_of_digits negative)

/-- The number nearest `10 ^ (-23)` does not come back: its text is read by a division of two numbers
that are rounded themselves, and becomes the number above it. -/
example : (finite false ⟨0x182DB34012B251, 945, by decide⟩).reread? =
    some (finite false ⟨0x182DB34012B252, 945, by decide⟩) := by
  decide +kernel

theorem begins_float (x : Binary64) : Begins (x.write Json.numberLayout ++ ·) := by
  cases x with
  | nan => exact fun rest => ⟨'N', _, rfl, by decide, by decide, by decide⟩
  | infinite negative =>
    cases negative with
    | true => exact fun rest => ⟨'-', _, rfl, by decide, by decide, by decide⟩
    | false => exact fun rest => ⟨'i', _, rfl, by decide, by decide, by decide⟩
  | finite negative m =>
    rw [write_finite]
    exact begins_numeral (Decimal.isProper_numeral Magnitude.exponent_shortest_of_digits negative)

theorem head?_write_ne {x : Binary64} (hx : x.isFinite = true) (rest : List Char) :
    (x.write Json.numberLayout ++ rest).head? ≠ some 'n' := by
  cases x with
  | nan => cases hx
  | infinite negative => cases hx
  | finite negative m =>
    rw [write_finite]
    exact Json.Reader.head?_write_ne
      (Decimal.isProper_numeral Magnitude.exponent_shortest_of_digits negative) (by decide)
      (by decide) rest

end Binary64

end RecordFilter
