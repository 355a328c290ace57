import RecordFilter.Decimal.Numeral
import RecordFilter.Proofs.Binary64.Exact
import RecordFilter.Proofs.Json.Range
import RecordFilter.Proofs.Numeral

/-!
# A number is read back from its text

`ofDecimal` answers decimals that are far too large or far too small without forming their power of
ten; it gives what the quotient gives (`ofDecimal_eq`).  So it sees the value of a decimal alone, and
zeros behind its digits do not matter (`ofDecimal_of_pads`).

The shortest decimal of a magnitude is read as this magnitude (`ofDecimal_shortest`).  Any layout
writes its significant digits, at most with zeros around them (`exists_pads_write`), so that every
number is read back from its text, with its sign (`ofText?_write`), and the text determines the
number.
-/

namespace RecordFilter

/-! ## The value of a decimal -/

namespace Binary64

namespace Magnitude

/-- A quotient of less than half a unit is rounded to zero. -/
theorem nearest?_eq_zero {num den : Nat} (h : 2 * num < den) : nearest? num den = some zero := by
  have hquotient : num / den = 0 := Nat.div_eq_of_lt (by omega)
  have hremainder : num % den = num := Nat.mod_eq_of_lt (by omega)
  have hscale : quotientScale num den = 0 := by
    rw [quotientScale, hquotient]
    rfl
  have hsignificand : quotientSignificand num den = 0 := by
    rw [quotientSignificand, hscale, show twoTo 0 = 1 from rfl, Nat.mul_one, divNearestEven]
    simp only [hquotient, hremainder, if_pos h]
  unfold nearest?
  rw [dif_neg (by rw [hsignificand]; decide), dif_pos (by rw [hscale]; decide)]
  simp only [hscale, hsignificand, zero]

/-- A quotient that reaches the limit is past the magnitudes. -/
theorem nearest?_eq_none {num den : Nat} (hden : 0 < den) (h : limit * den ≤ num) :
    nearest? num den = none := by
  cases hm : nearest? num den with
  | none => rfl
  | some m => exact absurd (twoTo_le_of_nearest? hden hm h) (Nat.not_le.mpr m.units_lt_limit)

end Magnitude

open Magnitude

theorem ofQuotient_of_nearest? (negative : Bool) {num den : Nat} {m : Magnitude}
    (h : nearest? num den = some m) : ofQuotient negative num den = finite negative m := by
  unfold ofQuotient
  rw [h]

theorem ofQuotient_of_none (negative : Bool) {num den : Nat} (h : nearest? num den = none) :
    ofQuotient negative num den = infinite negative := by
  unfold ofQuotient
  rw [h]

theorem ofQuotient_congr (negative : Bool) {num den num' den' : Nat}
    (h : nearest? num den = nearest? num' den') :
    ofQuotient negative num den = ofQuotient negative num' den' := by
  unfold ofQuotient
  rw [h]

/-- A decimal is rounded as the quotient that it is. -/
theorem ofDecimal_eq (negative : Bool) (digits : Nat) (exponent : Int) :
    ofDecimal negative digits exponent =
      ofQuotient negative (digits * tenTo exponent.toNat * unitsInOne)
        (tenTo (-exponent).toNat) := by
  unfold ofDecimal
  split
  · rename_i hdigits
    rw [hdigits, Nat.zero_mul, Nat.zero_mul]
    exact (ofQuotient_of_nearest? negative (nearest?_eq_zero (tenTo_pos _))).symm
  rename_i hdigits
  split
  · rename_i hlarge
    have hlimit : limit ≤ tenTo 310 * unitsInOne := by decide +kernel
    have hpower : tenTo 310 ≤ digits * tenTo exponent.toNat :=
      Nat.le_trans (tenTo_le_tenTo (by omega))
        (Nat.le_mul_of_pos_left _ (Nat.pos_of_ne_zero hdigits))
    rw [show (-exponent).toNat = 0 by omega]
    refine (ofQuotient_of_none negative (nearest?_eq_none (tenTo_pos 0) ?_)).symm
    rw [tenTo_zero, Nat.mul_one]
    exact Nat.le_trans hlimit (Nat.mul_le_mul_right _ hpower)
  split
  · rename_i hsmall
    have hunits : 2 * unitsInOne ≤ tenTo 1080 := by decide +kernel
    have hbelow : digits < tenTo (bitLength digits) :=
      Nat.lt_of_lt_of_le (lt_two_pow_bitLength digits) (twoTo_le_tenTo _)
    have hpower : tenTo (bitLength digits) * tenTo 1080 ≤ tenTo (-exponent).toNat := by
      rw [← tenTo_add]
      exact tenTo_le_tenTo (by omega)
    refine (ofQuotient_of_nearest? negative (nearest?_eq_zero ?_)).symm
    rw [show exponent.toNat = 0 by omega, tenTo_zero, Nat.mul_one, Nat.mul_left_comm]
    exact Nat.lt_of_lt_of_le (Nat.mul_lt_mul_of_lt_of_le hbelow hunits (tenTo_pos _)) hpower
  · cases exponent with
    | ofNat e =>
      have hnum : (Int.ofNat e).toNat = e := rfl
      have hden : (-(Int.ofNat e)).toNat = 0 := Int.toNat_neg_natCast e
      rw [hnum, hden, tenTo_zero]
    | negSucc e =>
      have hnum : (Int.negSucc e).toNat = 0 := rfl
      have hden : (-(Int.negSucc e)).toNat = e + 1 := rfl
      rw [hnum, hden, tenTo_zero, Nat.mul_one]

end Binary64

/-- The decimal is `n * 10 ^ e`, with zeros put behind the digits of `n`. -/
def Decimal.Pads (d : Decimal) (n : Nat) (e : Int) : Prop :=
  ∃ zeros : Nat, d.digits = n * tenTo zeros ∧ d.exponent + zeros = e

namespace Binary64

open Magnitude

/-- Zeros behind the digits do not matter. -/
theorem ofDecimal_of_pads (negative : Bool) {d : Decimal} {n : Nat} {e : Int} (h : d.Pads n e) :
    ofDecimal negative d.digits d.exponent = ofDecimal negative n e := by
  obtain ⟨zeros, hdigits, rfl⟩ := h
  rw [ofDecimal_eq, ofDecimal_eq, hdigits]
  generalize d.exponent = exponent
  -- The two quotients have a common factor, `10 ^ common`.
  obtain ⟨common, hnum, hden⟩ : ∃ common : Nat,
      zeros + exponent.toNat = (exponent + zeros).toNat + common ∧
        (-exponent).toNat = (-(exponent + zeros)).toNat + common :=
    ⟨zeros + exponent.toNat - (exponent + zeros).toNat, by omega, by omega⟩
  have hproduct : n * tenTo zeros * tenTo exponent.toNat * unitsInOne =
      n * tenTo (exponent + zeros).toNat * unitsInOne * tenTo common := by
    rw [Nat.mul_assoc n, ← tenTo_add, hnum, tenTo_add, ← Nat.mul_assoc n, Nat.mul_right_comm]
  have hpower : tenTo (-exponent).toNat = tenTo (-(exponent + zeros)).toNat * tenTo common := by
    rw [← tenTo_add, hden]
  rw [hproduct, hpower]
  exact ofQuotient_congr negative (nearest?_mul_mul _ _ (tenTo_pos common))

/-- The sign does not matter for the magnitude. -/
theorem ofDecimal_signed (negative : Bool) {digits : Nat} {exponent : Int} {m : Magnitude}
    (h : ofDecimal false digits exponent = finite false m) :
    ofDecimal negative digits exponent = finite negative m := by
  rw [ofDecimal_eq] at h ⊢
  exact ofQuotient_of_nearest? negative (nearest?_of_ofQuotient h)

theorem readsBack_shortestFrom (tie : Decimal.Tie) (m : Magnitude) (drop : Nat) :
    m.readsBack (m.shortestFrom tie drop) = true := by
  induction drop with
  | zero =>
    -- The expansion is the magnitude itself.
    have hten : tenTo 1074 = expansionFactor * unitsInOne := by decide +kernel
    rw [readsBack_iff, shortestFrom, ofDecimal_eq]
    refine ofQuotient_of_nearest? false ?_
    show nearest? (m.units * expansionFactor * tenTo 0 * unitsInOne) (tenTo 1074) = some m
    rw [tenTo_zero, Nat.mul_one, Nat.mul_assoc, ← hten]
    exact nearest?_units m (tenTo_pos _)
  | succ drop ih =>
    rw [shortestFrom]
    cases h : m.onGrid? tie (drop + 1) with
    | none => exact ih
    | some d => exact readsBack_of_onGrid? h

/-- The shortest decimal of a magnitude is read as this magnitude. -/
theorem ofDecimal_shortest (negative : Bool) (tie : Decimal.Tie) (m : Magnitude) :
    ofDecimal negative (m.shortest tie).digits (m.shortest tie).exponent = finite negative m := by
  refine ofDecimal_signed negative ?_
  unfold shortest
  split
  · rename_i hm
    have hzero := nearest?_units m Nat.one_pos
    rw [hm, Nat.zero_mul, nearest?_eq_zero (by decide)] at hzero
    rw [ofDecimal_zero, Option.some_inj.mp hzero]
  · exact readsBack_iff.mp (readsBack_shortestFrom tie m _)

end Binary64

/-! ## The numeral of a decimal -/

namespace Decimal

open Json.Reader

/-- An exponent starts with its mark. -/
theorem stops_of_exponent? {tail : List Char} {e : Int} (h : exponent? tail = some e)
    {starts : Char → Bool} (hlower : starts 'e' = false) (hupper : starts 'E' = false) :
    Stops starts tail := by
  unfold exponent? at h
  split at h
  · exact fun c hc => nomatch hc
  · exact stops_cons hlower _
  · exact stops_cons hupper _
  · cases h

/-- The text is the numeral of a decimal: digits, perhaps a point among or behind them, and perhaps
an exponent. -/
inductive Spells : List Char → Decimal → Prop where
  | whole {ds tail : List Char} {e : Int} : IsDigits ds → exponent? tail = some e →
      Spells (ds ++ tail) (ofParts ds [] e)
  | point {ds fs tail : List Char} {e : Int} : IsDigits ds → (∀ c ∈ fs, c.isDigit = true) →
      exponent? tail = some e → Spells (ds ++ '.' :: (fs ++ tail)) (ofParts ds fs e)

theorem Spells.ofNumeral? {cs : List Char} {d : Decimal} (h : Spells cs d) :
    Decimal.ofNumeral? cs = some d := by
  cases h with
  | @whole ds tail e hds htail =>
    have hspan := spanDigits_append hds.2
      (stops_of_exponent? htail (show Char.isDigit 'e' = false by decide) (by decide))
    have hpoint : Stops (· == '.') tail := stops_of_exponent? htail (by decide) (by decide)
    have hfraction : spanFraction tail = ([], tail) := by
      unfold spanFraction
      split
      · exact absurd (hpoint '.' rfl) (by decide)
      · rfl
    unfold Decimal.ofNumeral?
    simp only [hspan, hfraction, hds.1, false_and, if_false, htail, Option.map_some]
  | @point ds fs tail e hds hfs htail =>
    have hspan := spanDigits_append hds.2
      (stops_cons (show Char.isDigit '.' = false by decide) (fs ++ tail))
    have hfraction : spanFraction ('.' :: (fs ++ tail)) = (fs, tail) :=
      spanDigits_append hfs
        (stops_of_exponent? htail (show Char.isDigit 'e' = false by decide) (by decide))
    unfold Decimal.ofNumeral?
    simp only [hspan, hfraction, hds.1, false_and, if_false, htail, Option.map_some]

/-- A numeral starts with a digit. -/
theorem Spells.exists_cons {cs : List Char} {d : Decimal} (h : Spells cs d) :
    ∃ c rest, cs = c :: rest ∧ c.isDigit = true := by
  cases h with
  | whole hds =>
    obtain ⟨c, ds, rfl, hc⟩ := hds.exists_cons
    exact ⟨c, _, rfl, hc⟩
  | point hds =>
    obtain ⟨c, ds, rfl, hc⟩ := hds.exists_cons
    exact ⟨c, _, rfl, hc⟩

/-- The characters that numbers are written with. -/
def isNumeric (c : Char) : Bool := c.isAlphanum || c ∈ ['.', '-', '+']

theorem isNumeric_of_isDigit {c : Char} (hc : c.isDigit = true) : isNumeric c = true := by
  rw [isNumeric, Char.isAlphanum, hc, Bool.or_true, Bool.true_or]

/-- Numerals of integers are written with these. -/
theorem isNumeric_of_spells {cs : List Char} {n : Int} (h : Integer.Spells cs n) :
    ∀ c ∈ cs, isNumeric c = true := by
  have hdigits : ∀ {ds : List Char}, IsDigits ds → ∀ c ∈ ds, isNumeric c = true :=
    fun hds c hc => isNumeric_of_isDigit (hds.2 c hc)
  cases h with
  | unsigned hds => exact hdigits hds
  | plus hds => exact List.forall_mem_cons.mpr ⟨by decide, hdigits hds⟩
  | minus hds => exact List.forall_mem_cons.mpr ⟨by decide, hdigits hds⟩

theorem isNumeric_of_exponent? {tail : List Char} {e : Int} (h : exponent? tail = some e) :
    ∀ c ∈ tail, isNumeric c = true := by
  unfold exponent? at h
  split at h
  · exact fun c hc => nomatch hc
  · exact List.forall_mem_cons.mpr
      ⟨by decide, isNumeric_of_spells (Integer.ofNumeral?_eq_some_iff.mp h)⟩
  · exact List.forall_mem_cons.mpr
      ⟨by decide, isNumeric_of_spells (Integer.ofNumeral?_eq_some_iff.mp h)⟩
  · cases h

theorem Spells.isNumeric {cs : List Char} {d : Decimal} (h : Spells cs d) :
    ∀ c ∈ cs, Decimal.isNumeric c = true := by
  cases h with
  | whole hds htail =>
    rw [List.forall_mem_append]
    exact ⟨fun c hc => isNumeric_of_isDigit (hds.2 c hc), isNumeric_of_exponent? htail⟩
  | point hds hfs htail =>
    rw [List.forall_mem_append, List.forall_mem_cons, List.forall_mem_append]
    exact ⟨fun c hc => isNumeric_of_isDigit (hds.2 c hc), by decide,
      fun c hc => isNumeric_of_isDigit (hfs c hc), isNumeric_of_exponent? htail⟩

/-! ## Significant digits in a layout -/

/-- The digits of a number are its significant digits, and zeros behind them. -/
theorem pads_significant (d : Decimal) :
    d.Pads (Integer.ofDigits d.significant) (d.point - d.significant.length) := by
  obtain ⟨zeros, hlength, hdigits⟩ := d.exists_significant_mul
  refine ⟨zeros, hdigits, ?_⟩
  rw [point, hlength]
  omega

/-- Digits with zeros before and behind them, and a point somewhere. -/
theorem pads_ofParts (digits : List Char) (before behind : Nat) {whole fraction : List Char}
    {e exponent : Int}
    (h : whole ++ fraction = List.replicate before '0' ++ (digits ++ List.replicate behind '0'))
    (he : e - fraction.length + behind = exponent) :
    (ofParts whole fraction e).Pads (Integer.ofDigits digits) exponent := by
  refine ⟨behind, ?_, he⟩
  show Integer.ofDigits (whole ++ fraction) = _
  rw [h, Integer.ofDigits_zeros_append, Integer.ofDigits_append_zeros]

/-- Behind a positional numeral there is no exponent. -/
theorem exponent?_nil : exponent? [] = some 0 := rfl

theorem exists_pads_positional (layout : Layout) {digits : List Char} (hdigits : IsDigits digits)
    (point : Int) :
    ∃ d, Spells (layout.positional digits point) d ∧
      d.Pads (Integer.ofDigits digits) (point - digits.length) := by
  unfold Layout.positional
  split
  · -- Zeros stand between the point and the digits.
    have hfraction := isDigits_append (isDigit_replicate (-point).toNat) hdigits.2
      (Or.inr hdigits.1)
    have hread := Spells.point isDigits_zero hfraction.2 exponent?_nil
    rw [List.append_nil] at hread
    refine ⟨_, hread, pads_ofParts digits ((-point).toNat + 1) 0 (by simp [List.replicate_succ]) ?_⟩
    rw [List.length_append, List.length_replicate]
    omega
  split
  · -- Zeros stand between the digits and the point.
    have hwhole := isDigits_append hdigits.2 (isDigit_replicate (point.toNat - digits.length))
      (Or.inl hdigits.1)
    split
    · have hread := Spells.point hwhole isDigits_zero.2 exponent?_nil
      refine ⟨_, hread, pads_ofParts digits 0 (point.toNat - digits.length + 1)
        (by simp [List.replicate_succ']) ?_⟩
      rw [List.length_singleton]
      omega
    · have hread := Spells.whole hwhole exponent?_nil
      refine ⟨_, hread, pads_ofParts digits 0 (point.toNat - digits.length) (by simp) ?_⟩
      rw [List.length_nil]
      omega
  · -- The point stands among the digits.
    have hwhole := isDigits_take hdigits (show 0 < point.toNat by omega)
    have hfraction : ∀ c ∈ digits.drop point.toNat, c.isDigit = true :=
      fun c hc => hdigits.2 c (List.mem_of_mem_drop hc)
    have hread := Spells.point hwhole hfraction exponent?_nil
    rw [List.append_nil] at hread
    refine ⟨_, hread, pads_ofParts digits 0 0 (by simp) ?_⟩
    rw [List.length_drop]
    omega

theorem exists_pads_exponential (layout : Layout) {digits : List Char} (hdigits : IsDigits digits)
    (exponent : Int) :
    ∃ d, Spells (layout.exponential digits exponent) d ∧
      d.Pads (Integer.ofDigits digits) (exponent + 1 - digits.length) := by
  have hexponent : exponent? ('e' :: ((if layout.signsExponents = true ∧ 0 ≤ exponent then ['+']
      else []) ++ Integer.numeralChars exponent)) = some exponent := by
    refine Integer.ofNumeral?_numeralChars exponent _ ?_
    split
    · exact Or.inr ⟨rfl, (‹_ ∧ _›).2⟩
    · exact Or.inl rfl
  obtain ⟨c, cs, rfl, -⟩ := hdigits.exists_cons
  cases cs with
  | nil =>
    refine ⟨_, Spells.whole hdigits hexponent, pads_ofParts _ 0 0 (by simp) ?_⟩
    rw [List.length_nil, List.length_singleton]
    omega
  | cons c' cs =>
    have hwhole : IsDigits [c] :=
      ⟨List.cons_ne_nil _ _, by simpa using hdigits.2 c List.mem_cons_self⟩
    have hfraction : ∀ c ∈ c' :: cs, c.isDigit = true :=
      fun c hc => hdigits.2 c (List.mem_cons_of_mem _ hc)
    refine ⟨_, Spells.point hwhole hfraction hexponent, pads_ofParts _ 0 0 (by simp) ?_⟩
    simp only [List.length_cons]
    omega

/-- A layout writes the significant digits of a decimal, at most with zeros around them. -/
theorem exists_pads_write (layout : Layout) (d : Decimal) :
    ∃ d', Spells (layout.write d) d' ∧
      d'.Pads (Integer.ofDigits d.significant) (d.point - d.significant.length) := by
  unfold Layout.write
  simp only
  split
  · exact exists_pads_positional layout (isDigits_significant d) d.point
  · have h := exists_pads_exponential layout (isDigits_significant d) (d.point - 1)
    rwa [Int.sub_add_cancel] at h

end Decimal

/-! ## Numbers -/

namespace Binary64

theorem toLower_of_isDigit {c : Char} (hc : c.isDigit = true) : c.toLower = c := by
  have hnine : c.toNat ≤ 57 := (Char.isDigit_iff_toNat.mp hc).2
  unfold Char.toLower
  refine dif_neg fun h => ?_
  have hletter : 65 ≤ c.toNat := h.1
  omega

/-- A word that starts with a letter is no numeral. -/
theorem ofList_toLower_ne {c : Char} (hc : c.isDigit = true) (cs : List Char) {w : Char}
    (hw : w.isDigit = false) (ws : List Char) :
    String.ofList ((c :: cs).map Char.toLower) ≠ String.ofList (w :: ws) := by
  intro h
  rw [String.ofList_inj, List.map_cons, List.cons.injEq, toLower_of_isDigit hc] at h
  exact Integer.ne_of_isDigit hc hw h.1

/-- A numeral without a sign denotes the number nearest to its decimal. -/
theorem ofUnsigned?_of_spells (negative : Bool) {cs : List Char} {d : Decimal}
    (h : Decimal.Spells cs d) :
    ofUnsigned? negative cs = some (ofDecimal negative d.digits d.exponent) := by
  obtain ⟨c, rest, hcons, hc⟩ := h.exists_cons
  have hword : ∀ {w : Char}, w.isDigit = false → ∀ ws,
      String.ofList (cs.map Char.toLower) ≠ String.ofList (w :: ws) := by
    intro w hw ws
    rw [hcons]
    exact ofList_toLower_ne hc rest hw ws
  have hnan : String.ofList (cs.map Char.toLower) ≠ "nan" :=
    hword (show Char.isDigit 'n' = false by decide) ['a', 'n']
  have hinf : String.ofList (cs.map Char.toLower) ≠ "inf" :=
    hword (show Char.isDigit 'i' = false by decide) ['n', 'f']
  have hinfinity : String.ofList (cs.map Char.toLower) ≠ "infinity" :=
    hword (show Char.isDigit 'i' = false by decide) ['n', 'f', 'i', 'n', 'i', 't', 'y']
  unfold ofUnsigned?
  simp only [hnan, hinf, hinfinity, or_self, if_false, h.ofNumeral?, Option.map_some]

/-- The digits of a magnitude, in any layout, are read as the number with this magnitude. -/
theorem ofUnsigned?_write (negative : Bool) (layout : Decimal.Layout) (m : Magnitude) :
    ofUnsigned? negative (layout.write (m.shortest layout.tie)) = some (finite negative m) := by
  obtain ⟨d, hspells, hpads⟩ := Decimal.exists_pads_write layout (m.shortest layout.tie)
  rw [ofUnsigned?_of_spells negative hspells, ofDecimal_of_pads negative hpads,
    ← ofDecimal_of_pads negative (Decimal.pads_significant _), ofDecimal_shortest]

/-- Every number is read back from its text in any layout. -/
theorem ofText?_write (layout : Decimal.Layout) (x : Binary64) :
    ofText? (x.write layout) = some x := by
  cases x with
  | nan => rfl
  | infinite negative => cases negative <;> rfl
  | finite negative m =>
    have hread := ofUnsigned?_write negative layout m
    cases negative with
    | true => exact hread
    | false =>
      obtain ⟨d, hspells, -⟩ := Decimal.exists_pads_write layout (m.shortest layout.tie)
      obtain ⟨c, cs, hcons, hc⟩ := hspells.exists_cons
      show ofText? (layout.write (m.shortest layout.tie)) = some (finite false m)
      rw [hcons] at hread ⊢
      unfold ofText?
      split
      · rename_i heq
        exact absurd (List.cons.inj heq).1 (Integer.ne_of_isDigit hc (by decide))
      · rename_i heq
        exact absurd (List.cons.inj heq).1 (Integer.ne_of_isDigit hc (by decide))
      · exact hread

theorem isNumeric_write (layout : Decimal.Layout) (x : Binary64) :
    ∀ c ∈ x.write layout, Decimal.isNumeric c = true := by
  have hminus (negative : Bool) : ∀ c ∈ (if negative then ['-'] else []),
      Decimal.isNumeric c = true :=
    List.all_eq_true.mp (by cases negative <;> rfl)
  cases x with
  | nan => exact List.all_eq_true.mp (show ['N', 'a', 'N'].all Decimal.isNumeric = true by rfl)
  | infinite negative =>
    rw [write, List.forall_mem_append]
    exact ⟨hminus negative, List.all_eq_true.mp (by rfl)⟩
  | finite negative m =>
    obtain ⟨d, hspells, -⟩ := Decimal.exists_pads_write layout (m.shortest layout.tie)
    rw [write, List.forall_mem_append]
    exact ⟨hminus negative, hspells.isNumeric⟩

/-- The text of a number determines the number. -/
theorem write_inj {layout : Decimal.Layout} {x y : Binary64}
    (h : x.write layout = y.write layout) : x = y := by
  have hx := ofText?_write layout x
  rw [h, ofText?_write] at hx
  exact (Option.some_inj.mp hx).symm

end Binary64

end RecordFilter
