import RecordFilter.Date
import RecordFilter.Proofs.Text.Trimming

/-!
# A date is read back from its text

Every number in the text of a date is padded with zeros, and the dash that follows it, or the end,
tells where it ends.  The reader takes at most four digits of a year without a sign, which has no
more, and at most two of a month or a day.

* `ofText?_chars`: a date is read back from its text, so that the text determines the date.
-/

namespace RecordFilter.Date

open Json.Reader (IsDigits Stops isDigits_digits spanDigits_append stops_cons)
open Text (trimLeft)

/-! ## Padded numbers -/

theorem isDigits_padded (width n : Nat) : IsDigits (padded width n) :=
  Decimal.isDigits_append (Decimal.isDigit_replicate _) (isDigits_digits n).2
    (Or.inr (isDigits_digits n).1)

@[simp] theorem ofDigits_padded (width n : Nat) : Integer.ofDigits (padded width n) = n := by
  rw [padded, Integer.ofDigits_zeros_append, Integer.ofDigits_digits]

/-- A number of at most so many digits is padded to the width. -/
theorem length_padded_le {width n : Nat} (hwidth : 0 < width) (hn : n < 10 ^ width) :
    (padded width n).length ≤ width := by
  have hlength : (Integer.digits n).length ≤ width :=
    (Nat.length_toDigits_le_iff (by decide) hwidth).mpr hn
  rw [padded, List.length_append, List.length_replicate]
  omega

theorem trimLeft_padded (width n : Nat) (rest : List Char) :
    trimLeft (padded width n ++ rest) = padded width n ++ rest := by
  obtain ⟨c, cs, hcons, hc⟩ := (isDigits_padded width n).exists_cons
  rw [hcons, List.cons_append, Text.trimLeft_cons,
    Text.isBlank_of_isNumeric (Decimal.isNumeric_of_isDigit hc), if_neg (by decide)]

/-- The digits at the front of a text are taken, if there are not more than asked for. -/
theorem digitsUpTo?_append {ds rest : List Char} (hds : IsDigits ds) {width : Nat}
    (hwidth : ds.length ≤ width) (hrest : Stops Char.isDigit rest) :
    digitsUpTo? width (ds ++ rest) = some (Integer.ofDigits ds, rest) := by
  have htake : (ds ++ rest).take width = ds ++ rest.take (width - ds.length) := by
    rw [List.take_append, List.take_of_length_le hwidth]
  have hstops : Stops Char.isDigit (rest.take (width - ds.length)) := by
    intro c hc
    rw [List.head?_take] at hc
    split at hc
    · cases hc
    · exact hrest c hc
  have hspan := congrArg Prod.fst (spanDigits_append hds.2 hstops)
  unfold digitsUpTo?
  simp only [htake]
  rw [show ((ds ++ rest.take (width - ds.length)).takeWhile Char.isDigit) = ds from hspan,
    if_neg hds.1, List.drop_left]

/-! ## The parts of a date -/

/-- A dash and a padded number are taken from the front of a text. -/
theorem dashed?_padded {n : Nat} (hn : n < 100) {rest : List Char}
    (hrest : Stops Char.isDigit rest) :
    dashed? ('-' :: (padded 2 n ++ rest)) = some (n, rest) := by
  have hlength := length_padded_le (show 0 < 2 by decide) hn
  rw [dashed?, trimLeft_padded, digitsUpTo?_append (isDigits_padded 2 n) hlength hrest,
    ofDigits_padded]

theorem year?_minus (cs : List Char) :
    year? ('-' :: cs) = (digitsUpTo? cs.length cs).map fun (n, rest) => (-(n : Int), rest) := rfl

theorem year?_plus (cs : List Char) :
    year? ('+' :: cs) = (digitsUpTo? cs.length cs).map fun (n, rest) => ((n : Int), rest) := rfl

theorem year?_padded (n : Nat) (rest : List Char) :
    year? (padded 4 n ++ rest) =
      (digitsUpTo? 4 (padded 4 n ++ rest)).map fun (n, rest) => ((n : Int), rest) := by
  obtain ⟨c, cs, hcons, hc⟩ := (isDigits_padded 4 n).exists_cons
  unfold year?
  rw [trimLeft_padded, hcons, List.cons_append]
  split
  · rename_i heq
    exact absurd (List.cons.inj heq).1 (Integer.ne_of_isDigit hc (by decide))
  · rename_i heq
    exact absurd (List.cons.inj heq).1 (Integer.ne_of_isDigit hc (by decide))
  · rfl

/-- The year is taken from the front of a text. -/
theorem year?_yearChars (year : Int) {rest : List Char} (hrest : Stops Char.isDigit rest) :
    year? (yearChars year ++ rest) = some (year, rest) := by
  have hdigits := isDigits_padded 4 year.natAbs
  unfold yearChars
  split
  · rename_i hyear
    have hfour := length_padded_le (show 0 < 4 by decide) (show year.natAbs < 10 ^ 4 by omega)
    rw [year?_padded, digitsUpTo?_append hdigits hfour hrest, ofDigits_padded, Option.map_some]
    exact congrArg (fun y => some (y, rest)) (Int.natAbs_of_nonneg hyear.1)
  · have hall : (padded 4 year.natAbs).length ≤ (padded 4 year.natAbs ++ rest).length := by
      rw [List.length_append]
      exact Nat.le_add_right _ _
    by_cases hyear : year < 0
    · rw [if_pos hyear, List.cons_append, year?_minus, digitsUpTo?_append hdigits hall hrest,
        ofDigits_padded, Option.map_some]
      exact congrArg (fun y => some (y, rest)) (show -(year.natAbs : Int) = year by omega)
    · rw [if_neg hyear, List.cons_append, year?_plus, digitsUpTo?_append hdigits hall hrest,
        ofDigits_padded, Option.map_some]
      exact congrArg (fun y => some (y, rest)) (show (year.natAbs : Int) = year by omega)

theorem daysIn_le (year : Int) (month : Nat) : daysIn year month ≤ 31 := by
  unfold daysIn
  repeat' split
  all_goals decide

/-- Only twelve months have days. -/
theorem month_lt (d : Date) : d.month < 100 := by
  by_contra h
  obtain ⟨-, -, hfirst, hlast⟩ := d.isValid
  have hnone : daysIn d.year d.month = 0 := by
    unfold daysIn
    split <;> omega
  omega

theorem day_lt (d : Date) : d.day < 100 := by
  obtain ⟨-, -, -, hlast⟩ := d.isValid
  have hmost := daysIn_le d.year d.month
  omega

/-! ## Whole dates -/

/-- Every date is read back from its text. -/
theorem ofText?_chars (d : Date) : ofText? d.chars = some d := by
  have hyear := year?_yearChars d.year (stops_cons (show Char.isDigit '-' = false by decide)
    (padded 2 d.month ++ '-' :: padded 2 d.day))
  have hmonth := dashed?_padded d.month_lt
    (stops_cons (show Char.isDigit '-' = false by decide) (padded 2 d.day))
  have hnil : Stops Char.isDigit [] := fun c hc => nomatch hc
  have hday := dashed?_padded d.day_lt hnil
  rw [List.append_nil] at hday
  unfold ofText? chars
  simp [hyear, hmonth, hday]

/-- The text of a date determines the date. -/
theorem chars_inj {d e : Date} (h : d.chars = e.chars) : d = e := by
  have hd := ofText?_chars d
  rw [h, ofText?_chars] at hd
  exact (Option.some_inj.mp hd).symm

theorem isNumeric_chars (d : Date) : ∀ c ∈ d.chars, Decimal.isNumeric c = true := by
  have hpadded : ∀ width n, ∀ c ∈ padded width n, Decimal.isNumeric c = true :=
    fun width n c hc => Decimal.isNumeric_of_isDigit ((isDigits_padded width n).2 c hc)
  have hyear : ∀ c ∈ yearChars d.year, Decimal.isNumeric c = true := by
    unfold yearChars
    split
    · exact hpadded _ _
    · refine List.forall_mem_cons.mpr ⟨?_, hpadded _ _⟩
      split <;> decide
  rw [chars, List.forall_mem_append, List.forall_mem_cons, List.forall_mem_append,
    List.forall_mem_cons]
  exact ⟨hyear, by decide, hpadded _ _, by decide, hpadded _ _⟩

end RecordFilter.Date
