import RecordFilter.Json.Writer
import RecordFilter.Proofs.Json.Reading

/-!
# Reading strings and numbers that were written

A string is written character by character, each by its own escape, and `stringFrom_escape` takes
one character back.  Nothing is asked of what follows a string, as its closing quote ends it.

A number is taken apart before its value is looked at.  `Numeral.write` is the text of such parts,
and `read_numeral_write` takes the same parts back from it if they keep to the grammar
(`Numeral.IsProper`) and nothing follows that could belong to them.

* `reads_string`, `read_key_writeString`: a written string is read.
* `reads_numeral`: the token of a written numeral is that of its parts.
* `reads_integer`: an integer of 64 bits is read as it was written.
-/

namespace RecordFilter.Json

open Reader

/-! ## Strings -/

namespace Reader

theorem hexDigit?_digitChar : ∀ d < 16, hexDigit? (Nat.digitChar d) = some d := by
  decide

/-- The digits of a character below the blank make its number. -/
theorem fourHex?_control {c : Char} (hc : c < ' ') :
    fourHex? '0' '0' (Nat.digitChar (c.toNat / 16)) (Nat.digitChar (c.toNat % 16)) =
      some c.toNat := by
  have hlt : c.toNat < 32 := hc
  have hhigh := hexDigit?_digitChar (c.toNat / 16) (by omega)
  have hlow := hexDigit?_digitChar (c.toNat % 16) (by omega)
  have hsum : (0 * 16 + c.toNat / 16) * 16 + c.toNat % 16 = c.toNat := by omega
  rw [fourHex?, hhigh, hlow]
  exact congrArg some hsum

/-- The escape of a character below the blank is taken for this character. -/
theorem read_escaped_control {c : Char} (hc : c < ' ') (rest : List Char) :
    (escaped false).read
        ('u' :: '0' :: '0' :: Nat.digitChar (c.toNat / 16) :: Nat.digitChar (c.toNat % 16) :: rest) =
      .ok (c, rest) := by
  have hlt : c.toNat < 32 := hc
  have hread : fourHex.read ('0' :: '0' :: Nat.digitChar (c.toNat / 16) ::
      Nat.digitChar (c.toNat % 16) :: rest) = .ok (c.toNat, rest) := by
    simp only [fourHex, fourHex?_control hc]
  have hpoint : (codePoint false).read ('0' :: '0' :: Nat.digitChar (c.toNat / 16) ::
      Nat.digitChar (c.toNat % 16) :: rest) = .ok (c, rest) := by
    rw [codePoint, read_bind, hread]
    simp only [if_pos (show c.toNat < 0xD800 ∨ 0xDFFF < c.toNat by omega), read_pure,
      Char.ofNat_toNat]
  exact hpoint

/-- A short escape is taken for its character. -/
theorem stringFrom_shortEscape {e c : Char} (he : shortEscape? e = some c) (hu : e ≠ 'u')
    (taken rest : List Char) :
    stringFrom false taken ('\\' :: e :: rest) = stringFrom false (c :: taken) rest := by
  have hread : (escaped false).read (e :: rest) = .ok (c, rest) := by
    simp only [escaped, if_neg hu, he]
  rw [stringFrom_cons, if_neg (by decide), if_pos rfl]
  simp only [hread]

/-- A written character is taken as it was. -/
theorem stringFrom_escape (c : Char) (taken rest : List Char) :
    stringFrom false taken (escape c ++ rest) = stringFrom false (c :: taken) rest := by
  unfold escape
  -- Seven characters have an escape of their own.
  iterate 7
    split
    · subst c
      exact stringFrom_shortEscape (by decide) (by decide) taken rest
  rename_i hquote hslash _ _ _ _ _
  split
  · rename_i hc
    rw [List.cons_append, stringFrom_cons, if_neg (by decide), if_pos rfl]
    simp only [List.cons_append, List.nil_append, read_escaped_control hc]
  · rename_i hc
    rw [List.cons_append, List.nil_append, stringFrom_cons, if_neg hquote, if_neg hslash,
      if_neg hc]

theorem stringFrom_flatMap_escape (cs taken rest : List Char) :
    stringFrom false taken (cs.flatMap escape ++ '\"' :: rest) =
      .ok (String.ofList (taken.reverse ++ cs), rest) := by
  induction cs generalizing taken with
  | nil =>
    rw [List.flatMap_nil, List.nil_append, stringFrom_cons, if_pos rfl, List.append_nil]
  | cons c cs ih =>
    rw [List.flatMap_cons, List.append_assoc, stringFrom_escape, ih, List.reverse_cons,
      List.append_assoc, List.singleton_append]

/-- A written string is taken as it was, whatever follows. -/
theorem read_quoted_writeString (s : String) (rest : List Char) :
    (quoted false).read (writeString s rest) = .ok (s, rest) := by
  rw [quoted, read_bind, writeString, read_symbol_cons]
  change stringFrom false [] (s.toList.flatMap escape ++ '\"' :: rest) = .ok (s, rest)
  rw [stringFrom_flatMap_escape, List.reverse_nil, List.nil_append, String.ofList_toList]

theorem begins_writeString (s : String) : Begins (writeString s) := by
  intro rest
  exact ⟨'\"', _, rfl, by decide, by decide, by decide⟩

theorem reads_token_string (s : String) : Reads token (writeString s) (some (.string s)) := by
  intro rest _
  have hread := read_quoted_writeString s rest
  rw [gives_some, token, writeString, read_onNext_cons (by decide)]
  rw [writeString] at hread
  exact (read_map _ _ _).trans (by rw [hread])

/-- A written string is read. -/
theorem reads_string (s : String) : Reads string (writeString s) (some s) := by
  intro rest hrest
  have hread := gives_some.mp (reads_token_string s rest hrest)
  rw [gives_some, string, read_bind, hread]
  rfl

/-- A written name of a member is taken, whatever follows. -/
theorem read_key_writeString (s : String) (rest : List Char) :
    (key false).read (writeString s rest) = .ok (s, rest) := by
  have hread := read_quoted_writeString s rest
  rw [key]
  rw [writeString] at hread ⊢
  rw [read_onNext_cons (by decide), if_pos rfl, hread]

/-! ## Words -/

theorem reads_token_null (depth : Nat) :
    Reads token (Json.null.write .compact depth) (some .null) := by
  intro rest _
  rw [gives_some, write, token, read_onNext_cons (by decide)]
  exact read_map_of_ok (read_word ['n', 'u', 'l', 'l'] rest) _

theorem reads_token_boolean (b : Bool) (depth : Nat) :
    Reads token ((Json.boolean b).write .compact depth) (some (.boolean b)) := by
  intro rest _
  cases b with
  | true =>
    rw [gives_some, write, token, read_onNext_cons (by decide)]
    exact read_map_of_ok (read_word ['t', 'r', 'u', 'e'] rest) _
  | false =>
    rw [gives_some, write, token, read_onNext_cons (by decide)]
    exact read_map_of_ok (read_word ['f', 'a', 'l', 's', 'e'] rest) _

/-! ## Digits -/

/-- The text does not go on with a character of the given kind. -/
def Stops (starts : Char → Bool) (rest : List Char) : Prop := ∀ c ∈ rest.head?, starts c = false

theorem stops_cons {starts : Char → Bool} {c : Char} (hc : starts c = false) (rest : List Char) :
    Stops starts (c :: rest) := by
  intro d hd
  rw [← Option.some_inj.mp (show some c = some d from hd)]
  exact hc

theorem Ends.stops {rest : List Char} (hrest : Ends rest) (starts : Char → Bool)
    (hcomma : starts ',' = false) (hsquare : starts ']' = false)
    (hcurly : starts '\x7d' = false) : Stops starts rest := by
  intro c hc
  rcases hrest c hc with rfl | rfl | rfl <;> assumption

/-- At least one digit, and nothing else. -/
def IsDigits (ds : List Char) : Prop := ds ≠ [] ∧ ∀ c ∈ ds, c.isDigit = true

theorem IsDigits.exists_cons {ds : List Char} (hds : IsDigits ds) :
    ∃ c cs, ds = c :: cs ∧ c.isDigit = true := by
  obtain ⟨hne, hall⟩ := hds
  cases ds with
  | nil => exact absurd rfl hne
  | cons c cs => exact ⟨c, cs, rfl, hall c List.mem_cons_self⟩

theorem isDigits_digits (n : Nat) : IsDigits (Integer.digits n) :=
  ⟨Nat.toDigits_ne_nil, fun _ hc => Nat.isDigit_of_mem_toDigits (by decide) (by decide) hc⟩

/-- Only the numeral of zero starts with a zero. -/
theorem head?_digits_ne {n : Nat} (hn : n ≠ 0) : (Integer.digits n).head? ≠ some '0' := by
  induction n using Nat.strongRecOn with
  | ind n ih =>
    by_cases hlt : n < 10
    · rw [Integer.digits, Nat.toDigits_of_lt_base hlt, List.head?_cons]
      exact fun h => hn (Nat.digitChar_eq_zero.mp (Option.some_inj.mp h))
    · have hdiv := ih (n / 10) (by omega) (by omega)
      have hne : Nat.toDigits 10 (n / 10) ≠ [] := Nat.toDigits_ne_nil
      rw [Integer.digits, Nat.toDigits_of_base_le (by decide) (by omega),
        List.head?_append, List.head?_eq_some_head hne, Option.some_or, ← List.head?_eq_some_head hne]
      exact hdiv

theorem spanDigits_append {ds rest : List Char} (hds : ∀ c ∈ ds, c.isDigit = true)
    (hrest : Stops Char.isDigit rest) : Decimal.spanDigits (ds ++ rest) = (ds, rest) := by
  rw [Decimal.spanDigits, List.takeWhile_append_of_pos hds, List.dropWhile_append_of_pos hds]
  cases rest with
  | nil => rw [List.takeWhile_nil, List.append_nil, List.dropWhile_nil]
  | cons c rest =>
    have hc : ¬ c.isDigit = true := by simp [hrest c rfl]
    rw [List.takeWhile_cons_of_neg hc, List.append_nil, List.dropWhile_cons_of_neg hc]

/-- Digits are taken alike whether or not their number is asked for. -/
theorem read_someDigits (skipping : Bool) {ds rest : List Char} (hds : IsDigits ds)
    (hrest : Stops Char.isDigit rest) :
    (someDigits skipping).read (ds ++ rest) = .ok (ds, rest) := by
  have hspan := spanDigits_append hds.2 hrest
  simp only [someDigits, hspan, if_neg hds.1]

theorem read_optional_of_stops {α : Type} {starts : Char → Bool} {rest : List Char}
    (hrest : Stops starts rest) (r : Reader α) :
    (optional starts r).read rest = .ok (none, rest) := by
  cases rest with
  | nil => rfl
  | cons c rest => simp only [optional, hrest c rfl, Bool.false_eq_true, if_false]

theorem read_optional_cons {α : Type} {starts : Char → Bool} {c : Char} (hc : starts c = true)
    (r : Reader α) (s : List Char) :
    (optional starts r).read (c :: s) = (some <$> r).read (c :: s) := by
  simp only [optional, hc, if_true]

end Reader

/-! ## Numerals -/

namespace Numeral

/-- The text of a fraction, with its point. -/
def writeFraction : Option (List Char) → List Char
  | none => []
  | some ds => '.' :: ds

/-- The text of an exponent, with its mark and its sign. -/
def writeExponent : Option Int → List Char
  | none => []
  | some e => 'e' :: ((if 0 ≤ e then ['+'] else []) ++ Integer.numeralChars e)

/-- The text of a numeral. -/
def write (n : Numeral) : List Char :=
  (if n.negative then ['-'] else []) ++
    (n.whole ++ (writeFraction n.fraction ++ writeExponent n.exponent))

/-- The numeral keeps to the grammar: no part lacks digits, and no zero leads other digits. -/
structure IsProper (n : Numeral) : Prop where
  whole : IsDigits n.whole
  leading : n.whole.head? = some '0' → n.whole.length = 1
  fraction : ∀ ds ∈ n.fraction, IsDigits ds

/-- The text of an exponent starts with its mark and its sign. -/
theorem writeExponent_some (e : Int) :
    writeExponent (some e) = 'e' :: (if e < 0 then '-' else '+') :: Integer.digits e.natAbs := by
  by_cases he : e < 0
  · rw [writeExponent, if_neg (by omega), if_pos he, Integer.numeralChars, if_pos he,
      List.nil_append]
  · rw [writeExponent, if_pos (by omega), if_neg he, Integer.numeralChars, if_neg he,
      List.singleton_append]

theorem stops_writeExponent {starts : Char → Bool} (he : starts 'e' = false) (e : Option Int)
    {rest : List Char} (hrest : Stops starts rest) : Stops starts (writeExponent e ++ rest) := by
  cases e with
  | none => exact hrest
  | some e => exact stops_cons he _

theorem stops_writeFraction {starts : Char → Bool} (hpoint : starts '.' = false)
    (fraction : Option (List Char)) {rest : List Char} (hrest : Stops starts rest) :
    Stops starts (writeFraction fraction ++ rest) := by
  cases fraction with
  | none => exact hrest
  | some ds => exact stops_cons hpoint _

end Numeral

namespace Reader

theorem read_next_cons (c : Char) (rest : List Char) : next.read (c :: rest) = .ok (c, rest) := rfl

/-- The sign that is written for an integer gives the integer back. -/
theorem signed_natAbs (e : Int) :
    Binary64.signed (some (if e < 0 then '-' else '+') == some '-') e.natAbs = e := by
  by_cases he : e < 0
  · rw [if_pos he, Binary64.signed, if_pos (by decide)]
    omega
  · rw [if_neg he, Binary64.signed, if_neg (by decide)]
    omega

theorem read_exponent (e : Int) {rest : List Char} (hrest : Stops Char.isDigit rest) :
    (exponent false).read (Numeral.writeExponent (some e) ++ rest) = .ok (e, rest) := by
  have hdigits := read_someDigits false (isDigits_digits e.natAbs) hrest
  have hsign : (optional (fun c => c == '+' || c == '-') next).read
      ((if e < 0 then '-' else '+') :: (Integer.digits e.natAbs ++ rest)) =
        .ok (some (if e < 0 then '-' else '+'), Integer.digits e.natAbs ++ rest) := by
    rw [read_optional_cons (by split <;> decide)]
    rfl
  rw [Numeral.writeExponent_some, List.cons_append, List.cons_append, exponent,
    read_bind_of_ok (read_next_cons _ _), read_bind_of_ok hsign, read_bind_of_ok hdigits,
    Integer.ofDigits_digits, signed_natAbs, read_pure]

theorem read_optional_exponent (e : Option Int) {rest : List Char}
    (hmark : Stops (fun c => c == 'e' || c == 'E') rest) (hdigit : Stops Char.isDigit rest) :
    (optional (fun c => c == 'e' || c == 'E') (exponent false)).read
        (Numeral.writeExponent e ++ rest) = .ok (e, rest) := by
  cases e with
  | none => exact read_optional_of_stops hmark _
  | some e =>
    have hread := read_exponent e hdigit
    rw [Numeral.writeExponent, List.cons_append] at hread ⊢
    rw [read_optional_cons (by decide)]
    exact read_map_of_ok hread some

theorem read_optional_fraction (skipping : Bool) {digits : Option (List Char)}
    (h : ∀ ds ∈ digits, IsDigits ds) {rest : List Char} (hpoint : Stops (· == '.') rest)
    (hdigit : Stops Char.isDigit rest) :
    (optional (· == '.') (fraction skipping)).read (Numeral.writeFraction digits ++ rest) =
      .ok (digits, rest) := by
  cases digits with
  | none => exact read_optional_of_stops hpoint _
  | some ds =>
    have hread : (fraction skipping).read ('.' :: (ds ++ rest)) = .ok (ds, rest) := by
      rw [fraction, read_bind_of_ok (read_next_cons _ _)]
      exact read_someDigits skipping (h ds rfl) hdigit
    rw [Numeral.writeFraction, List.cons_append, read_optional_cons (by decide)]
    exact read_map_of_ok hread some

theorem read_whole (skipping : Bool) {ds rest : List Char} (hds : IsDigits ds)
    (hleading : ds.head? = some '0' → ds.length = 1) (hrest : Stops Char.isDigit rest) :
    (whole skipping).read (ds ++ rest) = .ok (ds, rest) := by
  have hproper : ¬ (ds.head? = some '0' ∧ ds.length ≠ 1) := fun h => h.2 (hleading h.1)
  rw [whole, read_bind_of_ok (read_someDigits skipping hds hrest), if_neg hproper, read_pure]

theorem read_optional_minus (negative : Bool) {s : List Char} (hs : Stops (· == '-') s) :
    ∃ minus : Option Char, minus.isSome = negative ∧
      (optional (· == '-') next).read ((if negative then ['-'] else []) ++ s) = .ok (minus, s) := by
  cases negative with
  | false => exact ⟨none, rfl, read_optional_of_stops hs _⟩
  | true => exact ⟨some '-', rfl, rfl⟩

/-- The parts of a proper numeral are taken from its text if its exponent is taken from what stands
behind its digits. -/
theorem read_numeral_of_exponent (skipping : Bool) {n : Numeral} (h : n.IsProper)
    {s rest : List Char} (hpoint : Stops (· == '.') s) (hdigit : Stops Char.isDigit s)
    (hexponent : (optional (fun c => c == 'e' || c == 'E') (exponent skipping)).read s =
      .ok (n.exponent, rest)) :
    (numeral skipping).read ((if n.negative then ['-'] else []) ++
      (n.whole ++ (Numeral.writeFraction n.fraction ++ s))) = .ok (n, rest) := by
  obtain ⟨negative, whole, fraction, exponent⟩ := n
  have hfraction := read_optional_fraction skipping h.fraction hpoint hdigit
  have hwhole := read_whole skipping h.whole h.leading
    (Numeral.stops_writeFraction (by decide) fraction hdigit)
  have hstops : Stops (· == '-') (whole ++ (Numeral.writeFraction fraction ++ s)) := by
    obtain ⟨c, cs, rfl, hc⟩ := h.whole.exists_cons
    refine stops_cons ?_ _
    rw [beq_eq_false_iff_ne]
    rintro rfl
    exact absurd hc (by decide)
  obtain ⟨minus, hminus, hread⟩ := read_optional_minus negative hstops
  rw [numeral, read_bind_of_ok hread, read_bind_of_ok hwhole, read_bind_of_ok hfraction,
    read_bind_of_ok hexponent, hminus, read_pure]

/-- The parts of a proper numeral are taken from its text. -/
theorem read_numeral_write {n : Numeral} (h : n.IsProper) {rest : List Char} (hrest : Ends rest) :
    (numeral false).read (n.write ++ rest) = .ok (n, rest) := by
  have hdigit : Stops Char.isDigit rest := hrest.stops _ (by decide) (by decide) (by decide)
  have hpoint : Stops (· == '.') rest := hrest.stops _ (by decide) (by decide) (by decide)
  have hmark : Stops (fun c => c == 'e' || c == 'E') rest :=
    hrest.stops _ (by decide) (by decide) (by decide)
  have hread := read_numeral_of_exponent false h
    (Numeral.stops_writeExponent (by decide) n.exponent hpoint)
    (Numeral.stops_writeExponent (by decide) n.exponent hdigit)
    (read_optional_exponent n.exponent hmark hdigit)
  rw [Numeral.write, List.append_assoc, List.append_assoc, List.append_assoc]
  exact hread

/-- A numeral starts with a digit or a minus sign. -/
theorem exists_write_cons {n : Numeral} (h : n.IsProper) :
    ∃ c cs, n.write = c :: cs ∧ (c = '-' ∨ c.isDigit = true) := by
  obtain ⟨d, ds, hwhole, hd⟩ := h.whole.exists_cons
  obtain ⟨negative, whole, fraction, exponent⟩ := n
  cases negative with
  | false =>
    cases hwhole
    exact ⟨d, _, rfl, Or.inr hd⟩
  | true => exact ⟨'-', _, rfl, Or.inl rfl⟩

theorem ne_of_numeric {c d : Char} (hc : c = '-' ∨ c.isDigit = true) (hminus : d ≠ '-')
    (hdigit : d.isDigit = false) : c ≠ d := by
  intro h
  subst h
  rw [hdigit] at hc
  exact hc.elim hminus Bool.false_ne_true

theorem isBlank_numeric {c : Char} (hc : c = '-' ∨ c.isDigit = true) : isBlank c = false := by
  simp [isBlank, ne_of_numeric hc (show ' ' ≠ '-' by decide) (by decide),
    ne_of_numeric hc (show '\t' ≠ '-' by decide) (by decide),
    ne_of_numeric hc (show '\n' ≠ '-' by decide) (by decide),
    ne_of_numeric hc (show '\r' ≠ '-' by decide) (by decide)]

/-- A minus sign or a digit is none of the other characters that a token starts with. -/
theorem read_token_of_numeric {c : Char} (hc : c = '-' ∨ c.isDigit = true) (s : List Char) :
    token.read (c :: s) = number.read (c :: s) := by
  rw [token, read_onNext_cons (isBlank_numeric hc),
    if_neg (ne_of_numeric hc (by decide) (by decide)),
    if_neg (ne_of_numeric hc (by decide) (by decide)),
    if_neg (ne_of_numeric hc (by decide) (by decide)),
    if_neg (ne_of_numeric hc (by decide) (by decide)),
    if_neg (ne_of_numeric hc (by decide) (by decide)),
    if_neg (ne_of_numeric hc (by decide) (by decide)), if_pos hc]

/-- The token of a proper numeral is that of its parts. -/
theorem reads_numeral {n : Numeral} (h : n.IsProper) : Reads token (n.write ++ ·) n.token? := by
  intro rest hrest
  obtain ⟨c, cs, hwrite, hc⟩ := exists_write_cons h
  have htoken : token.read (n.write ++ rest) = number.read (n.write ++ rest) := by
    rw [hwrite, List.cons_append]
    exact read_token_of_numeric hc _
  change Gives (token.read (n.write ++ rest)) n.token? rest
  rw [htoken, number, read_bind_of_ok (read_numeral_write h hrest)]
  cases n.token? with
  | none => exact ⟨.malformed, rfl⟩
  | some t => exact rfl

theorem begins_numeral {n : Numeral} (h : n.IsProper) : Begins (n.write ++ ·) := by
  intro rest
  obtain ⟨c, cs, hwrite, hc⟩ := exists_write_cons h
  refine ⟨c, cs ++ rest, ?_, isBlank_numeric hc, ne_of_numeric hc (by decide) (by decide),
    ne_of_numeric hc (by decide) (by decide)⟩
  change n.write ++ rest = c :: (cs ++ rest)
  rw [hwrite, List.cons_append]

theorem head?_write_ne {n : Numeral} (h : n.IsProper) {d : Char} (hminus : d ≠ '-')
    (hdigit : d.isDigit = false) (rest : List Char) : (n.write ++ rest).head? ≠ some d := by
  obtain ⟨c, cs, hwrite, hc⟩ := exists_write_cons h
  rw [hwrite, List.cons_append, List.head?_cons]
  exact fun h => ne_of_numeric hc hminus hdigit (Option.some_inj.mp h)

/-! ## Integers -/

/-- The parts of the numeral of an integer. -/
def integerNumeral (n : Int) : Numeral := ⟨decide (n < 0), Integer.digits n.natAbs, none, none⟩

theorem isProper_integerNumeral (n : Int) : (integerNumeral n).IsProper where
  whole := isDigits_digits _
  leading := by
    intro h
    by_cases hn : n.natAbs = 0
    · rw [integerNumeral, hn]
      rfl
    · exact absurd h (head?_digits_ne hn)
  fraction := by
    intro ds hds
    cases hds

theorem write_integerNumeral (n : Int) : (integerNumeral n).write = Integer.numeralChars n := by
  by_cases hn : n < 0
  · simp [Numeral.write, integerNumeral, Numeral.writeFraction, Numeral.writeExponent,
      Integer.numeralChars, hn]
  · simp [Numeral.write, integerNumeral, Numeral.writeFraction, Numeral.writeExponent,
      Integer.numeralChars, hn]

theorem toInteger?_integerNumeral (i : Int64) :
    (integerNumeral i.toInt).toInteger? = some i.toInt := by
  have hleast := Int64.minValue_le_toInt i
  have hgreatest := Int64.toInt_lt i
  simp only [integerNumeral, Numeral.toInteger?, Integer.ofDigits_digits]
  by_cases hi : i.toInt < 0
  · have habs : -(i.toInt.natAbs : Int) = i.toInt := by omega
    rw [if_pos (by simpa using hi), habs, if_pos ⟨by omega, hleast⟩]
  · have habs : (i.toInt.natAbs : Int) = i.toInt := by omega
    have hsize : i.toInt.natAbs < UInt64.size := by
      have : UInt64.size = 2 ^ 64 := rfl
      omega
    rw [if_neg (by simpa using hi), habs, if_pos hsize]

/-- An integer of 64 bits is the token of its numeral. -/
theorem token?_integerNumeral (i : Int64) :
    (integerNumeral i.toInt).token? = some (.integer i.toInt) := by
  rw [Numeral.token?, toInteger?_integerNumeral]

/-- An integer of 64 bits is read as it was written. -/
theorem reads_integer (i : Int64) :
    Reads token (Integer.numeralChars i.toInt ++ ·) (some (.integer i.toInt)) := by
  rw [← write_integerNumeral, ← token?_integerNumeral]
  exact reads_numeral (isProper_integerNumeral _)

theorem begins_integer (n : Int) : Begins (Integer.numeralChars n ++ ·) := by
  rw [← write_integerNumeral]
  exact begins_numeral (isProper_integerNumeral n)

theorem head?_integer_ne (n : Int) (rest : List Char) :
    (Integer.numeralChars n ++ rest).head? ≠ some 'n' := by
  rw [← write_integerNumeral]
  exact head?_write_ne (isProper_integerNumeral n) (by decide) (by decide) rest

end Reader

end RecordFilter.Json
