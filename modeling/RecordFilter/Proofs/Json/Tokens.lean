import RecordFilter.Proofs.Json.Spelling

/-!
# Reading the tokens of a spelling

A reader is told what to make of a part of the grammar by `Takes`: in front of anything that may
follow a value, it makes the given value of each spelling of the part and leaves what follows, or
refuses each of them.  Which spelling it is does not matter, so whatever is composed of readers that
`Takes` is known of depends on the document alone.

A string ends at its closing quote and a word at its last letter.  Only a number goes on as long as
the text has digits for it, which is why something has to follow it that cannot belong to it
(`Delimits`).

* `stringFrom_characters`, `exists_stringFrom_half`: a string is taken character by character, and
  half of a surrogate pair is an error there.
* `exists_stringFrom_pieces`: where content is skipped, both are passed over.
* `read_numeral`: the parts of a number are taken from any of its spellings.
* `takes_token_bind`: what a reader makes of a document by its first token.
-/

namespace RecordFilter.Json

open Reader
open Spelling (Blanks Code Character characters Pieces Half Content Exponent IsSurrogate IsHigh
  IsLow exactly)

variable {α β : Type}

/-! ## What follows a value -/

/-- What may follow a value: nothing, a blank, or what stands behind an item of a bracket. -/
def Delimits (rest : List Char) : Prop :=
  ∀ c ∈ rest.head?, isBlank c = true ∨ c = ',' ∨ c = ']' ∨ c = '\x7d'

/-- In front of what may follow a value, the reader makes the given value of every spelling, or
refuses every one. -/
def Takes (r : Reader α) (p : Spelling) (o : Option α) : Prop :=
  ∀ s rest, p s rest → Delimits rest → Gives (r.read s) o rest

theorem Takes.map {r : Reader α} {p : Spelling} {o : Option α} (h : Takes r p o) (f : α → β) :
    Takes (f <$> r) p (o.map f) := fun s rest hs hrest => (h s rest hs hrest).map f

theorem delimits_nil : Delimits [] := by
  intro c hc
  cases hc

theorem delimits_cons {c : Char} (hc : isBlank c = true ∨ c = ',' ∨ c = ']' ∨ c = '\x7d')
    (rest : List Char) : Delimits (c :: rest) := by
  intro d hd
  rw [← Option.some_inj.mp (show some c = some d from hd)]
  exact hc

theorem Delimits.stops {rest : List Char} (hrest : Delimits rest) (starts : Char → Bool)
    (hblank : ∀ c, isBlank c = true → starts c = false) (hcomma : starts ',' = false)
    (hsquare : starts ']' = false) (hcurly : starts '\x7d' = false) : Stops starts rest := by
  intro c hc
  rcases hrest c hc with hc | rfl | rfl | rfl
  · exact hblank c hc
  all_goals assumption

/-! ## Blanks -/

theorem isBlank_iff {c : Char} :
    isBlank c = true ↔ c = ' ' ∨ c = '\t' ∨ c = '\n' ∨ c = '\r' := by
  simp [isBlank, or_assoc]

/-- Nothing is a blank that is told from the four of them. -/
theorem forall_isBlank {P : Char → Prop} (h : P ' ' ∧ P '\t' ∧ P '\n' ∧ P '\r') (c : Char)
    (hc : isBlank c = true) : P c := by
  obtain ⟨hspace, htab, hline, hreturn⟩ := h
  rcases isBlank_iff.mp hc with rfl | rfl | rfl | rfl <;> assumption

theorem skipBlanks_of_blanks {s rest : List Char} (h : Blanks s rest) :
    skipBlanks s = skipBlanks rest := by
  induction h with
  | none => rfl
  | cons hc _ ih =>
    rw [skipBlanks, List.dropWhile_cons_of_pos hc]
    exact ih

theorem delimits_of_blanks {s rest : List Char} (h : Blanks s rest) (hrest : Delimits rest) :
    Delimits s := by
  cases h with
  | none => exact hrest
  | cons hc _ => exact delimits_cons (Or.inl hc) _

/-- Blanks are passed over on the way to the next character. -/
theorem read_onNext_of_blanks {f : Char → Reader α} {s t : List Char} {c : Char}
    (h : Blanks s (c :: t)) (hc : isBlank c = false) :
    (onNext f).read s = (f c).read (c :: t) := by
  rw [read_onNext, skipBlanks_of_blanks h, skipBlanks_cons hc]

/-- A spelled mark is one character behind blanks. -/
theorem blanks_of_mark {c : Char} {s rest : List Char} (h : Spelling.mark c s rest) :
    Blanks s (c :: rest) := by
  obtain ⟨between, hblanks, rfl⟩ := h
  exact hblanks

theorem read_mark {c : Char} (hc : isBlank c = false) {s rest : List Char}
    (h : Spelling.mark c s rest) : (mark c).read s = .ok ((), rest) := by
  rw [mark, read_onNext_of_blanks (blanks_of_mark h) hc, read_symbol_cons]

/-- Another character stands in place of a mark. -/
theorem exists_read_mark_error {c d : Char} (hd : isBlank d = false) (hcd : d ≠ c)
    {s t : List Char} (h : Blanks s (d :: t)) : ∃ e, (mark c).read s = .error e := by
  refine ⟨.malformed, ?_⟩
  rw [mark, read_onNext_of_blanks h hd]
  exact if_neg hcd

/-! ## Strings -/

theorem read_fourHex {a b c d : Char} {n : Nat} (h : fourHex? a b c d = some n)
    (rest : List Char) : fourHex.read (a :: b :: c :: d :: rest) = .ok (n, rest) := by
  simp only [fourHex, h]

theorem code_of_read_fourHex {s rest : List Char} {n : Nat} (h : fourHex.read s = .ok (n, rest)) :
    Code n ('\\' :: 'u' :: s) rest := by
  simp only [fourHex] at h
  split at h
  · split at h
    · cases h
      exact .digits ‹_›
    · cases h
  · split at h <;> cases h

theorem eq_cons_of_read_symbol {c : Char} {s rest : List Char} {u : Unit}
    (h : (symbol c).read s = .ok (u, rest)) : s = c :: rest := by
  simp only [symbol] at h
  split at h
  · cases h
  · split at h
    · rename_i hd
      cases h
      rw [hd]
    · cases h

theorem isSurrogate_iff {n : Nat} : ¬ IsSurrogate n ↔ n < 0xD800 ∨ 0xDFFF < n := by
  unfold IsSurrogate
  omega

/-- A code that is not half of a surrogate pair is one character. -/
theorem read_codePoint (skipping : Bool) {a b c d : Char} {n : Nat}
    (h : fourHex? a b c d = some n) (hn : ¬ IsSurrogate n) (rest : List Char) :
    (codePoint skipping).read (a :: b :: c :: d :: rest) = .ok (Char.ofNat n, rest) := by
  rw [codePoint, read_bind_of_ok (read_fourHex h rest), if_pos (isSurrogate_iff.mp hn), read_pure]

/-- Half of a surrogate pair is passed over as if it were a character. -/
theorem read_codePoint_skipping {a b c d : Char} {n : Nat} (h : fourHex? a b c d = some n)
    (hn : IsSurrogate n) (rest : List Char) :
    (codePoint true).read (a :: b :: c :: d :: rest) = .ok ('\x00', rest) := by
  have hrange : ¬ (n < 0xD800 ∨ 0xDFFF < n) := fun h => isSurrogate_iff.mpr h hn
  rw [codePoint, read_bind_of_ok (read_fourHex h rest), if_neg hrange, if_pos rfl, read_pure]

/-- The two codes of a surrogate pair are one character. -/
theorem read_codePoint_pair {a b c d a' b' c' d' : Char} {high low : Nat}
    (hhigh : fourHex? a b c d = some high) (hIsHigh : IsHigh high)
    (hlow : fourHex? a' b' c' d' = some low) (hIsLow : IsLow low) (rest : List Char) :
    (codePoint false).read (a :: b :: c :: d :: '\\' :: 'u' :: a' :: b' :: c' :: d' :: rest) =
      .ok (Char.ofNat (0x10000 + (high - 0xD800) * 0x400 + (low - 0xDC00)), rest) := by
  obtain ⟨hleast, hless⟩ := hIsHigh
  have hrange : ¬ (high < 0xD800 ∨ 0xDFFF < high) := by omega
  have hfirst : ¬ 0xDC00 ≤ high := by omega
  rw [codePoint, read_bind_of_ok (read_fourHex hhigh _), if_neg hrange,
    if_neg Bool.false_ne_true, if_neg hfirst, read_bind_of_ok (read_symbol_cons _ _),
    read_bind_of_ok (read_symbol_cons _ _), read_bind_of_ok (read_fourHex hlow _),
    if_pos (show 0xDC00 ≤ low ∧ low ≤ 0xDFFF from hIsLow), read_pure]

/-- An escape with a code is read as its code. -/
theorem stringFrom_code {skipping : Bool} {s rest : List Char} {c : Char}
    (h : (codePoint skipping).read s = .ok (c, rest)) (taken : List Char) :
    stringFrom skipping taken ('\\' :: 'u' :: s) = stringFrom skipping (c :: taken) rest := by
  have hread : (escaped skipping).read ('u' :: s) = .ok (c, rest) := by
    simp only [escaped, if_true, h]
  rw [stringFrom_cons, if_neg (by decide), if_pos rfl]
  simp only [hread]

theorem stringFrom_plain (skipping : Bool) {c : Char} (hquote : c ≠ '\"') (hslash : c ≠ '\\')
    (hc : ' ' ≤ c) (taken rest : List Char) :
    stringFrom skipping taken (c :: rest) = stringFrom skipping (c :: taken) rest := by
  rw [stringFrom_cons, if_neg hquote, if_neg hslash, if_neg (Char.not_lt.mpr hc)]

theorem ne_of_shortEscape? {e c : Char} (h : shortEscape? e = some c) : e ≠ 'u' := by
  rintro rfl
  cases h

/-- A character of a string is taken from any of its spellings. -/
theorem stringFrom_character {c : Char} {s rest : List Char} (h : Character c s rest)
    (taken : List Char) : stringFrom false taken s = stringFrom false (c :: taken) rest := by
  cases h with
  | plain hquote hslash hc => exact stringFrom_plain false hquote hslash hc taken rest
  | short he => exact stringFrom_shortEscape he (ne_of_shortEscape? he) taken rest
  | code hcode hn =>
    cases hcode with
    | digits hdigits => exact stringFrom_code (read_codePoint false hdigits hn rest) taken
  | pair hhigh hIsHigh hlow hIsLow =>
    cases hhigh with
    | digits hhigh =>
      cases hlow with
      | digits hlow =>
        exact stringFrom_code (read_codePoint_pair hhigh hIsHigh hlow hIsLow rest) taken

theorem stringFrom_characters {cs s rest : List Char} (h : characters cs s rest)
    (taken : List Char) :
    stringFrom false taken s = stringFrom false (cs.reverse ++ taken) rest := by
  induction cs generalizing s taken with
  | nil =>
    obtain rfl : s = rest := h
    rfl
  | cons c cs ih =>
    obtain ⟨between, hc, hcs⟩ := h
    rw [stringFrom_character hc, ih hcs, List.reverse_cons, List.append_assoc,
      List.singleton_append]

/-- Half of a surrogate pair is refused where its other half does not follow. -/
theorem exists_codePoint_half {a b c d : Char} {n : Nat} (h : fourHex? a b c d = some n)
    {rest : List Char}
    (hn : IsLow n ∨ IsHigh n ∧ ∀ low rest', Code low rest rest' → ¬ IsLow low) :
    ∃ e, (codePoint false).read (a :: b :: c :: d :: rest) = .error e := by
  have hrange : ¬ (n < 0xD800 ∨ 0xDFFF < n) := by
    unfold IsLow IsHigh at hn
    omega
  rw [codePoint, read_bind_of_ok (read_fourHex h rest), if_neg hrange, if_neg Bool.false_ne_true]
  rcases hn with hlow | ⟨hhigh, hfollows⟩
  · rw [if_pos hlow.1]
    exact ⟨_, rfl⟩
  · rw [if_neg (Nat.not_le_of_lt hhigh.2), read_bind]
    cases hslash : (symbol '\\').read rest with
    | error e => exact ⟨e, rfl⟩
    | ok x =>
      obtain ⟨u, rest₁⟩ := x
      simp only
      rw [read_bind]
      cases hletter : (symbol 'u').read rest₁ with
      | error e => exact ⟨e, rfl⟩
      | ok x =>
        obtain ⟨u', rest₂⟩ := x
        simp only
        rw [read_bind]
        cases hfour : fourHex.read rest₂ with
        | error e => exact ⟨e, rfl⟩
        | ok x =>
          obtain ⟨low, rest₃⟩ := x
          have hcode := code_of_read_fourHex hfour
          rw [← eq_cons_of_read_symbol hletter, ← eq_cons_of_read_symbol hslash] at hcode
          have hnot : ¬ (0xDC00 ≤ low ∧ low ≤ 0xDFFF) := hfollows low rest₃ hcode
          simp only [if_neg hnot]
          exact ⟨_, rfl⟩

theorem exists_stringFrom_half {s rest : List Char} (h : Half s rest) (taken : List Char) :
    ∃ e, stringFrom false taken s = .error e := by
  have hcode : ∃ a b c d between, s = '\\' :: 'u' :: a :: b :: c :: d :: between ∧
      ∃ e, (codePoint false).read (a :: b :: c :: d :: between) = .error e := by
    cases h with
    | low hcode hlow =>
      cases hcode with
      | digits hdigits => exact ⟨_, _, _, _, _, rfl, exists_codePoint_half hdigits (.inl hlow)⟩
    | high hcode hhigh hfollows =>
      cases hcode with
      | digits hdigits =>
        exact ⟨_, _, _, _, _, rfl, exists_codePoint_half hdigits (.inr ⟨hhigh, hfollows⟩)⟩
  obtain ⟨a, b, c, d, between, rfl, e, he⟩ := hcode
  have hread : (escaped false).read ('u' :: a :: b :: c :: d :: between) = .error e := by
    simp only [escaped, if_true, he]
  refine ⟨e, ?_⟩
  rw [stringFrom_cons, if_neg (by decide), if_pos rfl]
  simp only [hread]

/-- What stands between the quotes of a string is its text, or an error. -/
theorem gives_stringFrom {text : Option String} {s rest : List Char}
    (h : Content text s ('\"' :: rest)) : Gives (stringFrom false [] s) text rest := by
  cases h with
  | @text t _ _ h =>
    rw [gives_some, stringFrom_characters h, stringFrom_cons, if_pos rfl, List.append_nil,
      List.reverse_reverse, String.ofList_toList]
  | broken h hhalf _ =>
    rw [gives_none, stringFrom_characters h]
    exact exists_stringFrom_half hhalf _

/-- A string between its quotes is taken, or refused if it has no text. -/
theorem gives_quoted {text : Option String} {s rest : List Char}
    (h : ((Content text).followedBy (exactly ['\"'])) s rest) :
    Gives ((quoted false).read ('\"' :: s)) text rest := by
  obtain ⟨between, hcontent, rfl⟩ := h
  have hread : (quoted false).read ('\"' :: s) = stringFrom false [] s := by
    rw [quoted, read_bind_of_ok (read_symbol_cons _ _)]
  rw [hread]
  exact gives_stringFrom hcontent

/-! ### Skipped strings -/

/-- Where content is skipped, the two halves of a surrogate pair are two characters. -/
theorem exists_stringFrom_character {c : Char} {s rest : List Char} (h : Character c s rest)
    (taken : List Char) : ∃ taken', stringFrom true taken s = stringFrom true taken' rest := by
  cases h with
  | plain hquote hslash hc => exact ⟨_, stringFrom_plain true hquote hslash hc taken rest⟩
  | @short e c _ he =>
    have hread : (escaped true).read (e :: rest) = .ok (c, rest) := by
      simp only [escaped, if_neg (ne_of_shortEscape? he), he]
    refine ⟨c :: taken, ?_⟩
    rw [stringFrom_cons, if_neg (by decide), if_pos rfl]
    simp only [hread]
  | code hcode hn =>
    cases hcode with
    | digits hdigits => exact ⟨_, stringFrom_code (read_codePoint true hdigits hn rest) taken⟩
  | pair hhigh hIsHigh hlow hIsLow =>
    have hhigh' : IsSurrogate _ := ⟨hIsHigh.1, by have := hIsHigh.2; omega⟩
    have hlow' : IsSurrogate _ := ⟨by have := hIsLow.1; omega, hIsLow.2⟩
    cases hhigh with
    | digits hhigh =>
      cases hlow with
      | digits hlow =>
        refine ⟨'\x00' :: '\x00' :: taken, ?_⟩
        rw [stringFrom_code (read_codePoint_skipping hhigh hhigh' _),
          stringFrom_code (read_codePoint_skipping hlow hlow' _)]

theorem exists_stringFrom_pieces {s between : List Char} (h : Pieces s between)
    {rest : List Char} (hbetween : between = '\"' :: rest) (taken : List Char) :
    ∃ t, stringFrom true taken s = .ok (t, rest) := by
  induction h generalizing taken with
  | none =>
    subst hbetween
    rw [stringFrom_cons, if_pos rfl]
    exact ⟨_, rfl⟩
  | character hc _ ih =>
    obtain ⟨taken', htaken⟩ := exists_stringFrom_character hc taken
    rw [htaken]
    exact ih hbetween taken'
  | surrogate hcode hn _ ih =>
    cases hcode with
    | digits hdigits =>
      rw [stringFrom_code (read_codePoint_skipping hdigits hn _)]
      exact ih hbetween _

theorem pieces_of_characters {cs s between rest : List Char} (h : characters cs s between)
    (hrest : Pieces between rest) : Pieces s rest := by
  induction cs generalizing s with
  | nil =>
    obtain rfl : s = between := h
    exact hrest
  | cons c cs ih =>
    obtain ⟨between', hc, hcs⟩ := h
    exact .character hc (ih hcs)

theorem pieces_of_content {text : Option String} {s rest : List Char} (h : Content text s rest) :
    Pieces s rest := by
  cases h with
  | text h => exact pieces_of_characters h .none
  | broken h hhalf hpieces =>
    refine pieces_of_characters h ?_
    cases hhalf with
    | low hcode hlow =>
      exact .surrogate hcode ⟨by have := hlow.1; omega, hlow.2⟩ hpieces
    | high hcode hhigh _ =>
      exact .surrogate hcode ⟨hhigh.1, by have := hhigh.2; omega⟩ hpieces

/-- A string that nobody asks for is passed over, whatever stands in it. -/
theorem exists_read_quoted {text : Option String} {s rest : List Char}
    (h : ((Content text).followedBy (exactly ['\"'])) s rest) :
    ∃ t, (quoted true).read ('\"' :: s) = .ok (t, rest) := by
  obtain ⟨between, hcontent, rfl⟩ := h
  rw [quoted, read_bind_of_ok (read_symbol_cons _ _)]
  exact exists_stringFrom_pieces (pieces_of_content hcontent) rfl []

/-! ### Names of members -/

/-- A spelled string is a quote behind blanks, and what stands up to the closing one. -/
theorem exists_of_string {text : Option String} {s rest : List Char}
    (h : Spelling.string text s rest) :
    ∃ t, Blanks s ('\"' :: t) ∧ ((Content text).followedBy (exactly ['\"'])) t rest := by
  obtain ⟨t, hmark, hcontent⟩ := h
  exact ⟨t, blanks_of_mark hmark, hcontent⟩

theorem gives_key {text : Option String} {s rest : List Char} (h : Spelling.string text s rest) :
    Gives ((key false).read s) text rest := by
  obtain ⟨t, hblanks, hcontent⟩ := exists_of_string h
  rw [key, read_onNext_of_blanks hblanks (by decide), if_pos rfl]
  exact gives_quoted hcontent

theorem exists_read_key {text : Option String} {s rest : List Char}
    (h : Spelling.string text s rest) : ∃ t, (key true).read s = .ok (t, rest) := by
  obtain ⟨t, hblanks, hcontent⟩ := exists_of_string h
  rw [key, read_onNext_of_blanks hblanks (by decide), if_pos rfl]
  exact exists_read_quoted hcontent

/-! ## Numbers -/

theorem stops_of_exponent {e : Option Int} {s rest : List Char} (h : Exponent e s rest)
    {starts : Char → Bool} (hsmall : starts 'e' = false) (hlarge : starts 'E' = false)
    (hrest : Stops starts rest) : Stops starts s := by
  cases h with
  | none => exact hrest
  | digits hmark _ _ =>
    refine stops_cons ?_ _
    rcases hmark with rfl | rfl <;> assumption

/-- An exponent is taken from any of its spellings. -/
theorem read_optional_exponent_of_spelled (skipping : Bool) {e : Option Int} {s rest : List Char}
    (h : Exponent e s rest) (hmark : Stops (fun c => c == 'e' || c == 'E') rest)
    (hdigit : Stops Char.isDigit rest) :
    (optional (fun c => c == 'e' || c == 'E') (exponent skipping)).read s = .ok (e, rest) := by
  cases h with
  | none => exact read_optional_of_stops hmark _
  | @digits letter sign ds _ hletter hsign hds =>
    have hdigits := read_someDigits skipping hds hdigit
    have hread : (optional (fun c => c == '+' || c == '-') next).read
        (sign.toList ++ (ds ++ rest)) = .ok (sign, ds ++ rest) := by
      cases sign with
      | none =>
        obtain ⟨c, cs, rfl, hc⟩ := hds.exists_cons
        refine read_optional_of_stops (stops_cons ?_ _) next
        have hplus : c ≠ '+' := by rintro rfl; exact absurd hc (by decide)
        have hminus : c ≠ '-' := by rintro rfl; exact absurd hc (by decide)
        simp [hplus, hminus]
      | some c =>
        have hc : (c == '+' || c == '-') = true := by simpa using hsign c rfl
        exact (read_optional_cons hc next _).trans rfl
    rw [read_optional_cons (by simpa using hletter)]
    refine read_map_of_ok ?_ some
    rw [exponent, read_bind_of_ok (read_next_cons _ _), read_bind_of_ok hread,
      read_bind_of_ok hdigits, read_pure]

/-- The parts of a number are taken from any of its spellings, also where it is skipped. -/
theorem read_numeral (skipping : Bool) {n : Numeral} {s rest : List Char}
    (h : Spelling.Number n s rest) (hrest : Delimits rest) :
    (numeral skipping).read s = .ok (n, rest) := by
  cases h with
  | parts hproper hexponent =>
    have hdigit : Stops Char.isDigit rest := hrest.stops _ (forall_isBlank (by decide))
      (by decide) (by decide) (by decide)
    have hpoint : Stops (· == '.') rest := hrest.stops _ (forall_isBlank (by decide))
      (by decide) (by decide) (by decide)
    have hmark : Stops (fun c => c == 'e' || c == 'E') rest :=
      hrest.stops _ (forall_isBlank (by decide)) (by decide) (by decide) (by decide)
    exact read_numeral_of_exponent skipping hproper
      (stops_of_exponent hexponent (by decide) (by decide) hpoint)
      (stops_of_exponent hexponent (by decide) (by decide) hdigit)
      (read_optional_exponent_of_spelled skipping hexponent hmark hdigit)

/-- A number starts with a digit or a minus sign. -/
theorem exists_cons_of_number {n : Numeral} {s rest : List Char} (h : Spelling.Number n s rest) :
    ∃ c t, s = c :: t ∧ (c = '-' ∨ c.isDigit = true) := by
  cases h with
  | parts hproper _ =>
    obtain ⟨d, ds, hwhole, hd⟩ := hproper.whole.exists_cons
    cases hnegative : n.negative with
    | false =>
      rw [hwhole]
      exact ⟨d, _, rfl, Or.inr hd⟩
    | true => exact ⟨'-', _, rfl, Or.inl rfl⟩

/-! ## First tokens -/

namespace Document

/-- The first token of a document; there is none for a string without a text and for a number past
the largest. -/
def first? : Document → Option Token
  | null => some .null
  | boolean b => some (.boolean b)
  | number n => n.token?
  | string text => text.map .string
  | array _ => some .array
  | object _ => some .object

/-- What stands behind the first token of a document. -/
def behindFirst : Document → Spelling
  | array items => Spelling.inside ']' (items.map Spelled)
  | object members => Spelling.inside '\x7d' (members.map fun m => Spelling.member m.1 m.2.Spelled)
  | _ => exactly []

/-- A document may start with the character. -/
def Starts : Document → Char → Prop
  | null, c => c = 'n'
  | boolean true, c => c = 't'
  | boolean false, c => c = 'f'
  | number _, c => c = '-' ∨ c.isDigit = true
  | string _, c => c = '\"'
  | array _, c => c = '['
  | object _, c => c = '\x7b'

/-- A document cannot start with a character that no document starts with. -/
theorem Starts.ne {d : Document} {c : Char} (h : d.Starts c) {x : Char}
    (hx : ∀ w ∈ ['n', 't', 'f', '-', '\"', '[', '\x7b'], x ≠ w) (hdigit : x.isDigit = false) :
    c ≠ x := by
  rintro rfl
  have hminus : c ≠ '-' := hx '-' (by simp)
  cases d with
  | null => exact hx 'n' (by simp) h
  | boolean b =>
    cases b with
    | true => exact hx 't' (by simp) h
    | false => exact hx 'f' (by simp) h
  | number n => exact ne_of_numeric h hminus hdigit rfl
  | string text => exact hx '\"' (by simp) h
  | array items => exact hx '[' (by simp) h
  | object members => exact hx '\x7b' (by simp) h

/-- Only null starts with its first letter. -/
theorem Starts.eq_null {d : Document} (h : d.Starts 'n') : d = null := by
  cases d with
  | null => rfl
  | boolean b => cases b <;> simp [Starts] at h
  | number n => exact absurd rfl (ne_of_numeric h (by decide) (by decide))
  | string text => simp [Starts] at h
  | array items => simp [Starts] at h
  | object members => simp [Starts] at h

/-- Only a string starts with a quote. -/
theorem Starts.exists_string {d : Document} (h : d.Starts '\"') : ∃ text, d = string text := by
  cases d with
  | string text => exact ⟨text, rfl⟩
  | boolean b => cases b <;> simp [Starts] at h
  | number n => exact absurd rfl (ne_of_numeric h (by decide) (by decide))
  | null => simp [Starts] at h
  | array items => simp [Starts] at h
  | object members => simp [Starts] at h

/-- Only an object starts with the bracket of one. -/
theorem Starts.exists_object {d : Document} (h : d.Starts '\x7b') :
    ∃ members, d = object members := by
  cases d with
  | object members => exact ⟨members, rfl⟩
  | boolean b => cases b <;> simp [Starts] at h
  | number n => exact absurd rfl (ne_of_numeric h (by decide) (by decide))
  | null => simp [Starts] at h
  | string text => simp [Starts] at h
  | array items => simp [Starts] at h

theorem Starts.isBlank {d : Document} {c : Char} (h : d.Starts c) : isBlank c = false := by
  rw [Bool.eq_false_iff]
  intro hc
  rcases isBlank_iff.mp hc with rfl | rfl | rfl | rfl
  all_goals exact h.ne (by simp) (by decide) rfl

/-- Behind the blanks in front of it, a document is spelled by the rest of the text. -/
theorem exists_cons_of_spelled {d : Document} {s rest : List Char} (h : d.Spelled s rest) :
    ∃ c t, Blanks s (c :: t) ∧ d.Starts c ∧ d.Spelled (c :: t) rest := by
  cases d with
  | null =>
    rw [Spelled] at *
    obtain ⟨t, hs, rfl⟩ := h
    exact ⟨_, _, hs, rfl, _, .none, rfl⟩
  | boolean b =>
    cases b with
    | true =>
      rw [Spelled] at *
      obtain ⟨t, hs, rfl⟩ := h
      exact ⟨_, _, hs, rfl, _, .none, rfl⟩
    | false =>
      rw [Spelled] at *
      obtain ⟨t, hs, rfl⟩ := h
      exact ⟨_, _, hs, rfl, _, .none, rfl⟩
  | number n =>
    rw [Spelled] at *
    obtain ⟨t, hs, hn⟩ := h
    obtain ⟨c, t, rfl, hc⟩ := exists_cons_of_number hn
    exact ⟨c, t, hs, hc, _, .none, hn⟩
  | string text =>
    rw [Spelled] at *
    obtain ⟨t, ⟨t', hs, rfl⟩, hcontent⟩ := h
    exact ⟨_, _, hs, rfl, t, ⟨_, .none, rfl⟩, hcontent⟩
  | array items =>
    rw [Spelled] at *
    obtain ⟨t, ⟨t', hs, rfl⟩, hitems⟩ := h
    exact ⟨_, _, hs, rfl, t, ⟨_, .none, rfl⟩, hitems⟩
  | object members =>
    rw [Spelled] at *
    obtain ⟨t, ⟨t', hs, rfl⟩, hmembers⟩ := h
    exact ⟨_, _, hs, rfl, t, ⟨_, .none, rfl⟩, hmembers⟩

/-- The first token of a document is taken from any of its spellings. -/
theorem gives_first {d : Document} {s rest : List Char} (h : d.Spelled s rest)
    (hrest : Delimits rest) :
    ∃ between, d.behindFirst between rest ∧ Gives (token.read s) d.first? between := by
  cases d with
  | null =>
    rw [Spelled] at h
    obtain ⟨t, hs, rfl⟩ := h
    refine ⟨rest, rfl, ?_⟩
    rw [first?, gives_some, token, read_onNext_of_blanks hs (by decide)]
    exact read_map_of_ok (read_word ['n', 'u', 'l', 'l'] rest) _
  | boolean b =>
    cases b with
    | true =>
      rw [Spelled] at h
      obtain ⟨t, hs, rfl⟩ := h
      refine ⟨rest, rfl, ?_⟩
      rw [first?, gives_some, token, read_onNext_of_blanks hs (by decide)]
      exact read_map_of_ok (read_word ['t', 'r', 'u', 'e'] rest) _
    | false =>
      rw [Spelled] at h
      obtain ⟨t, hs, rfl⟩ := h
      refine ⟨rest, rfl, ?_⟩
      rw [first?, gives_some, token, read_onNext_of_blanks hs (by decide)]
      exact read_map_of_ok (read_word ['f', 'a', 'l', 's', 'e'] rest) _
  | number n =>
    rw [Spelled] at h
    obtain ⟨t, hs, hn⟩ := h
    obtain ⟨c, t, rfl, hc⟩ := exists_cons_of_number hn
    have htoken : token.read s = Reader.number.read (c :: t) := by
      rw [← read_token_of_numeric hc, token, read_onNext_of_blanks hs (isBlank_numeric hc),
        read_onNext_cons (isBlank_numeric hc)]
    refine ⟨rest, rfl, ?_⟩
    rw [htoken, Reader.number, read_bind_of_ok (read_numeral false hn hrest), first?]
    cases n.token? with
    | none => exact ⟨.malformed, rfl⟩
    | some t => exact rfl
  | string text =>
    rw [Spelled] at h
    obtain ⟨t, hs, hcontent⟩ := exists_of_string h
    refine ⟨rest, rfl, ?_⟩
    rw [first?, token, read_onNext_of_blanks hs (by decide)]
    exact (gives_quoted hcontent).map Token.string
  | array items =>
    rw [Spelled, spelledItems_eq_map] at h
    obtain ⟨t, hmark, hitems⟩ := h
    refine ⟨t, hitems, ?_⟩
    rw [first?, gives_some, token, read_onNext_of_blanks (blanks_of_mark hmark) (by decide)]
    rfl
  | object members =>
    rw [Spelled, spelledMembers_eq_map] at h
    obtain ⟨t, hmark, hmembers⟩ := h
    refine ⟨t, hmembers, ?_⟩
    rw [first?, gives_some, token, read_onNext_of_blanks (blanks_of_mark hmark) (by decide)]
    rfl

/-- What is made of a document by its first token is made of what stands behind this token. -/
theorem takes_token_bind {d : Document} {f : Token → Reader α} {g : Token → Option α}
    (h : ∀ t, d.first? = some t → Takes (f t) d.behindFirst (g t)) :
    Takes (token >>= f) d.Spelled (d.first?.bind g) := by
  intro s rest hs hrest
  obtain ⟨between, hbetween, hfirst⟩ := gives_first hs hrest
  exact hfirst.bind fun t ht => h t ht between rest hbetween hrest

end Document

/-! ## What is made without further text -/

theorem takes_pure (a : α) : Takes (pure a) (exactly []) (some a) := by
  intro s rest hs _
  obtain rfl : s = rest := hs
  rfl

/-- What is refused by its first token is refused whatever stands behind it. -/
theorem takes_fail (e : ReadError) (p : Spelling) : Takes (fail e : Reader α) p none :=
  fun _ _ _ _ => ⟨e, rfl⟩

theorem takes_mismatched (m : Mismatch) (p : Spelling) :
    Takes (mismatched m : Reader α) p none := takes_fail _ p

/-! ## Items of brackets -/

/-- Behind blanks, a text starts with a character that ends no bracket, and the blanks may be left
out. -/
def Opens (p : Spelling) : Prop :=
  ∀ s rest, p s rest → ∃ c t, Blanks s (c :: t) ∧ isBlank c = false ∧ c ≠ ']' ∧ c ≠ '\x7d' ∧
    p (c :: t) rest

theorem opens_spelled (d : Document) : Opens d.Spelled := by
  intro s rest h
  obtain ⟨c, t, hs, hc, ht⟩ := Document.exists_cons_of_spelled h
  exact ⟨c, t, hs, hc.isBlank, hc.ne (by simp) rfl, hc.ne (by simp) rfl, ht⟩

theorem opens_member (name : Option String) (p : Spelling) : Opens (Spelling.member name p) := by
  intro s rest h
  obtain ⟨between, ⟨t, ⟨u, hs, rfl⟩, hcontent⟩, hvalue⟩ := h
  exact ⟨'\"', t, hs, by decide, by decide, by decide, between, ⟨t, ⟨_, .none, rfl⟩, hcontent⟩,
    hvalue⟩

theorem delimits_of_mark {c : Char} (hc : c = ',' ∨ c = ']' ∨ c = '\x7d') {s rest : List Char}
    (h : Spelling.mark c s rest) : Delimits s :=
  delimits_of_blanks (blanks_of_mark h) (delimits_cons (Or.inr hc) rest)

/-- What stands behind an item of a bracket may follow a value. -/
theorem delimits_of_behind {close : Char} (hclose : close = ']' ∨ close = '\x7d')
    {ps : List Spelling} {s rest : List Char} (h : Spelling.behind close ps s rest) :
    Delimits s := by
  cases ps with
  | nil => exact delimits_of_mark (Or.inr hclose) h
  | cons p ps =>
    obtain ⟨between, hcomma, -⟩ := h
    exact delimits_of_mark (Or.inl rfl) hcomma

end RecordFilter.Json
