import RecordFilter.Proofs.Json.Accuracy
import RecordFilter.Proofs.Json.Written
import RecordFilter.Proofs.Value.Document

/-!
# What values are read from a text

A value is read from any spelling of a document that holds neither null nor an object, at any level,
and it is the image of the document, item by item (`Image`).  An integer of 64 bits is read as
itself.  Any other number is approximated: it is the nearest one if the numeral is short, but in
general it may be next to the nearest one, since powers of ten are rounded before they are used
(`ofText_not_nearest`).  A document that holds null or an object is refused as a whole, because none
of the forms of a value takes it.

The text is read as JSON first, which succeeds for every document that keeps to the limits
(`exists_json?`), so it is only the form of the document that decides.

* `isProper_of_spelled`: the numbers of a document that is spelled are proper numerals.
* `exists_value?_iff`: the documents that stand for a value.
* `image_of_value?`: the value that a document stands for is its image.
* `ofText_spelled`: what becomes of a text.
-/

namespace RecordFilter.Json.Document

/-! ## The parts of a document -/

mutual

/-- The document holds neither null nor an object, at any level. -/
def isPlain : Document → Bool
  | null => false
  | array items => arePlain items
  | object _ => false
  | _ => true

/-- The documents hold neither null nor an object, at any level. -/
def arePlain : List Document → Bool
  | [] => true
  | d :: ds => d.isPlain && arePlain ds

end

mutual

/-- The numbers of a document, at all levels. -/
def numbers : Document → List Numeral
  | number n => [n]
  | array items => itemNumbers items
  | object members => memberNumbers members
  | _ => []

/-- The numbers of the items of an array, at all levels. -/
def itemNumbers : List Document → List Numeral
  | [] => []
  | d :: ds => d.numbers ++ itemNumbers ds

/-- The numbers of the members of an object, at all levels. -/
def memberNumbers : List (Option String × Document) → List Numeral
  | [] => []
  | (_, d) :: ms => d.numbers ++ memberNumbers ms

end

mutual

/-- The strings of a document, at all levels, with the names of members. -/
def strings : Document → List (Option String)
  | string text => [text]
  | array items => itemStrings items
  | object members => memberStrings members
  | _ => []

/-- The strings of the items of an array, at all levels. -/
def itemStrings : List Document → List (Option String)
  | [] => []
  | d :: ds => d.strings ++ itemStrings ds

/-- The strings of the members of an object, at all levels, with their names. -/
def memberStrings : List (Option String × Document) → List (Option String)
  | [] => []
  | (name, d) :: ms => name :: d.strings ++ memberStrings ms

end

/-! ## Numbers that are spelled -/

mutual

/-- The numbers of a document that is spelled are proper numerals. -/
theorem isProper_of_spelled : ∀ (d : Document) {s rest : List Char}, d.Spelled s rest →
    ∀ n ∈ d.numbers, n.IsProper
  | null, _, _, _, n, hn => nomatch hn
  | boolean _, _, _, _, n, hn => nomatch hn
  | string _, _, _, _, n, hn => nomatch hn
  | number k, s, rest, hs, n, hn => by
    rw [Spelled] at hs
    rw [numbers, List.mem_singleton] at hn
    subst hn
    obtain ⟨_, -, hnumber⟩ := hs
    cases hnumber with
    | parts hproper => exact hproper
  | array [], _, _, _, n, hn => nomatch hn
  | array (d :: ds), s, rest, hs, n, hn => by
    rw [Spelled, spelledItems] at hs
    rw [numbers, itemNumbers, List.mem_append] at hn
    obtain ⟨_, -, _, hd, hds⟩ := hs
    exact hn.elim (isProper_of_spelled d hd n) (isProper_of_spelledItems ds hds n)
  | object [], _, _, _, n, hn => nomatch hn
  | object ((name, d) :: ms), s, rest, hs, n, hn => by
    rw [Spelled, spelledMembers] at hs
    rw [numbers, memberNumbers, List.mem_append] at hn
    obtain ⟨_, -, _, ⟨_, -, _, -, hd⟩, hms⟩ := hs
    exact hn.elim (isProper_of_spelled d hd n) (isProper_of_spelledMembers ms hms n)

theorem isProper_of_spelledItems : ∀ (ds : List Document) {s rest : List Char},
    Spelling.behind ']' (spelledItems ds) s rest → ∀ n ∈ itemNumbers ds, n.IsProper
  | [], _, _, _, n, hn => nomatch hn
  | d :: ds, s, rest, hs, n, hn => by
    rw [spelledItems] at hs
    rw [itemNumbers, List.mem_append] at hn
    obtain ⟨_, -, _, hd, hds⟩ := hs
    exact hn.elim (isProper_of_spelled d hd n) (isProper_of_spelledItems ds hds n)

theorem isProper_of_spelledMembers : ∀ (ms : List (Option String × Document)) {s rest : List Char},
    Spelling.behind '\x7d' (spelledMembers ms) s rest → ∀ n ∈ memberNumbers ms, n.IsProper
  | [], _, _, _, n, hn => nomatch hn
  | (name, d) :: ms, s, rest, hs, n, hn => by
    rw [spelledMembers] at hs
    rw [memberNumbers, List.mem_append] at hn
    obtain ⟨_, -, _, ⟨_, -, _, -, hd⟩, hms⟩ := hs
    exact hn.elim (isProper_of_spelled d hd n) (isProper_of_spelledMembers ms hms n)

end

/-! ## The JSON of a document -/

mutual

/-- A document is JSON if its brackets do not nest too deep, its strings are texts and its numbers
are taken. -/
theorem exists_json? : ∀ (d : Document) (n : Nat), d.depth ≤ n → none ∉ d.strings →
    (∀ k ∈ d.numbers, ∃ t, k.token? = some t) → ∃ j, json? n d = some j
  | null, n, _, _, _ => ⟨.null, by cases n <;> rfl⟩
  | boolean b, n, _, _, _ => ⟨.boolean b, by cases n <;> rfl⟩
  | string none, n, _, htexts, _ => absurd (List.mem_singleton_self none) htexts
  | string (some t), n, _, _, _ => ⟨.string t, by cases n <;> rfl⟩
  | number k, n, _, _, hnumbers => by
    obtain ⟨t, ht⟩ := hnumbers k (List.mem_singleton_self k)
    have hscalar : ∃ j, t.scalar? = some j := by
      rcases first?_number ht with ⟨i, rfl⟩ | ⟨x, rfl⟩
      · exact ⟨_, rfl⟩
      · exact ⟨_, rfl⟩
    have hjson : json? n (number k) = k.token?.bind Token.scalar? := by cases n <;> rfl
    rw [hjson, ht]
    exact hscalar
  | array items, 0, hdepth, _, _ => absurd hdepth (by rw [depth]; omega)
  | array items, n + 1, hdepth, htexts, hnumbers => by
    rw [depth] at hdepth
    obtain ⟨js, hjs⟩ := exists_jsons? items n (Nat.le_of_succ_le_succ hdepth) htexts hnumbers
    have hjson : json? (n + 1) (array items) = (items.mapM (json? n)).map .array := rfl
    rw [hjson, hjs]
    exact ⟨_, rfl⟩
  | object members, 0, hdepth, _, _ => absurd hdepth (by rw [depth]; omega)
  | object members, n + 1, hdepth, htexts, hnumbers => by
    rw [depth] at hdepth
    obtain ⟨js, hjs⟩ := exists_pairs? members n (Nat.le_of_succ_le_succ hdepth) htexts hnumbers
    have hjson : json? (n + 1) (object members) =
        (members.mapM (pair? (json? n))).map .object := rfl
    rw [hjson, hjs]
    exact ⟨_, rfl⟩

theorem exists_jsons? : ∀ (ds : List Document) (n : Nat), depths ds ≤ n →
    none ∉ itemStrings ds → (∀ k ∈ itemNumbers ds, ∃ t, k.token? = some t) →
      ∃ js, ds.mapM (json? n) = some js
  | [], n, _, _, _ => ⟨[], rfl⟩
  | d :: ds, n, hdepth, htexts, hnumbers => by
    rw [depths, Nat.max_le] at hdepth
    rw [itemStrings, List.mem_append, not_or] at htexts
    rw [itemNumbers, List.forall_mem_append] at hnumbers
    obtain ⟨j, hj⟩ := exists_json? d n hdepth.1 htexts.1 hnumbers.1
    obtain ⟨js, hjs⟩ := exists_jsons? ds n hdepth.2 htexts.2 hnumbers.2
    rw [List.mapM_cons, hj, hjs]
    exact ⟨_, rfl⟩

theorem exists_pairs? : ∀ (ms : List (Option String × Document)) (n : Nat), memberDepths ms ≤ n →
    none ∉ memberStrings ms → (∀ k ∈ memberNumbers ms, ∃ t, k.token? = some t) →
      ∃ js, ms.mapM (pair? (json? n)) = some js
  | [], n, _, _, _ => ⟨[], rfl⟩
  | (none, d) :: ms, n, _, htexts, _ => absurd List.mem_cons_self htexts
  | (some name, d) :: ms, n, hdepth, htexts, hnumbers => by
    rw [memberDepths, Nat.max_le] at hdepth
    rw [memberStrings, List.cons_append, List.mem_cons, not_or, List.mem_append, not_or] at htexts
    rw [memberNumbers, List.forall_mem_append] at hnumbers
    obtain ⟨j, hj⟩ := exists_json? d n hdepth.1 htexts.2.1 hnumbers.1
    obtain ⟨js, hjs⟩ := exists_pairs? ms n hdepth.2 htexts.2.2 hnumbers.2
    have hpair : pair? (json? n) (some name, d) = some (name, j) := by
      rw [pair?, hj]
      rfl
    rw [List.mapM_cons, hpair, hjs]
    exact ⟨_, rfl⟩

end

/-! ## Documents that stand for a value -/

mutual

/-- A document stands for a value if it is plain, and only then. -/
theorem exists_value?_iff : ∀ (d : Document), none ∉ d.strings →
    (∀ k ∈ d.numbers, ∃ t, k.token? = some t) → ((∃ v, d.value? = some v) ↔ d.isPlain = true)
  | null, _, _ => by simp [value?, isPlain]
  | boolean b, _, _ => by simp [value?, isPlain]
  | string none, htexts, _ => absurd (List.mem_singleton_self none) htexts
  | string (some t), _, _ => by simp [value?, isPlain]
  | number k, _, hnumbers => by
    obtain ⟨t, ht⟩ := hnumbers k (List.mem_singleton_self k)
    obtain ⟨v, hv⟩ := Numeral.exists_value? ht
    simp [value?, isPlain, hv]
  | array items, htexts, hnumbers => by
    have hitems := exists_values?_iff items htexts hnumbers
    simpa [value?, isPlain] using hitems
  | object members, _, _ => by simp [value?, isPlain]

theorem exists_values?_iff : ∀ (ds : List Document), none ∉ itemStrings ds →
    (∀ k ∈ itemNumbers ds, ∃ t, k.token? = some t) →
      ((∃ vs, values? ds = some vs) ↔ arePlain ds = true)
  | [], _, _ => by simp [values?, arePlain]
  | d :: ds, htexts, hnumbers => by
    rw [itemStrings, List.mem_append, not_or] at htexts
    rw [itemNumbers, List.forall_mem_append] at hnumbers
    have hd := exists_value?_iff d htexts.1 hnumbers.1
    have hds := exists_values?_iff ds htexts.2 hnumbers.2
    rw [arePlain, Bool.and_eq_true, ← hd, ← hds, values?]
    constructor
    · rintro ⟨vs, hvs⟩
      obtain ⟨v, hv, hvs⟩ := Option.bind_eq_some_iff.mp hvs
      obtain ⟨vs', hvs', -⟩ := Option.map_eq_some_iff.mp hvs
      exact ⟨⟨v, hv⟩, vs', hvs'⟩
    · rintro ⟨⟨v, hv⟩, vs, hvs⟩
      exact ⟨v :: vs, by rw [hv, hvs]; rfl⟩

end

/-! ## Images -/

/-- A value is the image of a document: it is what the document looks like, item by item. -/
inductive Image : Document → Value → Prop
  | boolean (b : Bool) : Image (boolean b) (.boolean b)
  | string (t : String) : Image (string (some t)) (.string t)
  | integer {n : Numeral} {i : Int64} : n.Denotes i → Image (number n) (.integer i)
  | float {n : Numeral} {m : Binary64.Magnitude} : (∀ i, ¬ n.Denotes i) →
      Numeral.Approximates m n → Image (number n) (.float (.finite n.negative m))
  | list {ds : List Document} {vs : List Value} : List.Forall₂ Image ds vs →
      Image (array ds) (.list vs)

theorem image_number {n : Numeral} (h : n.IsProper) {v : Value} (hv : n.value? = some v) :
    Image (number n) v := by
  by_cases hi : ∃ i, n.Denotes i
  · obtain ⟨i, hi⟩ := hi
    obtain rfl := Option.some_inj.mp (hv.symm.trans (hi.value?_eq h))
    exact .integer hi
  · have hnot : ∀ i, ¬ n.Denotes i := not_exists.mp hi
    obtain ⟨m, rfl, hm⟩ := Numeral.approximates_of_value? h hnot hv
    exact .float hnot hm

mutual

/-- The value that a document stands for is its image. -/
theorem image_of_value? : ∀ (d : Document), (∀ n ∈ d.numbers, n.IsProper) → ∀ {v : Value},
    d.value? = some v → Image d v
  | null, _, v, hv => nomatch hv
  | boolean b, _, v, hv => by
    obtain rfl := Option.some_inj.mp hv
    exact .boolean b
  | string none, _, v, hv => nomatch hv
  | string (some t), _, v, hv => by
    obtain rfl := Option.some_inj.mp hv
    exact .string t
  | number n, hproper, v, hv => image_number (hproper n (List.mem_singleton_self n)) hv
  | array items, hproper, v, hv => by
    rw [value?] at hv
    obtain ⟨vs, hvs, rfl⟩ := Option.map_eq_some_iff.mp hv
    exact .list (image_of_values? items hproper hvs)
  | object _, _, v, hv => nomatch hv

theorem image_of_values? : ∀ (ds : List Document), (∀ n ∈ itemNumbers ds, n.IsProper) →
    ∀ {vs : List Value}, values? ds = some vs → List.Forall₂ Image ds vs
  | [], _, vs, hvs => by
    obtain rfl := Option.some_inj.mp hvs
    exact .nil
  | d :: ds, hproper, vs, hvs => by
    rw [itemNumbers, List.forall_mem_append] at hproper
    rw [values?] at hvs
    obtain ⟨v, hv, hvs⟩ := Option.bind_eq_some_iff.mp hvs
    obtain ⟨vs', hvs', rfl⟩ := Option.map_eq_some_iff.mp hvs
    exact .cons (image_of_value? d hproper.1 hv) (image_of_values? ds hproper.2 hvs')

end

end RecordFilter.Json.Document

namespace RecordFilter.Value

open Json (Document Numeral Spelling)
open Binary64 (Magnitude)

/-- A text that is JSON is the value with this JSON, or is refused for its form. -/
theorem ofText_of_json? {d : Document} {s : String} (hs : d.IsSpelledBy s) {j : Json}
    (hj : d.json? Json.Reader.bracketLimit = some j) :
    ofText s = match ofJson? j with
      | some v => .ok v
      | none => .error (.mismatch (.formless "Value")) := by
  obtain ⟨between, hd, hblanks⟩ := hs
  have hread := Document.takes_document Json.Reader.bracketLimit d _ between hd
    (Json.delimits_of_blanks hblanks Json.delimits_nil)
  rw [hj, Json.Reader.gives_some] at hread
  rw [ofText, Json.Reader.complete, reader, Json.Reader.read_bind_of_ok hread]
  cases ofJson? j with
  | none => rfl
  | some v =>
    have hnil : Json.Reader.skipBlanks between = [] := Json.skipBlanks_of_blanks hblanks
    simp only [Json.Reader.read_pure, hnil, if_true]

/-- **A value is read from a text as the image of what is spelled.**  Let the brackets of a document
nest at most 127 deep, its strings be texts, and its numbers fit.  Every spelling of the document is
read as a value if the document holds neither null nor an object, at any level, and is refused with
a mismatch otherwise.  The value is the image of the document: in particular, a number is the integer
that it is written as, if 64 bits hold it and it is not minus zero, and is approximated otherwise. -/
theorem ofText_spelled (d : Document) {s : String} (hs : d.IsSpelledBy s) (hdepth : d.depth ≤ 127)
    (htexts : none ∉ d.strings) (hnumbers : ∀ n ∈ d.numbers, n.Fits) :
    ((∃ v, ofText s = .ok v) ↔ d.isPlain = true) ∧
    (∀ v, ofText s = .ok v → d.Image v) ∧
    (d.isPlain = false → ofText s = .error (.mismatch (.formless "Value"))) := by
  change d.depth ≤ Json.Reader.bracketLimit at hdepth
  have hproper : ∀ n ∈ d.numbers, n.IsProper := by
    obtain ⟨between, hd, -⟩ := hs
    exact Document.isProper_of_spelled d hd
  have htokens : ∀ n ∈ d.numbers, ∃ t, n.token? = some t := fun n hn =>
    Numeral.exists_token? (hproper n hn) (hnumbers n hn)
  obtain ⟨j, hj⟩ := Document.exists_json? d Json.Reader.bracketLimit hdepth htexts htokens
  have hvalue : ofJson? j = d.value? := by
    have hbind := Document.bind_json? d Json.Reader.bracketLimit
    rwa [hj, Option.bind_some, Document.valueWithin?, if_pos hdepth] at hbind
  have hplain := Document.exists_value?_iff d htexts htokens
  rw [ofText_of_json? hs hj, hvalue]
  cases hv : d.value? with
  | none =>
    have hrefused : ¬ d.isPlain = true := by
      rw [← hplain, hv]
      simp
    simp [hrefused]
  | some v =>
    have hread : d.isPlain = true := hplain.mp ⟨v, hv⟩
    refine ⟨⟨fun _ => hread, fun _ => ⟨v, rfl⟩⟩, fun v' hv' => ?_, fun hnot => ?_⟩
    · rw [← Except.ok.inj hv']
      exact Document.image_of_value? d hproper hv
    · rw [hread] at hnot
      cases hnot

/-! ## Numbers that are not rounded to the nearest -/

/-- The magnitude that is nearest to `3e23`. -/
def nearestTo3e23 : Magnitude := ⟨8940696716308594, 1099, by decide⟩

/-- The magnitude below it. -/
def below3e23 : Magnitude := ⟨8940696716308593, 1099, by decide⟩

/-- **Not every number is read as the nearest one, and not every number in range is read.**  The
power of ten in `3e23` is rounded before it is used, so the number below the nearest one is read.
The number `1797693134862315708e290` is below the largest magnitude, but once its digits and its
power of ten are rounded, their product is rounded past it. -/
theorem ofText_not_nearest :
    ofText "3e23" = .ok (.float (.finite false below3e23)) ∧
      |nearestTo3e23.value - 3 * 10 ^ 23| < |below3e23.value - 3 * 10 ^ 23| ∧
    ofText "1797693134862315708e290" = .error .malformed ∧
      1797693134862315708 * tenTo 290 * Binary64.unitsInOne ≤ (Magnitude.top 0).units := by
  have hnear : nearestTo3e23.value = (8940696716308594 * 2 ^ 25 : Nat) :=
    Magnitude.value_eq_of_units (by decide +kernel)
  have hbelow : below3e23.value = (8940696716308593 * 2 ^ 25 : Nat) :=
    Magnitude.value_eq_of_units (by decide +kernel)
  refine ⟨Json.Reader.eq_ok_of_toOption (by decide +kernel), ?_, by decide +kernel,
    by decide +kernel⟩
  rw [hnear, hbelow]
  norm_num

/-! ### An instance -/

/-- A number and a string. -/
def mixed : Document := .array [.number ⟨false, ['3'], none, some 23⟩, .string (some "A")]

/-- The array with blanks, a sign in the exponent and an escape. -/
def mixedText : String := "[ 3E+23 ,\"\\u0041\"]\n"

theorem isSpelledBy_mixed : mixed.IsSpelledBy mixedText := by
  have htext : mixedText.toList = ['[', ' ', '3', 'E', '+', '2', '3', ' ', ',', '\"', '\\', 'u',
      '0', '0', '4', '1', '\"', ']', '\n'] := by
    decide +kernel
  have hexponent : ∀ rest, Spelling.Exponent (some 23) ('E' :: '+' :: '2' :: '3' :: rest) rest :=
    fun rest => @Spelling.Exponent.digits 'E' (some '+') ['2', '3'] rest (Or.inr rfl) (by simp)
      ⟨by simp, by simp⟩
  have hnumber : ∀ rest, Spelling.Number ⟨false, ['3'], none, some 23⟩
      ('3' :: 'E' :: '+' :: '2' :: '3' :: rest) rest := fun rest =>
    .parts ⟨⟨by simp, by simp⟩, fun _ => rfl, fun ds hds => nomatch hds⟩ (hexponent rest)
  have hcode : ∀ rest, Spelling.Code 65 ('\\' :: 'u' :: '0' :: '0' :: '4' :: '1' :: rest) rest :=
    fun rest => .digits (by decide)
  have hcharacter : ∀ rest, Spelling.Character 'A' ('\\' :: 'u' :: '0' :: '0' :: '4' :: '1' :: rest)
      rest := fun rest => .code (hcode rest) fun h => absurd h.1 (by decide)
  have hstring : ∀ rest, Spelling.string (some "A")
      ('\"' :: '\\' :: 'u' :: '0' :: '0' :: '4' :: '1' :: '\"' :: rest) rest := fun rest =>
    ⟨_, ⟨_, .none, rfl⟩, _, .text ⟨_, hcharacter _, rfl⟩, rfl⟩
  rw [mixed, Document.IsSpelledBy, htext, Document.Spelled]
  refine ⟨['\n'], ⟨_, ⟨_, .none, rfl⟩, _, ⟨_, .cons rfl .none, hnumber _⟩, ?_⟩, .cons rfl .none⟩
  exact ⟨_, ⟨_, .cons rfl .none, rfl⟩, _, hstring _, ⟨_, .none, rfl⟩⟩

theorem fits_mixed : ∀ n ∈ mixed.numbers, n.Fits := by
  intro n hn
  rw [List.mem_singleton.mp (show n ∈ [_] from hn)]
  exact Or.inr (Option.isSome_iff_exists.mp (by decide +kernel))

/-- An array with null, two brackets deep. -/
def holed : Document := .array [.array [.null]]

theorem isSpelledBy_holed : holed.IsSpelledBy "[[null]]" := by
  have htext : (Json.array [.array [.null]]).text .compact ++ "" = "[[null]]" := by decide +kernel
  rw [← htext]
  exact Json.isSpelledBy_text (v := .array [.array [.null]]) rfl .compact .none

/-- The first array is read, with its spelling undone, and the second one is refused. -/
theorem ofText_spelled_mixed :
    (mixed.IsSpelledBy mixedText ∧ mixed.depth ≤ 127 ∧ none ∉ mixed.strings ∧
      (∀ n ∈ mixed.numbers, n.Fits) ∧ ∃ v, ofText mixedText = .ok v ∧ mixed.Image v) ∧
    (holed.IsSpelledBy "[[null]]" ∧
      ofText "[[null]]" = .error (.mismatch (.formless "Value"))) := by
  obtain ⟨hread, himage, -⟩ := ofText_spelled mixed isSpelledBy_mixed (by decide) (by decide)
    fits_mixed
  obtain ⟨-, -, hrefused⟩ := ofText_spelled holed isSpelledBy_holed (by decide) (by decide)
    fun n hn => nomatch hn
  obtain ⟨v, hv⟩ := hread.mpr rfl
  exact ⟨⟨isSpelledBy_mixed, by decide, by decide, fits_mixed, v, hv, himage v hv⟩,
    isSpelledBy_holed, hrefused rfl⟩

end RecordFilter.Value
