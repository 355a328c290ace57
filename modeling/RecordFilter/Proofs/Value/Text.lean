import RecordFilter.Proofs.Condition.Constants
import RecordFilter.Proofs.Value.RoundTrip

/-!
# The text of a value determines the value

In a message, a string stands between quotes, and of the characters in it only the quotes are
escaped, by a backslash; a backslash is written as it is.  So a backslash before a quote has two
readings: the quote belongs to the string, or it closes a string that ends in a backslash.  Nothing
nearby decides between them, and the text of a value is not told from what follows it.

## Why there are no two readings all the same

Let two readings of one text part at such a quote.  From there on, one of them is outside a string
where the other is inside one.  Outside a string there are no backslashes, so until the readings
meet again no quote is escaped in either of them; but then each quote opens a string in the one and
closes a string in the other, and they never meet.  At the end of the text, however, both have to be
outside.

`Outside` and `Inside` say that a text can be read to its end from one of the two states, and
`not_inside_of_outside` that it cannot be read from both.  With this in hand the text of a value is
read from the front as if it were a prefix code, provided that what follows is known to be readable
from outside (`selfDelimiting`).

Numbers other than integers are left out (`IsFloatFree`): one that is whole is written as the
integer of the same value is.
-/

namespace RecordFilter.Value

open Decimal (isNumeric)
open Json.Reader (Stops stops_cons)

/-- No number other than an integer occurs in the value, at any level. -/
def IsFloatFree (v : Value) : Prop := ∀ x, ¬ v.Has x

theorem isFloatFree_boolean (b : Bool) : (boolean b).IsFloatFree := by
  intro x h
  cases h

theorem isFloatFree_integer (i : Int64) : (integer i).IsFloatFree := by
  intro x h
  cases h

theorem isFloatFree_string (s : String) : (string s).IsFloatFree := by
  intro x h
  cases h

theorem not_isFloatFree_float (x : Binary64) : ¬ (float x).IsFloatFree := fun h => h x .float

theorem isFloatFree_list_iff {items : List Value} :
    (list items).IsFloatFree ↔ ∀ v ∈ items, v.IsFloatFree := by
  constructor
  · exact fun h v hv x hx => h x (.list hv hx)
  · intro h x hx
    obtain ⟨v, hv, hx⟩ := has_list_iff.mp hx
    exact h v hv x hx

/-! ## Two states -/

mutual

/-- The text can be read to its end from outside a string. -/
inductive Outside : List Char → Prop where
  | nil : Outside []
  | other {c : Char} {r : List Char} : c ≠ '\"' → c ≠ '\\' → Outside r → Outside (c :: r)
  | opening {r : List Char} : Inside r → Outside ('\"' :: r)

/-- The text can be read to its end from inside a string. -/
inductive Inside : List Char → Prop where
  | other {c : Char} {r : List Char} : c ≠ '\"' → Inside r → Inside (c :: r)
  | escaped {r : List Char} : Inside r → Inside ('\\' :: '\"' :: r)
  | closing {r : List Char} : Outside r → Inside ('\"' :: r)

end

/-- No text can be read from both states: each of its characters leaves a reading where it is, or
makes the two readings change places. -/
theorem not_inside_of_outside {r : List Char} (hout : Outside r) : ¬ Inside r := by
  induction r with
  | nil => exact nofun
  | cons c r ih =>
    intro hin
    cases hout with
    | other hquote hbackslash hout =>
      cases hin with
      | other _ hin => exact ih hout hin
      | escaped _ => exact hbackslash rfl
      | closing _ => exact hquote rfl
    | opening hin' =>
      cases hin with
      | other hquote _ => exact hquote rfl
      | closing hout' => exact ih hout' hin'

/-- Characters that are neither quotes nor backslashes do not change the state. -/
theorem Outside.append {cs r : List Char} (hcs : ∀ c ∈ cs, isNumeric c = true) (hr : Outside r) :
    Outside (cs ++ r) := by
  induction cs with
  | nil => exact hr
  | cons c cs ih =>
    rw [List.forall_mem_cons] at hcs
    refine .other ?_ ?_ (ih hcs.2)
    · rintro rfl
      exact absurd hcs.1 (by decide)
    · rintro rfl
      exact absurd hcs.1 (by decide)

/-! ## Strings -/

/-- A character between quotes. -/
def escapeQuote (c : Char) : List Char := if c = '\"' then ['\\', '\"'] else [c]

theorem escapeQuote_of_ne {c : Char} (hc : c ≠ '\"') : escapeQuote c = [c] := if_neg hc

theorem toList_text_string (s : String) :
    (string s).text.toList = '\"' :: (s.toList.flatMap escapeQuote ++ ['\"']) := by
  rw [text, escapeQuotes, String.toList_append, String.toList_append]
  simp only [String.toList_ofList]
  rfl

/-- From inside a string, what is left of it is read up to the quote that closes it. -/
theorem inside_escaped (cs : List Char) {r : List Char} (hr : Outside r) :
    Inside (cs.flatMap escapeQuote ++ '\"' :: r) := by
  induction cs with
  | nil => exact .closing hr
  | cons c cs ih =>
    rw [List.flatMap_cons, List.append_assoc]
    by_cases hc : c = '\"'
    · rw [hc]
      exact .escaped ih
    · rw [escapeQuote_of_ne hc]
      exact .other hc ih

/-- What is left of a string does not start with the quote that closes it, unless nothing is. -/
theorem eq_nil_of_escaped_append {cs r r' : List Char}
    (h : cs.flatMap escapeQuote ++ r = '\"' :: r') : cs = [] := by
  cases cs with
  | nil => rfl
  | cons c cs =>
    rw [List.flatMap_cons] at h
    by_cases hc : c = '\"'
    · rw [hc] at h
      exact absurd (List.cons.inj h).1 (by decide)
    · rw [escapeQuote_of_ne hc] at h
      exact absurd (List.cons.inj h).1 hc

/-- A quote is not both escaped and the end of a string that has a backslash before it. -/
theorem escaped_ne_closed {cs ds r r' : List Char} (hr : Outside r) (hr' : Outside r') :
    '\"' :: (cs.flatMap escapeQuote ++ '\"' :: r) ≠ ds.flatMap escapeQuote ++ '\"' :: r' := by
  intro h
  obtain rfl := eq_nil_of_escaped_append h.symm
  rw [← (List.cons.inj h).2] at hr'
  exact not_inside_of_outside hr' (inside_escaped cs hr)

/-- A string is told from what follows its closing quote, if that can be read from outside. -/
theorem escaped_append_inj {cs ds r r' : List Char} (hr : Outside r) (hr' : Outside r')
    (h : cs.flatMap escapeQuote ++ '\"' :: r = ds.flatMap escapeQuote ++ '\"' :: r') :
    cs = ds ∧ r = r' := by
  induction cs generalizing ds with
  | nil =>
    obtain rfl := eq_nil_of_escaped_append h.symm
    exact ⟨rfl, (List.cons.inj h).2⟩
  | cons c cs ih =>
    cases ds with
    | nil => exact absurd (eq_nil_of_escaped_append h) (List.cons_ne_nil c cs)
    | cons d ds =>
      rw [List.flatMap_cons, List.flatMap_cons, List.append_assoc, List.append_assoc] at h
      -- If just one of the two is a quote, the other is the backslash before it, and the readings
      -- part at the next character.
      by_cases hc : c = '\"' <;> by_cases hd : d = '\"'
      · rw [hc, hd] at h
        obtain ⟨rfl, hrest⟩ := ih (List.append_cancel_left h)
        exact ⟨by rw [hc, hd], hrest⟩
      · rw [hc, escapeQuote_of_ne hd] at h
        exact absurd (List.cons.inj h).2 (escaped_ne_closed hr hr')
      · rw [hd, escapeQuote_of_ne hc] at h
        exact absurd (List.cons.inj h).2.symm (escaped_ne_closed hr' hr)
      · rw [escapeQuote_of_ne hc, escapeQuote_of_ne hd] at h
        obtain ⟨rfl, hrest⟩ := ih (List.cons.inj h).2
        exact ⟨by rw [(List.cons.inj h).1], hrest⟩

/-! ## Lists -/

/-- The texts of the values of a list behind the first, each with a comma before it. -/
def textsBehind : List Value → List Char
  | [] => []
  | v :: vs => ',' :: ' ' :: (v.text.toList ++ textsBehind vs)

theorem toList_text_nil : (list []).text.toList = ['[', ']'] := by
  rw [text, texts]
  rfl

theorem toList_intercalate_texts (v : Value) (vs : List Value) :
    (String.intercalate ", " (texts (v :: vs))).toList = v.text.toList ++ textsBehind vs := by
  induction vs generalizing v with
  | nil => simp [texts, textsBehind]
  | cons w vs ih =>
    have hrest := ih w
    rw [texts, String.toList_intercalate] at hrest ⊢
    rw [texts]
    simp only [List.map_cons, List.intercalate_cons_cons] at hrest ⊢
    rw [hrest]
    simp [textsBehind]

theorem toList_text_cons (v : Value) (vs : List Value) :
    (list (v :: vs)).text.toList = '[' :: (v.text.toList ++ (textsBehind vs ++ [']'])) := by
  rw [text, String.toList_append, String.toList_append, toList_intercalate_texts]
  simp

theorem toList_text_cons_append (v : Value) (vs : List Value) (r : List Char) :
    (list (v :: vs)).text.toList ++ r =
      '[' :: (v.text.toList ++ (textsBehind vs ++ ']' :: r)) := by
  rw [toList_text_cons]
  simp

theorem stops_textsBehind (vs : List Value) (r : List Char) :
    Stops isNumeric (textsBehind vs ++ ']' :: r) := by
  cases vs with
  | nil => exact stops_cons (by decide) _
  | cons v vs => exact stops_cons (by decide) _

/-! ## Reading from outside -/

theorem Outside.behind_close {r : List Char} (hr : Outside r) : Outside (']' :: r) :=
  .other (by decide) (by decide) hr

theorem isNumeric_boolean (b : Bool) : ∀ c ∈ (boolean b).text.toList, isNumeric c = true :=
  List.all_eq_true.mp (by cases b <;> decide)

theorem toList_text_integer (i : Int64) :
    (integer i).text.toList = Integer.numeralChars i.toInt := by
  rw [text, Integer.numeral, String.toList_ofList]

mutual

/-- The text of a value leads from outside a string to outside a string. -/
theorem outside_text_append : ∀ {v : Value}, v.IsFloatFree → ∀ {r : List Char}, Outside r →
    Outside (v.text.toList ++ r)
  | boolean b, _, _, hr => hr.append (isNumeric_boolean b)
  | integer i, _, _, hr => by
    rw [toList_text_integer]
    exact hr.append (Readable.isNumeric_numeralChars _)
  | float x, hv, _, _ => absurd hv (not_isFloatFree_float x)
  | string s, _, _, hr => by
    rw [toList_text_string, List.cons_append, List.append_assoc]
    exact .opening (inside_escaped s.toList hr)
  | list [], _, _, hr => by
    rw [toList_text_nil]
    exact .other (by decide) (by decide) (.other (by decide) (by decide) hr)
  | list (v :: vs), hv, _, hr => by
    obtain ⟨hfirst, hrest⟩ := List.forall_mem_cons.mp (isFloatFree_list_iff.mp hv)
    rw [toList_text_cons, List.cons_append, List.append_assoc, List.append_assoc]
    exact .other (by decide) (by decide)
      (outside_text_append hfirst (outside_textsBehind_append hrest hr.behind_close))

theorem outside_textsBehind_append : ∀ {vs : List Value}, (∀ v ∈ vs, v.IsFloatFree) →
    ∀ {r : List Char}, Outside r → Outside (textsBehind vs ++ r)
  | [], _, _, hr => hr
  | v :: vs, hvs, _, hr => by
    obtain ⟨hv, hvs⟩ := List.forall_mem_cons.mp hvs
    rw [textsBehind, List.cons_append, List.cons_append, List.append_assoc]
    exact .other (by decide) (by decide) (.other (by decide) (by decide)
      (outside_text_append hv (outside_textsBehind_append hvs hr)))

end

/-! ## Reading values -/

/-- The type of the values whose text starts with the character, none for lists. -/
def typeOfFirst? (c : Char) : Option FieldType :=
  if c = '[' then none
  else if c = '\"' then some .string
  else if c = 't' ∨ c = 'f' then some .boolean
  else some .integer

theorem typeOfFirst?_of_isDigit {c : Char} (hc : c.isDigit = true) :
    c ≠ ']' ∧ typeOfFirst? c = some .integer := by
  have hne : ∀ {d : Char}, d.isDigit = false → c ≠ d := Integer.ne_of_isDigit hc
  rw [typeOfFirst?, if_neg (hne (by decide)), if_neg (hne (by decide)),
    if_neg (not_or.mpr ⟨hne (by decide), hne (by decide)⟩)]
  exact ⟨hne (by decide), rfl⟩

/-- The first character tells the type, and does not close a list. -/
theorem exists_text_cons {v : Value} (hv : v.IsFloatFree) :
    ∃ c cs, v.text.toList = c :: cs ∧ c ≠ ']' ∧ typeOfFirst? c = v.fieldType? := by
  cases v with
  | boolean b => cases b <;> exact ⟨_, _, rfl, by decide, rfl⟩
  | integer i =>
    rw [toList_text_integer, Integer.numeralChars]
    split
    · exact ⟨'-', _, rfl, by decide, rfl⟩
    · obtain ⟨c, cs, hcs, hc⟩ := (Json.Reader.isDigits_digits i.toInt.natAbs).exists_cons
      exact ⟨c, cs, hcs, typeOfFirst?_of_isDigit hc⟩
  | float x => exact absurd hv (not_isFloatFree_float x)
  | string s => exact ⟨_, _, toList_text_string s, by decide, rfl⟩
  | list items =>
    cases items with
    | nil => exact ⟨_, _, toList_text_nil, by decide, rfl⟩
    | cons v vs => exact ⟨_, _, toList_text_cons v vs, by decide, rfl⟩

/-- Values that start a text with the same characters have the same type. -/
theorem fieldType?_eq_of_append_eq {v w : Value} (hv : v.IsFloatFree) (hw : w.IsFloatFree)
    {r r' : List Char} (h : v.text.toList ++ r = w.text.toList ++ r') :
    v.fieldType? = w.fieldType? := by
  obtain ⟨c, cs, hcs, -, hc⟩ := exists_text_cons hv
  obtain ⟨d, ds, hds, -, hd⟩ := exists_text_cons hw
  rw [hcs, hds] at h
  rw [← hc, ← hd, (List.cons.inj h).1]

/-- No list that has a value starts as the empty one does. -/
theorem toList_text_cons_append_ne {v : Value} (hv : v.IsFloatFree) (vs : List Value)
    (r r' : List Char) :
    (list (v :: vs)).text.toList ++ r ≠ (list []).text.toList ++ r' := by
  obtain ⟨c, cs, hcs, hc, -⟩ := exists_text_cons hv
  rw [toList_text_cons, toList_text_nil, hcs]
  exact fun h => hc (List.cons.inj (List.cons.inj h).2).1

/-- Values whose texts are constants of one type are told from what follows them, as constants
are. -/
theorem append_inj_of_readable {α : Type} [Literal α] [Readable α] {a b : α} {v w : Value}
    (hv : v.text = Literal.literal a) (hw : w.text = Literal.literal b) {r r' : List Char}
    (hr : Stops isNumeric r) (hr' : Stops isNumeric r')
    (h : v.text.toList ++ r = w.text.toList ++ r') : a = b ∧ r = r' := by
  rw [hv, hw] at h
  exact Readable.append_inj hr hr' h

theorem text_boolean (b : Bool) : (boolean b).text = Literal.literal b := by
  rw [text]
  rfl

theorem text_integer (i : Int64) : (integer i).text = Literal.literal i := by
  rw [text]
  rfl

/-- The text of the value is told from what follows it, if that can be read from outside a string
and does not go on with the word that the value may be. -/
def SelfDelimiting (v : Value) : Prop :=
  ∀ ⦃w : Value⦄ ⦃r r' : List Char⦄, w.IsFloatFree → Outside r → Outside r' → Stops isNumeric r →
    Stops isNumeric r' → v.text.toList ++ r = w.text.toList ++ r' → v = w ∧ r = r'

/-- The texts of the values of a list behind the first are told from what follows the list. -/
def SelfDelimitingBehind (vs : List Value) : Prop :=
  ∀ ⦃ws : List Value⦄ ⦃r r' : List Char⦄, (∀ w ∈ ws, w.IsFloatFree) → Outside r → Outside r' →
    textsBehind vs ++ ']' :: r = textsBehind ws ++ ']' :: r' → vs = ws ∧ r = r'

theorem selfDelimiting_boolean (a : Bool) : (boolean a).SelfDelimiting := by
  intro w r r' hw _ _ hstop hstop' h
  have htype := fieldType?_eq_of_append_eq (isFloatFree_boolean a) hw h
  cases w with
  | boolean b =>
    obtain ⟨rfl, hrest⟩ := append_inj_of_readable (text_boolean a) (text_boolean b) hstop hstop' h
    exact ⟨rfl, hrest⟩
  | _ => cases htype

theorem selfDelimiting_integer (i : Int64) : (integer i).SelfDelimiting := by
  intro w r r' hw _ _ hstop hstop' h
  have htype := fieldType?_eq_of_append_eq (isFloatFree_integer i) hw h
  cases w with
  | integer j =>
    obtain ⟨rfl, hrest⟩ := append_inj_of_readable (text_integer i) (text_integer j) hstop hstop' h
    exact ⟨rfl, hrest⟩
  | _ => cases htype

theorem selfDelimiting_string (s : String) : (string s).SelfDelimiting := by
  intro w r r' hw hr hr' _ _ h
  have htype := fieldType?_eq_of_append_eq (isFloatFree_string s) hw h
  cases w with
  | string t =>
    rw [toList_text_string, toList_text_string, List.cons_append, List.cons_append,
      List.append_assoc, List.append_assoc] at h
    obtain ⟨hsame, hrest⟩ := escaped_append_inj hr hr' (List.cons.inj h).2
    exact ⟨by rw [String.toList_inj.mp hsame], hrest⟩
  | _ => cases htype

theorem selfDelimiting_nil : (list []).SelfDelimiting := by
  intro w r r' hw _ _ _ _ h
  have hempty : (list []).IsFloatFree := isFloatFree_list_iff.mpr (List.forall_mem_nil _)
  have htype := fieldType?_eq_of_append_eq hempty hw h
  cases w with
  | list ws =>
    cases ws with
    | nil => exact ⟨rfl, List.append_cancel_left h⟩
    | cons w ws =>
      have hw := isFloatFree_list_iff.mp hw w List.mem_cons_self
      exact absurd h.symm (toList_text_cons_append_ne hw ws _ _)
  | _ => cases htype

/-- The first value is told from those behind it, and these from what follows the list. -/
theorem append_inj_of_first {v w : Value} {vs ws : List Value} {r r' : List Char}
    (hv : v.SelfDelimiting) (hvs : SelfDelimitingBehind vs) (hvsfree : ∀ u ∈ vs, u.IsFloatFree)
    (hfree : ∀ u ∈ w :: ws, u.IsFloatFree) (hr : Outside r) (hr' : Outside r')
    (h : v.text.toList ++ (textsBehind vs ++ ']' :: r) =
      w.text.toList ++ (textsBehind ws ++ ']' :: r')) : v :: vs = w :: ws ∧ r = r' := by
  obtain ⟨hw, hws⟩ := List.forall_mem_cons.mp hfree
  obtain ⟨hfirst, hbehind⟩ := hv hw (outside_textsBehind_append hvsfree hr.behind_close)
    (outside_textsBehind_append hws hr'.behind_close) (stops_textsBehind vs r)
    (stops_textsBehind ws r') h
  obtain ⟨hothers, hrest⟩ := hvs hws hr hr' hbehind
  exact ⟨by rw [hfirst, hothers], hrest⟩

theorem selfDelimiting_cons {v : Value} {vs : List Value} (hfree : (list (v :: vs)).IsFloatFree)
    (hv : v.SelfDelimiting) (hvs : SelfDelimitingBehind vs) : (list (v :: vs)).SelfDelimiting := by
  intro w r r' hw hr hr' _ _ h
  have htype := fieldType?_eq_of_append_eq hfree hw h
  obtain ⟨hvfree, hvsfree⟩ := List.forall_mem_cons.mp (isFloatFree_list_iff.mp hfree)
  cases w with
  | list ws =>
    cases ws with
    | nil => exact absurd h (toList_text_cons_append_ne hvfree vs _ _)
    | cons w ws =>
      rw [toList_text_cons_append, toList_text_cons_append] at h
      obtain ⟨hsame, hrest⟩ := append_inj_of_first hv hvs hvsfree (isFloatFree_list_iff.mp hw) hr
        hr' (List.cons.inj h).2
      exact ⟨congrArg list hsame, hrest⟩
  | _ => cases htype

theorem selfDelimitingBehind_nil : SelfDelimitingBehind [] := by
  intro ws r r' _ _ _ h
  cases ws with
  | nil => exact ⟨rfl, (List.cons.inj h).2⟩
  | cons w ws => exact absurd (List.cons.inj h).1 (by decide)

theorem selfDelimitingBehind_cons {v : Value} {vs : List Value} (hvsfree : ∀ u ∈ vs, u.IsFloatFree)
    (hv : v.SelfDelimiting) (hvs : SelfDelimitingBehind vs) : SelfDelimitingBehind (v :: vs) := by
  intro ws r r' hfree hr hr' h
  cases ws with
  | nil => exact absurd (List.cons.inj h).1 (by decide)
  | cons w ws =>
    rw [textsBehind, textsBehind] at h
    have hitems := (List.cons.inj (List.cons.inj h).2).2
    rw [List.append_eq, List.append_eq, List.append_assoc, List.append_assoc] at hitems
    exact append_inj_of_first hv hvs hvsfree hfree hr hr' hitems

mutual

theorem selfDelimiting : ∀ {v : Value}, v.IsFloatFree → v.SelfDelimiting
  | boolean b, _ => selfDelimiting_boolean b
  | integer i, _ => selfDelimiting_integer i
  | float x, hv => absurd hv (not_isFloatFree_float x)
  | string s, _ => selfDelimiting_string s
  | list [], _ => selfDelimiting_nil
  | list (_ :: _), hfree =>
    have hitems := List.forall_mem_cons.mp (isFloatFree_list_iff.mp hfree)
    selfDelimiting_cons hfree (selfDelimiting hitems.1) (selfDelimitingBehind hitems.2)

theorem selfDelimitingBehind : ∀ {vs : List Value}, (∀ v ∈ vs, v.IsFloatFree) →
    SelfDelimitingBehind vs
  | [], _ => selfDelimitingBehind_nil
  | _ :: _, hfree =>
    have hitems := List.forall_mem_cons.mp hfree
    selfDelimitingBehind_cons hitems.2 (selfDelimiting hitems.1) (selfDelimitingBehind hitems.2)

end

/-- Values without such numbers that have the same text are equal. -/
theorem text_inj {v w : Value} (hv : v.IsFloatFree) (hw : w.IsFloatFree) (h : v.text = w.text) :
    v = w := by
  have hstop : Stops isNumeric [] := fun c hc => nomatch hc
  exact (selfDelimiting hv hw .nil .nil hstop hstop (by rw [h])).1

end RecordFilter.Value
