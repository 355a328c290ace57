import RecordFilter.Proofs.Json.Floats
import RecordFilter.Proofs.Json.Spelling

/-!
# Written values are spelled

What is written for a value spells a document, which is the document of the value.  This holds of
both styles, since a line break and what it is indented by are blanks, and at every depth.  So
whatever is known of the spellings of a document is known of what is written for a value.

Only a number that is not finite has no form.

* `string_writeString`: the escapes of a written string spell its characters.
* `number_write`: a numeral is spelled by its text.
* `spelled_write`: a written value spells its document.
* `isSpelledBy_text`: so does the text of a value, with any blanks behind it.
-/

namespace RecordFilter.Json

open Reader
open Spelling (Blanks Code Character characters Content Exponent exactly)

/-! ## Strings -/

/-- Each character is spelled by its own escape. -/
theorem character_escape (c : Char) (rest : List Char) : Character c (escape c ++ rest) rest := by
  unfold escape
  -- Seven characters have an escape of their own.
  iterate 7
    split
    · subst c
      exact .short rfl
  rename_i hquote hslash _ _ _ _ _
  split
  · rename_i hc
    have hlt : c.toNat < 32 := hc
    have hcode : Code c.toNat ('\\' :: 'u' :: '0' :: '0' :: Nat.digitChar (c.toNat / 16) ::
        Nat.digitChar (c.toNat % 16) :: rest) rest := .digits (fourHex?_control hc)
    have hnot : ¬ Spelling.IsSurrogate c.toNat := by
      unfold Spelling.IsSurrogate
      omega
    have hcharacter := Character.code hcode hnot
    rw [Char.ofNat_toNat] at hcharacter
    exact hcharacter
  · rename_i hc
    exact .plain hquote hslash (Char.not_lt.mp hc)

theorem characters_flatMap_escape (cs rest : List Char) :
    characters cs (cs.flatMap escape ++ rest) rest := by
  induction cs with
  | nil => exact rfl
  | cons c cs ih =>
    rw [List.flatMap_cons, List.append_assoc]
    exact ⟨_, character_escape c _, ih⟩

/-- A written string is spelled, with any blanks before it. -/
theorem string_writeString (text : String) {s rest : List Char}
    (hs : Blanks s (writeString text rest)) : Spelling.string (some text) s rest :=
  ⟨_, ⟨_, hs, rfl⟩, _, .text (characters_flatMap_escape text.toList ('\"' :: rest)), rfl⟩

/-! ## Numbers -/

theorem exponent_writeExponent (e : Option Int) (rest : List Char) :
    Exponent e (Numeral.writeExponent e ++ rest) rest := by
  cases e with
  | none => exact .none
  | some e =>
    have hsign : ∀ c ∈ some (if e < 0 then '-' else '+'), c = '+' ∨ c = '-' := by
      intro c hc
      rw [← Option.some_inj.mp hc]
      by_cases he : e < 0
      · exact Or.inr (if_pos he)
      · exact Or.inl (if_neg he)
    have hexponent : Exponent _ ('e' :: ((some (if e < 0 then '-' else '+')).toList ++
        (Integer.digits e.natAbs ++ rest))) rest :=
      .digits (Or.inl rfl) hsign (isDigits_digits e.natAbs)
    rw [Integer.ofDigits_digits, signed_natAbs] at hexponent
    rw [Numeral.writeExponent_some]
    exact hexponent

/-- A proper numeral is spelled by its text. -/
theorem number_write {n : Numeral} (h : n.IsProper) (rest : List Char) :
    Spelling.Number n (n.write ++ rest) rest := by
  rw [Numeral.write, List.append_assoc, List.append_assoc, List.append_assoc]
  exact .parts h (exponent_writeExponent n.exponent rest)

/-! ## Values -/

mutual

/-- The document of a value. -/
def document : Json → Document
  | null => .null
  | boolean b => .boolean b
  | integer n => .number (integerNumeral n)
  | float (.finite negative m) => .number ((m.shortest numberLayout.tie).numeral negative)
  | float _ => .null
  | string s => .string (some s)
  | array vs => .array (documents vs)
  | object ms => .object (memberDocuments ms)

/-- The documents of the items of an array. -/
def documents : List Json → List Document
  | [] => []
  | v :: vs => v.document :: documents vs

/-- The documents of the members of an object. -/
def memberDocuments : List (String × Json) → List (Option String × Document)
  | [] => []
  | (name, v) :: ms => (some name, v.document) :: memberDocuments ms

end

mutual

/-- All numbers in the value are finite. -/
def isFinite : Json → Bool
  | float x => x.isFinite
  | array vs => areFinite vs
  | object ms => haveFinite ms
  | _ => true

/-- All numbers in the values are finite. -/
def areFinite : List Json → Bool
  | [] => true
  | v :: vs => v.isFinite && areFinite vs

/-- All numbers in the members of an object are finite. -/
def haveFinite : List (String × Json) → Bool
  | [] => true
  | (_, v) :: ms => v.isFinite && haveFinite ms

end

theorem documents_eq_map (vs : List Json) : documents vs = vs.map document := by
  induction vs with
  | nil => rfl
  | cons v vs ih => rw [documents, ih, List.map_cons]

theorem areFinite_eq_all (vs : List Json) : areFinite vs = vs.all isFinite := by
  induction vs with
  | nil => rfl
  | cons v vs ih => rw [areFinite, ih, List.all_cons]

/-- The break before an item is blanks. -/
theorem blanks_newline (style : Style) (depth : Nat) (rest : List Char) :
    Blanks (style.newline depth rest) rest := by
  have hspaces : ∀ n : Nat, Blanks (List.replicate n ' ' ++ rest) rest := by
    intro n
    induction n with
    | zero => exact .none
    | succ n ih => exact .cons rfl ih
  cases style with
  | compact => exact .none
  | indented => exact .cons rfl (hspaces (2 * depth))

/-- A name and its colon stand before the value of a member. -/
theorem member_writeString (style : Style) {name : String} {p : Spelling}
    {s t rest : List Char} (hs : Blanks s (writeString name (style.colon t)))
    (hp : ∀ s', Blanks s' t → p s' rest) : Spelling.member (some name) p s rest := by
  refine ⟨style.colon t, string_writeString name hs, ?_⟩
  cases style with
  | compact => exact ⟨t, ⟨_, .none, rfl⟩, hp t .none⟩
  | indented => exact ⟨' ' :: t, ⟨_, .none, rfl⟩, hp (' ' :: t) (.cons rfl .none)⟩

mutual

/-- A written value spells its document, with any blanks before it. -/
theorem spelled_write : ∀ (v : Json) (style : Style) (depth : Nat) {s rest : List Char},
    v.isFinite = true → Blanks s (v.write style depth rest) → v.document.Spelled s rest
  | null, style, depth, s, rest, _, hs => by
    rw [write] at hs
    rw [document, Document.Spelled]
    exact ⟨_, hs, rfl⟩
  | boolean true, style, depth, s, rest, _, hs => by
    rw [write] at hs
    rw [document, Document.Spelled]
    exact ⟨_, hs, rfl⟩
  | boolean false, style, depth, s, rest, _, hs => by
    rw [write] at hs
    rw [document, Document.Spelled]
    exact ⟨_, hs, rfl⟩
  | integer n, style, depth, s, rest, _, hs => by
    rw [write, ← write_integerNumeral] at hs
    rw [document, Document.Spelled]
    exact ⟨_, hs, number_write (isProper_integerNumeral n) rest⟩
  | float (.finite negative m), style, depth, s, rest, _, hs => by
    rw [write, Binary64.write_finite] at hs
    rw [document, Document.Spelled]
    exact ⟨_, hs, number_write (Decimal.isProper_numeral
      Binary64.Magnitude.exponent_shortest_of_digits negative) rest⟩
  | float .nan, style, depth, s, rest, h, _ => by
    rw [isFinite] at h
    cases h
  | float (.infinite _), style, depth, s, rest, h, _ => by
    rw [isFinite] at h
    cases h
  | string t, style, depth, s, rest, _, hs => by
    rw [write] at hs
    rw [document, Document.Spelled]
    exact string_writeString t hs
  | array [], style, depth, s, rest, _, hs => by
    rw [write] at hs
    rw [document, documents, Document.Spelled, Document.spelledItems]
    exact ⟨_, ⟨_, hs, rfl⟩, _, .none, rfl⟩
  | array (v :: vs), style, depth, s, rest, h, hs => by
    rw [isFinite, areFinite, Bool.and_eq_true] at h
    rw [write] at hs
    rw [document, documents, Document.Spelled, Document.spelledItems]
    exact ⟨_, ⟨_, hs, rfl⟩, _,
      spelled_write v style (depth + 1) h.1 (blanks_newline style (depth + 1) _),
      behind_writeItems vs style depth h.2⟩
  | object [], style, depth, s, rest, _, hs => by
    rw [write] at hs
    rw [document, memberDocuments, Document.Spelled, Document.spelledMembers]
    exact ⟨_, ⟨_, hs, rfl⟩, _, .none, rfl⟩
  | object ((name, v) :: ms), style, depth, s, rest, h, hs => by
    rw [isFinite, haveFinite, Bool.and_eq_true] at h
    rw [write] at hs
    rw [document, memberDocuments, Document.Spelled, Document.spelledMembers]
    exact ⟨_, ⟨_, hs, rfl⟩, _,
      member_writeString style (blanks_newline style (depth + 1) _)
        (fun s' hs' => spelled_write v style (depth + 1) h.1 hs'),
      behind_writeMembers ms style depth h.2⟩

/-- What is written behind an item of an array spells the items behind it and the end of the
array. -/
theorem behind_writeItems : ∀ (vs : List Json) (style : Style) (depth : Nat) {rest : List Char},
    areFinite vs = true → Spelling.behind ']' (Document.spelledItems (documents vs))
      (writeItems style depth vs rest) rest
  | [], style, depth, rest, _ => by
    rw [documents, Document.spelledItems, writeItems]
    exact ⟨_, blanks_newline style depth _, rfl⟩
  | v :: vs, style, depth, rest, h => by
    rw [areFinite, Bool.and_eq_true] at h
    rw [documents, Document.spelledItems, writeItems]
    exact ⟨_, ⟨_, .none, rfl⟩, _,
      spelled_write v style (depth + 1) h.1 (blanks_newline style (depth + 1) _),
      behind_writeItems vs style depth h.2⟩

/-- What is written behind a member of an object spells the members behind it and the end of the
object. -/
theorem behind_writeMembers : ∀ (ms : List (String × Json)) (style : Style) (depth : Nat)
    {rest : List Char}, haveFinite ms = true →
      Spelling.behind '\x7d' (Document.spelledMembers (memberDocuments ms))
        (writeMembers style depth ms rest) rest
  | [], style, depth, rest, _ => by
    rw [memberDocuments, Document.spelledMembers, writeMembers]
    exact ⟨_, blanks_newline style depth _, rfl⟩
  | (name, v) :: ms, style, depth, rest, h => by
    rw [haveFinite, Bool.and_eq_true] at h
    rw [memberDocuments, Document.spelledMembers, writeMembers]
    exact ⟨_, ⟨_, .none, rfl⟩, _,
      member_writeString style (blanks_newline style (depth + 1) _)
        (fun s' hs' => spelled_write v style (depth + 1) h.1 hs'),
      behind_writeMembers ms style depth h.2⟩

end

/-! ## Texts -/

theorem newline_append (style : Style) (depth : Nat) (s t : List Char) :
    style.newline depth (s ++ t) = style.newline depth s ++ t := by
  cases style with
  | compact => rfl
  | indented => simp [Style.newline]

theorem colon_append (style : Style) (s t : List Char) :
    style.colon (s ++ t) = style.colon s ++ t := by
  cases style <;> rfl

theorem writeString_append (text : String) (s t : List Char) :
    writeString text (s ++ t) = writeString text s ++ t := by
  simp [writeString]

mutual

/-- A value is written in front of the text behind it and does not depend on it. -/
theorem write_append : ∀ (v : Json) (style : Style) (depth : Nat) (s t : List Char),
    v.write style depth (s ++ t) = v.write style depth s ++ t
  | null, style, depth, s, t => by simp [write]
  | boolean true, style, depth, s, t => by simp [write]
  | boolean false, style, depth, s, t => by simp [write]
  | integer n, style, depth, s, t => by simp [write]
  | float x, style, depth, s, t => by simp [write]
  | string text, style, depth, s, t => by rw [write, write, writeString_append]
  | array [], style, depth, s, t => by simp [write]
  | array (v :: vs), style, depth, s, t => by
    rw [write, write, writeItems_append, write_append, newline_append, List.cons_append]
  | object [], style, depth, s, t => by simp [write]
  | object ((name, v) :: ms), style, depth, s, t => by
    rw [write, write, writeMembers_append, write_append, colon_append, writeString_append,
      newline_append, List.cons_append]

theorem writeItems_append : ∀ (vs : List Json) (style : Style) (depth : Nat) (s t : List Char),
    writeItems style depth vs (s ++ t) = writeItems style depth vs s ++ t
  | [], style, depth, s, t => by rw [writeItems, writeItems, ← List.cons_append, newline_append]
  | v :: vs, style, depth, s, t => by
    rw [writeItems, writeItems, writeItems_append, write_append, newline_append, List.cons_append]

theorem writeMembers_append : ∀ (ms : List (String × Json)) (style : Style) (depth : Nat)
    (s t : List Char), writeMembers style depth ms (s ++ t) = writeMembers style depth ms s ++ t
  | [], style, depth, s, t => by
    rw [writeMembers, writeMembers, ← List.cons_append, newline_append]
  | (name, v) :: ms, style, depth, s, t => by
    rw [writeMembers, writeMembers, writeMembers_append, write_append, colon_append,
      writeString_append, newline_append, List.cons_append]

end

/-- The text of a value spells its document, with any blanks behind it. -/
theorem isSpelledBy_text {v : Json} (hfinite : v.isFinite = true) (style : Style)
    {blanks : String} (hblanks : Blanks blanks.toList []) :
    v.document.IsSpelledBy (v.text style ++ blanks) := by
  refine ⟨blanks.toList, ?_, hblanks⟩
  rw [text, String.toList_append, String.toList_ofList, ← write_append, List.nil_append]
  exact spelled_write v style 0 hfinite .none

end RecordFilter.Json
