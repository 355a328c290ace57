import RecordFilter.Proofs.Json.Scalars

/-!
# Documents and their spellings

A JSON document can be spelled in many ways: with any blanks between its tokens, with any escapes in
its strings, and with any of the forms of an exponent.  A `Document` is what the spellings have in
common, and `Document.Spelled` is the grammar: it says which texts begin with a spelling of the
document, and what follows it there.

Numbers are kept as their numerals, so nothing is said of what they are rounded to.  A string may
hold half of a surrogate pair that stands alone.  It keeps to the grammar, but it is no text, and all
such strings are one (`Document.string none`).

The grammar is composed of relations between a text and its rest, so that one part after another is
the composition of two relations, and no text has to be taken apart.
-/

namespace RecordFilter.Json

open Reader

/-- A JSON document. -/
inductive Document where
  | null
  | boolean (b : Bool)
  /-- A number, as it is written. -/
  | number (n : Numeral)
  /-- A string; there is no text if half of a surrogate pair stands alone in it. -/
  | string (text : Option String)
  | array (items : List Document)
  | object (members : List (Option String × Document))

instance : Inhabited Document := ⟨.null⟩

/-! ## The grammar -/

/-- A part of the grammar: the texts that begin with it, with what follows it there. -/
abbrev Spelling := List Char → List Char → Prop

namespace Spelling

/-- One part after another. -/
def followedBy (p q : Spelling) : Spelling := fun s rest => ∃ between, p s between ∧ q between rest

/-- The given characters. -/
def exactly (cs : List Char) : Spelling := fun s rest => s = cs ++ rest

/-- Any blanks. -/
inductive Blanks : Spelling
  | none {s : List Char} : Blanks s s
  | cons {c : Char} {s rest : List Char} : isBlank c = true → Blanks s rest → Blanks (c :: s) rest

/-- The given characters behind blanks. -/
def word (cs : List Char) : Spelling := Blanks.followedBy (exactly cs)

/-- The given character behind blanks. -/
def mark (c : Char) : Spelling := word [c]

/-! ### Strings -/

/-- A number is half of a surrogate pair. -/
def IsSurrogate (n : Nat) : Prop := 0xD800 ≤ n ∧ n ≤ 0xDFFF

/-- A number is the first half of a surrogate pair. -/
def IsHigh (n : Nat) : Prop := 0xD800 ≤ n ∧ n < 0xDC00

/-- A number is the second half of a surrogate pair. -/
def IsLow (n : Nat) : Prop := 0xDC00 ≤ n ∧ n ≤ 0xDFFF

/-- An escape with four hexadecimal digits, which make the given number. -/
inductive Code (n : Nat) : Spelling
  | digits {a b c d : Char} {rest : List Char} : fourHex? a b c d = some n →
      Code n ('\\' :: 'u' :: a :: b :: c :: d :: rest) rest

/-- A character in a string: itself, or any of its escapes. -/
inductive Character : Char → Spelling
  | plain {c : Char} {rest : List Char} : c ≠ '\"' → c ≠ '\\' → ' ' ≤ c →
      Character c (c :: rest) rest
  | short {e c : Char} {rest : List Char} : shortEscape? e = some c →
      Character c ('\\' :: e :: rest) rest
  | code {n : Nat} {s rest : List Char} : Code n s rest → ¬ IsSurrogate n →
      Character (Char.ofNat n) s rest
  | pair {high low : Nat} {s between rest : List Char} : Code high s between → IsHigh high →
      Code low between rest → IsLow low →
      Character (Char.ofNat (0x10000 + (high - 0xD800) * 0x400 + (low - 0xDC00))) s rest

/-- Characters in a string, one after the other. -/
def characters : List Char → Spelling
  | [] => exactly []
  | c :: cs => (Character c).followedBy (characters cs)

/-- Anything that may stand in a string. -/
inductive Pieces : Spelling
  | none {s : List Char} : Pieces s s
  | character {c : Char} {s between rest : List Char} : Character c s between →
      Pieces between rest → Pieces s rest
  | surrogate {n : Nat} {s between rest : List Char} : Code n s between → IsSurrogate n →
      Pieces between rest → Pieces s rest

/-- Half of a surrogate pair, without the other half. -/
inductive Half : Spelling
  | low {n : Nat} {s rest : List Char} : Code n s rest → IsLow n → Half s rest
  | high {n : Nat} {s rest : List Char} : Code n s rest → IsHigh n →
      (∀ low rest', Code low rest rest' → ¬ IsLow low) → Half s rest

/-- What stands in a string before its closing quote. -/
inductive Content : Option String → Spelling
  | text {t : String} {s rest : List Char} : characters t.toList s rest → Content (some t) s rest
  | broken {cs s between behind rest : List Char} : characters cs s between → Half between behind →
      Pieces behind rest → Content none s rest

/-- A string between its quotes. -/
def string (text : Option String) : Spelling :=
  (mark '\"').followedBy ((Content text).followedBy (exactly ['\"']))

/-! ### Numbers -/

/-- An exponent, with either mark and with or without a plus sign. -/
inductive Exponent : Option Int → Spelling
  | none {s : List Char} : Exponent none s s
  | digits {mark : Char} {sign : Option Char} {ds rest : List Char} : mark = 'e' ∨ mark = 'E' →
      (∀ c ∈ sign, c = '+' ∨ c = '-') → IsDigits ds →
      Exponent (some (Binary64.signed (sign == some '-') (Integer.ofDigits ds)))
        (mark :: (sign.toList ++ (ds ++ rest))) rest

/-- A numeral. -/
inductive Number (n : Numeral) : Spelling
  | parts {s rest : List Char} : n.IsProper → Exponent n.exponent s rest →
      Number n ((if n.negative then ['-'] else []) ++
        (n.whole ++ (Numeral.writeFraction n.fraction ++ s))) rest

/-! ### Brackets -/

/-- What stands behind an item: a comma before each further one, and the closing bracket. -/
def behind (close : Char) : List Spelling → Spelling
  | [] => mark close
  | p :: ps => (mark ',').followedBy (p.followedBy (behind close ps))

/-- The items of a bracket, with commas between them, and the closing bracket. -/
def inside (close : Char) : List Spelling → Spelling
  | [] => mark close
  | p :: ps => p.followedBy (behind close ps)

/-- A member of an object: its name, a colon and its value. -/
def member (name : Option String) (value : Spelling) : Spelling :=
  (string name).followedBy ((mark ':').followedBy value)

end Spelling

namespace Document

open Spelling (Blanks)

mutual

/-- The text begins with a spelling of the document, behind blanks. -/
def Spelled : Document → Spelling
  | null => Spelling.word ['n', 'u', 'l', 'l']
  | boolean true => Spelling.word ['t', 'r', 'u', 'e']
  | boolean false => Spelling.word ['f', 'a', 'l', 's', 'e']
  | number n => Blanks.followedBy (Spelling.Number n)
  | string text => Spelling.string text
  | array items => (Spelling.mark '[').followedBy (Spelling.inside ']' (spelledItems items))
  | object members =>
    (Spelling.mark '\x7b').followedBy (Spelling.inside '\x7d' (spelledMembers members))

/-- The spellings of the items of an array. -/
def spelledItems : List Document → List Spelling
  | [] => []
  | d :: ds => d.Spelled :: spelledItems ds

/-- The spellings of the members of an object. -/
def spelledMembers : List (Option String × Document) → List Spelling
  | [] => []
  | (name, d) :: ms => Spelling.member name d.Spelled :: spelledMembers ms

end

/-- The text is a spelling of the document, with any blanks around it. -/
def IsSpelledBy (d : Document) (s : String) : Prop := d.Spelled.followedBy Blanks s.toList []

theorem spelledItems_eq_map (ds : List Document) : spelledItems ds = ds.map Spelled := by
  induction ds with
  | nil => rfl
  | cons d ds ih => rw [spelledItems, ih, List.map_cons]

theorem spelledMembers_eq_map (ms : List (Option String × Document)) :
    spelledMembers ms = ms.map fun m => Spelling.member m.1 m.2.Spelled := by
  induction ms with
  | nil => rfl
  | cons m ms ih => rw [spelledMembers, ih, List.map_cons]

end Document

end RecordFilter.Json
