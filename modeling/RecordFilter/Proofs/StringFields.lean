import RecordFilter.Proofs.Bounds
import RecordFilter.Proofs.Text.Utf8

/-!
# Comparing and searching the strings of records

A leaf that compares a string field with a scalar compiles, because every scalar stands for a text:
a string for itself, with its blanks, and any other scalar for the form that it has in messages
(`Criterion.ComparesText`).  What the compiled leaf asks is said here in two ways, of the characters
of the field and of its bytes.  By characters a bound is the order of code points, and a search asks
for a place where the needle stands; that bytes give the same answers is a property of UTF-8 alone.

* `leaf_bounds_bytes`: a bound on a string field compares bytes.
* `leaf_contains_infix`: a search of a string field finds the needle wherever it stands.
-/

namespace RecordFilter

open Text (LexAtMost bytes codePoints)

/-! ## Texts -/

namespace Text

theorem lexAtMost_iff_not_lex {as bs : List Char} :
    LexAtMost as bs ↔ ¬ List.Lex (· < ·) bs as := by
  induction as generalizing bs with
  | nil => exact iff_of_true (lexAtMost_nil bs) List.not_lex_nil
  | cons a as ih =>
    cases bs with
    | nil => exact iff_of_false (not_lexAtMost_nil a as) (not_not_intro List.Lex.nil)
    | cons b bs =>
      rw [lexAtMost_cons_cons_iff, List.cons_lex_cons_iff, ih]
      rcases lt_trichotomy a b with hlt | rfl | hgt
      · simp [hlt, lt_asymm hlt, ne_of_gt hlt]
      · simp
      · simp [hgt, lt_asymm hgt, ne_of_gt hgt]

/-- Strings are ordered by the code points of their characters. -/
theorem le_iff_lexAtMost_codePoints {s t : String} :
    s ≤ t ↔ LexAtMost (codePoints s) (codePoints t) := by
  rw [codePoints_eq_flatMap, codePoints_eq_flatMap, orderedCode_codePoint.lexAtMost_iff,
    lexAtMost_iff_not_lex]
  exact Iff.rfl

/-- Strings are ordered by their bytes. -/
theorem le_iff_lexAtMost_bytes {s t : String} : s ≤ t ↔ LexAtMost (bytes s) (bytes t) :=
  le_iff_lexAtMost_codePoints.trans lexAtMost_bytes_iff.symm

/-- The needle stands somewhere in the text. -/
theorem infix_iff_exists_append {needle s : String} :
    needle.toList <:+: s.toList ↔ ∃ p q, s = p ++ needle ++ q := by
  constructor
  · rintro ⟨p, q, h⟩
    refine ⟨String.ofList p, String.ofList q, String.toList_injective ?_⟩
    rw [String.toList_append, String.toList_append, String.toList_ofList, String.toList_ofList, h]
  · rintro ⟨p, q, rfl⟩
    rw [String.toList_append, String.toList_append]
    exact List.infix_append _ _ _

end Text

/-! ## Leaves on string fields -/

variable {ρ : Type}

namespace Criterion

/-- The criterion is a leaf that compares a string field, read by `get`, with a value that stands for
the text `t`. -/
structure ComparesText (schema : Schema ρ) (settings : Settings) (get : ρ → String) (t : String)
    (c : Criterion) : Prop where
  isLeaf : c.isLeaf = true
  field : ∃ name, schema.resolve c.property settings.ignoresCase = some ⟨name, .string get⟩
  value : ∃ v, c.value = some v ∧ v.toText? = some t

/-- The criterion compiles to a leaf, as a filter of its own and wherever it stands in one. -/
def CompilesTo (schema : Schema ρ) (settings : Settings) (l : Leaf ρ) (c : Criterion) : Prop :=
  compile schema settings [c] = .ok ⟨.leaf l⟩ ∧
    ∀ depth path, Compile.criterion schema settings depth path c = .ok (.leaf l)

/-- Records that are names. -/
def names : Schema String := Schema.empty.register "Name" (.string id)

theorem comparesText_names (k : Comparison) (t : String) :
    (leaf "Name" k (.string t)).ComparesText names {} id t where
  isLeaf := isLeaf_iff.mpr ⟨rfl, show "Name" ≠ "" by decide⟩
  field := ⟨"Name", Schema.resolve_register_self _ _ _ _⟩
  value := ⟨.string t, rfl, rfl⟩

variable {schema : Schema ρ} {settings : Settings} {get : ρ → String} {t : String} {c : Criterion}

/-- A comparison of a string field with one text compiles, and asks what the comparison says. -/
theorem ComparesText.exists_leaf (h : c.ComparesText schema settings get t)
    (hk : c.comparison ≠ .oneOf) : ∃ v l, v.toText? = some t ∧ c.CompilesTo schema settings l ∧
      ∀ record, l.holds record = true ↔ (Accessor.string get).Compares record c.comparison v := by
  obtain ⟨name, hfield⟩ := h.field
  obtain ⟨v, hvalue, htext⟩ := h.value
  have hsuits : c.comparison.Suits .string := by
    cases c.comparison <;> simp [Comparison.Suits]
  have hcoerces : v.coercesTo .string = true := Option.isSome_iff_exists.mpr ⟨t, htext⟩
  obtain ⟨test, htest⟩ : ∃ test, Compile.test ⟨name, .string get⟩ c.comparison v = .ok test :=
    Compile.exists_test_of_coerces c.comparison hk hsuits hcoerces
  have hcriterion : ∀ depth path, Compile.criterion schema settings depth path c =
      .ok (.leaf ⟨name, test⟩) := by
    intro depth path
    rw [Compile.criterion_eq_test h.isLeaf hfield hvalue, htest]
    rfl
  refine ⟨v, ⟨name, test⟩, htext, ⟨?_, hcriterion⟩, test_holds_iff htest⟩
  exact Compile.compile_eq_ok_iff.mpr
    ⟨_, Compile.siblings_cons_eq_ok_iff.mpr ⟨_, hcriterion 0 [0], [], Compile.siblings_nil 1, rfl⟩,
      rfl⟩

/-! ## Main results -/

/-- **Bounds of strings compare bytes.**  A leaf that bounds a string field by a text compiles.  Its
records are those with a field whose bytes in UTF-8 are at least, or at most, those of the text, in
the order in which lists part at the first unequal entry and a prefix comes first.  This is the order
of the code points. -/
theorem leaf_bounds_bytes (h : c.ComparesText schema settings get t) :
    (c.comparison = .atLeast → ∃ l, c.CompilesTo schema settings l ∧
      ∀ record, l.holds record = true ↔ LexAtMost (bytes t) (bytes (get record))) ∧
    (c.comparison = .atMost → ∃ l, c.CompilesTo schema settings l ∧
      ∀ record, l.holds record = true ↔ LexAtMost (bytes (get record)) (bytes t)) ∧
    ∀ a b : String, LexAtMost (bytes a) (bytes b) ↔ LexAtMost (codePoints a) (codePoints b) := by
  refine ⟨fun hk => ?_, fun hk => ?_, fun a b => Text.lexAtMost_bytes_iff⟩
  · obtain ⟨v, l, htext, hl, hholds⟩ := h.exists_leaf (by simp [hk])
    refine ⟨l, hl, fun record => ?_⟩
    rw [hholds, hk, ← Text.le_iff_lexAtMost_bytes]
    simp [Accessor.Compares, Compares, htext, FieldOrder.Within]
  · obtain ⟨v, l, htext, hl, hholds⟩ := h.exists_leaf (by simp [hk])
    refine ⟨l, hl, fun record => ?_⟩
    rw [hholds, hk, ← Text.le_iff_lexAtMost_bytes]
    simp [Accessor.Compares, Compares, htext, FieldOrder.Within]

/-- A character of four bytes comes behind one of three, which it would come before in UTF-16. -/
theorem leaf_bounds_bytes_names :
    (leaf "Name" .atLeast (.string "\uFFFD")).ComparesText names {} id "\uFFFD" ∧
      ∃ l, (leaf "Name" .atLeast (.string "\uFFFD")).CompilesTo names {} l ∧
        l.holds "😀" = true ∧ l.holds "\uFFFC" = false := by
  have h := comparesText_names .atLeast "\uFFFD"
  obtain ⟨hatLeast, -, hcodePoints⟩ := leaf_bounds_bytes h
  obtain ⟨l, hl, hholds⟩ := hatLeast rfl
  refine ⟨h, l, hl, (hholds _).mpr ((hcodePoints _ _).mpr ?_), ?_⟩
  · exact Or.inr (.of_lt (show 0xFFFD < 0x1F600 by decide) [] [])
  · rw [← Bool.not_eq_true, hholds, id, hcodePoints]
    exact (Text.PartsBelow.of_lt (show 0xFFFC < 0xFFFD by decide) [] []).not_lexAtMost

/-- **A search finds the needle wherever it stands.**  A leaf that searches a string field for a text
compiles.  Its records are those with a field that is the text with some text before it and some
behind it; they are those with a field whose bytes in UTF-8 have the bytes of the text in one piece
among them.  The empty text is found in every field. -/
theorem leaf_contains_infix (h : c.ComparesText schema settings get t)
    (hk : c.comparison = .contains) : ∃ l, c.CompilesTo schema settings l ∧ ∀ record,
      (l.holds record = true ↔ ∃ p q, get record = p ++ t ++ q) ∧
      (l.holds record = true ↔ bytes t <:+: bytes (get record)) ∧
      (t = "" → l.holds record = true) := by
  obtain ⟨v, l, htext, hl, hholds⟩ := h.exists_leaf (by simp [hk])
  have hsearch : ∀ record, l.holds record = true ↔ t.toList <:+: (get record).toList := by
    intro record
    rw [hholds, hk]
    simp [Accessor.Compares, htext]
  refine ⟨l, hl, fun record => ⟨?_, ?_, ?_⟩⟩
  · rw [hsearch, Text.infix_iff_exists_append]
  · rw [hsearch, Text.infix_bytes_iff]
  · rintro rfl
    rw [hsearch]
    exact List.nil_infix

/-- A beginning of the needle stands before the needle. -/
theorem leaf_contains_infix_names :
    (leaf "Name" .contains (.string "aé")).ComparesText names {} id "aé" ∧
      ∃ l, (leaf "Name" .contains (.string "aé")).CompilesTo names {} l ∧
        l.holds "aaé" = true := by
  have h := comparesText_names .contains "aé"
  obtain ⟨l, hl, hholds⟩ := leaf_contains_infix h rfl
  exact ⟨h, l, hl, (hholds "aaé").1.mpr ⟨"a", "", rfl⟩⟩

end Criterion

end RecordFilter
