import RecordFilter.Condition.Text
import RecordFilter.Proofs.Date
import RecordFilter.Proofs.Text.Quoted

/-!
# Constants are told from what follows them

In an expression a constant is followed by a blank, a comma, a bracket or the end.  Truth values and
numbers are words without these characters; dates and strings stand between quotes.  So the form of
a constant, together with what follows, determines the constant (`Readable`).  A list of constants
is closed by a bracket, which none of them starts with.

* `Constraint.tail_append_inj`: of a constraint on a field of a given type, the text behind the name
  of the field determines the constraint.
-/

namespace RecordFilter

open Decimal (isNumeric)
open Json.Reader (Stops stops_cons)
open Literal (literal)

/-- Constants whose forms are told from each other and from what follows them. -/
class Readable (α : Type) [Literal α] : Prop where
  /-- No form is empty, or starts with the bracket that closes a list. -/
  exists_cons (a : α) : ∃ c cs, (literal a).toList = c :: cs ∧ c ≠ ']'
  /-- A form is read off from the front of a text, if it is not followed by what could belong to a
  word. -/
  append_inj {a b : α} {r r' : List Char} (hr : Stops isNumeric r) (hr' : Stops isNumeric r')
    (h : (literal a).toList ++ r = (literal b).toList ++ r') : a = b ∧ r = r'

namespace Readable

/-- Words are readable if they are told from each other. -/
theorem of_words {α : Type} [Literal α] (hne : ∀ a : α, (literal a).toList ≠ [])
    (hword : ∀ a : α, ∀ c ∈ (literal a).toList, isNumeric c = true)
    (hinj : ∀ {a b : α}, (literal a).toList = (literal b).toList → a = b) : Readable α where
  exists_cons a := by
    cases h : (literal a).toList with
    | nil => exact absurd h (hne a)
    | cons c cs =>
      refine ⟨c, cs, rfl, ?_⟩
      rintro rfl
      have hc := hword a ']' (by rw [h]; exact List.mem_cons_self)
      exact absurd hc (by decide)
  append_inj hr hr' h := by
    obtain ⟨hsame, hrest⟩ := Text.eq_of_append_eq (hword _) (hword _) hr hr' h
    exact ⟨hinj hsame, hrest⟩

instance : Readable Bool :=
  of_words (by decide) (fun b => List.all_eq_true.mp (by cases b <;> decide)) (by decide)

theorem isNumeric_numeralChars (n : Int) : ∀ c ∈ Integer.numeralChars n, isNumeric c = true :=
  Decimal.isNumeric_of_spells (Integer.spells_numeralChars n)

instance : Readable Int64 := by
  have htext (i : Int64) : (literal i).toList = Integer.numeralChars i.toInt :=
    String.toList_ofList
  have hread (i : Int64) : Integer.ofNumeral? (literal i).toList = some i.toInt := by
    rw [htext]
    exact Integer.ofNumeral?_numeralChars _ [] (Or.inl rfl)
  refine of_words (fun i hnil => ?_) (fun i => ?_) fun {i j} h => ?_
  · have hi := hread i
    rw [hnil] at hi
    cases hi
  · rw [htext]
    exact isNumeric_numeralChars _
  · have hi := hread i
    rw [h, hread] at hi
    exact Int64.toInt_inj.mp (Option.some_inj.mp hi).symm

instance : Readable Binary64 := by
  have htext (x : Binary64) : (literal x).toList = x.write literalLayout := String.toList_ofList
  refine of_words (fun x hnil => ?_) (fun x => ?_) fun {x y} h => ?_
  · have hx := Binary64.ofText?_write literalLayout x
    rw [← htext, hnil] at hx
    cases hx
  · rw [htext]
    exact Binary64.isNumeric_write literalLayout x
  · rw [htext, htext] at h
    exact Binary64.write_inj h

instance : Readable String where
  exists_cons s := ⟨'\"', _, Text.toList_quote s, by decide⟩
  append_inj _ _ h := Text.quote_append_inj h

/-- A date stands between quotes, and has none in it. -/
instance : Readable Date := by
  have htext (d : Date) : (literal d).toList = '\'' :: (d.chars ++ ['\'']) := by
    show ("'" ++ d.text ++ "'").toList = _
    simp [Date.text]
  refine ⟨fun d => ⟨'\'', _, htext d, by decide⟩, fun {d e r r'} _ _ h => ?_⟩
  rw [htext, htext, List.cons_append, List.cons_append, List.append_assoc, List.append_assoc,
    List.cons.injEq] at h
  obtain ⟨hsame, hrest⟩ := Text.eq_of_append_eq (Date.isNumeric_chars d) (Date.isNumeric_chars e)
    (stops_cons (by decide) _) (stops_cons (by decide) _) h.2
  exact ⟨Date.chars_inj hsame, (List.cons.inj hrest).2⟩

end Readable

/-! ## Lists -/

variable {α : Type} [Literal α]

/-- The constants of a list behind the first, each with a comma before it. -/
def itemsBehind : List α → List Char
  | [] => []
  | a :: as => ',' :: ' ' :: ((literal a).toList ++ itemsBehind as)

theorem toList_intercalate_cons (a : α) (as : List α) :
    (String.intercalate ", " ((a :: as).map literal)).toList =
      (literal a).toList ++ itemsBehind as := by
  induction as generalizing a with
  | nil => simp [itemsBehind]
  | cons b as ih =>
    have hrest := ih b
    rw [String.toList_intercalate] at hrest ⊢
    simp only [List.map_cons, List.intercalate_cons_cons] at hrest ⊢
    rw [hrest]
    simp [itemsBehind]

theorem stops_itemsBehind (as : List α) (r : List Char) :
    Stops isNumeric (itemsBehind as ++ ']' :: r) := by
  cases as with
  | nil => exact stops_cons (by decide) _
  | cons a as => exact stops_cons (by decide) _

theorem itemsBehind_append_inj [Readable α] {as bs : List α} {r r' : List Char}
    (h : itemsBehind as ++ ']' :: r = itemsBehind bs ++ ']' :: r') : as = bs ∧ r = r' := by
  induction as generalizing bs with
  | nil =>
    cases bs with
    | nil => exact ⟨rfl, (List.cons.inj h).2⟩
    | cons b bs => exact absurd (List.cons.inj h).1 (by decide)
  | cons a as ih =>
    cases bs with
    | nil => exact absurd (List.cons.inj h).1 (by decide)
    | cons b bs =>
      have hitem := (List.cons.inj (List.cons.inj h).2).2
      rw [List.append_eq, List.append_eq, List.append_assoc, List.append_assoc] at hitem
      obtain ⟨rfl, hrest⟩ :=
        Readable.append_inj (stops_itemsBehind as r) (stops_itemsBehind bs r') hitem
      obtain ⟨rfl, hr⟩ := ih hrest
      exact ⟨rfl, hr⟩

/-- The constants of a list are read off up to the bracket that closes it. -/
theorem items_append_inj [Readable α] {as bs : List α} {r r' : List Char}
    (h : (String.intercalate ", " (as.map literal)).toList ++ ']' :: r =
      (String.intercalate ", " (bs.map literal)).toList ++ ']' :: r') : as = bs ∧ r = r' := by
  cases as with
  | nil =>
    cases bs with
    | nil => exact ⟨rfl, (List.cons.inj h).2⟩
    | cons b bs =>
      obtain ⟨c, cs, hcons, hne⟩ := Readable.exists_cons b
      rw [toList_intercalate_cons, hcons] at h
      exact absurd (List.cons.inj h).1.symm hne
  | cons a as =>
    cases bs with
    | nil =>
      obtain ⟨c, cs, hcons, hne⟩ := Readable.exists_cons a
      rw [toList_intercalate_cons, hcons] at h
      exact absurd (List.cons.inj h).1 hne
    | cons b bs =>
      rw [toList_intercalate_cons, toList_intercalate_cons, List.append_assoc,
        List.append_assoc] at h
      obtain ⟨rfl, hrest⟩ :=
        Readable.append_inj (stops_itemsBehind as r) (stops_itemsBehind bs r') h
      obtain ⟨rfl, hr⟩ := itemsBehind_append_inj hrest
      exact ⟨rfl, hr⟩

/-! ## Constraints -/

namespace Constraint

/-- The text of a constraint behind the name of the field. -/
def tail : Constraint α → List Char
  | equals constant => ' ' :: '=' :: '=' :: ' ' :: (literal constant).toList
  | atLeast bound => ' ' :: '>' :: '=' :: ' ' :: (literal bound).toList
  | atMost bound => ' ' :: '<' :: '=' :: ' ' :: (literal bound).toList
  | oneOf constants => ' ' :: 'i' :: 'n' :: ' ' :: '[' ::
      ((String.intercalate ", " (constants.map literal)).toList ++ [']'])

theorem toList_text (field : String) (k : Constraint α) :
    (k.text field).toList = 'x' :: '.' :: (field.toList ++ k.tail) := by
  cases k <;> simp [text, tail, String.toList_append]

theorem exists_tail_cons (k : Constraint α) : ∃ cs, k.tail = ' ' :: cs := by
  cases k <;> exact ⟨_, rfl⟩

/-- The text behind the name of the field determines the constraint, and where it ends. -/
theorem tail_append_inj [Readable α] {k k' : Constraint α} {r r' : List Char}
    (hr : Stops isNumeric r) (hr' : Stops isNumeric r') (h : k.tail ++ r = k'.tail ++ r') :
    k = k' ∧ r = r' := by
  cases k <;> cases k' <;> simp only [tail, List.cons_append, List.cons.injEq] at h
  -- Constraints of two kinds differ in the character behind the blank.
  all_goals try exact absurd h.2.1 (by decide)
  case equals.equals =>
    obtain ⟨rfl, hrest⟩ := Readable.append_inj hr hr' h.2.2.2.2
    exact ⟨rfl, hrest⟩
  case atLeast.atLeast =>
    obtain ⟨rfl, hrest⟩ := Readable.append_inj hr hr' h.2.2.2.2
    exact ⟨rfl, hrest⟩
  case atMost.atMost =>
    obtain ⟨rfl, hrest⟩ := Readable.append_inj hr hr' h.2.2.2.2
    exact ⟨rfl, hrest⟩
  case oneOf.oneOf =>
    have hitems := h.2.2.2.2.2
    rw [List.append_assoc, List.append_assoc] at hitems
    obtain ⟨rfl, hrest⟩ := items_append_inj hitems
    exact ⟨rfl, hrest⟩

end Constraint

end RecordFilter
