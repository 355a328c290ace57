import RecordFilter.Proofs.Condition.Constants
import RecordFilter.Proofs.Condition.Expression
import RecordFilter.User.Basic

/-!
# A text determines its condition

Two conditions with the same text are met by the same records, if the names of fields are
identifiers and a name always stands for one field.  They need not be equal: a group of a chain has
the text of the chain, and a chain whose first sibling is a chain that of the longer chain.  Both
have the same tree of expressions, and a text determines this tree.

The text of a tree is read from the left.  Its first character tells a leaf, a parenthesis and the
word for truth apart; a parenthesis is followed by a tree, and what follows this tree tells whether
it is joined with another.  A name ends before the first character that no identifier has, and a
constant where `Readable` says.  So no constant, whatever its characters are, can be taken for a
part of the expression around it.

* `Expression.text_append_inj`: the text of an expression determines the expression.
* `Condition.holds_eq_of_text_eq`: conditions with the same text are met by the same records.
-/

namespace RecordFilter

open Decimal (isNumeric)
open Json.Reader (Stops stops_cons)

variable {ρ : Type}

/-! ## Names -/

/-- The characters of identifiers. -/
def isIdentifierChar (c : Char) : Bool := c.isAlphanum || c == '_'

/-- The name is a letter or an underscore, followed by letters, digits and underscores. -/
def isIdentifier (name : String) : Bool :=
  !(name.toList.head?.any Char.isDigit) && name.toList != [] && name.toList.all isIdentifierChar

theorem isIdentifierChar_of_isIdentifier {name : String} (h : isIdentifier name = true) :
    ∀ c ∈ name.toList, isIdentifierChar c = true :=
  List.all_eq_true.mp (Bool.and_eq_true_iff.mp h).2

/-! ## Tests -/

namespace Test

/-- How the tested field is read from a record. -/
def accessor : Test ρ → Accessor ρ
  | boolean get _ => .boolean get
  | integer get _ => .integer get
  | float get _ => .float get
  | string get _ => .string get
  | date get _ => .date get
  | contains get _ => .string get

/-- The text of a test behind the name of the field. -/
def tail : Test ρ → List Char
  | boolean _ constraint => constraint.tail
  | integer _ constraint => constraint.tail
  | float _ constraint => constraint.tail
  | string _ constraint => constraint.tail
  | date _ constraint => constraint.tail
  | contains _ needle =>
    '.' :: (['C', 'o', 'n', 't', 'a', 'i', 'n', 's', '('] ++
      ((Text.quote needle).toList ++ [')']))

theorem toList_text (field : String) (t : Test ρ) :
    (t.text field).toList = 'x' :: '.' :: (field.toList ++ t.tail) := by
  cases t with
  | boolean get constraint => exact constraint.toList_text field
  | integer get constraint => exact constraint.toList_text field
  | float get constraint => exact constraint.toList_text field
  | string get constraint => exact constraint.toList_text field
  | date get constraint => exact constraint.toList_text field
  | contains get needle => simp [text, tail]

/-- No identifier goes on into the text of a test. -/
theorem stops_tail (t : Test ρ) (r : List Char) : Stops isIdentifierChar (t.tail ++ r) := by
  have hconstraint : ∀ {α : Type} [Literal α] (k : Constraint α),
      Stops isIdentifierChar (k.tail ++ r) := by
    intro α _ k
    obtain ⟨cs, hcs⟩ := k.exists_tail_cons
    rw [hcs]
    exact stops_cons (by decide) _
  cases t with
  | boolean get constraint => exact hconstraint constraint
  | integer get constraint => exact hconstraint constraint
  | float get constraint => exact hconstraint constraint
  | string get constraint => exact hconstraint constraint
  | date get constraint => exact hconstraint constraint
  | contains get needle => exact stops_cons (by decide) _

/-- Behind the name of a field, the text of a test determines the test, and where it ends. -/
theorem tail_append_inj {s t : Test ρ} (haccessor : s.accessor = t.accessor) {r r' : List Char}
    (hr : Stops isNumeric r) (hr' : Stops isNumeric r') (h : s.tail ++ r = t.tail ++ r') :
    s = t ∧ r = r' := by
  cases s <;> cases t <;> cases haccessor
  case contains.contains get needle needle' =>
    simp only [tail, List.cons_append, List.append_assoc, List.cons.injEq, true_and,
      List.append_cancel_left_eq] at h
    obtain ⟨rfl, hrest⟩ := Text.quote_append_inj h
    exact ⟨rfl, (List.cons.inj hrest).2⟩
  case string.contains get constraint needle =>
    obtain ⟨cs, hcs⟩ := constraint.exists_tail_cons
    rw [tail, hcs] at h
    exact absurd (List.cons.inj h).1 (by decide)
  case contains.string get needle constraint =>
    obtain ⟨cs, hcs⟩ := constraint.exists_tail_cons
    rw [tail, tail, hcs] at h
    exact absurd (List.cons.inj h).1 (by decide)
  all_goals
    obtain ⟨rfl, hrest⟩ := Constraint.tail_append_inj hr hr' h
    exact ⟨rfl, hrest⟩

end Test

/-! ## Leaves -/

/-- The names of fields are identifiers, and each stands for one field. -/
structure ConsistentNames (leaves : List (Leaf ρ)) : Prop where
  isIdentifier : ∀ l ∈ leaves, isIdentifier l.field = true
  accessor_eq : ∀ l ∈ leaves, ∀ l' ∈ leaves, l.field = l'.field →
    l.test.accessor = l'.test.accessor

variable {leaves : List (Leaf ρ)}

/-- The text of a leaf determines the leaf, and where it ends. -/
theorem Leaf.text_append_inj (hnames : ConsistentNames leaves) {l l' : Leaf ρ} (hl : l ∈ leaves)
    (hl' : l' ∈ leaves) {r r' : List Char} (hr : Stops isNumeric r) (hr' : Stops isNumeric r')
    (h : l.text.toList ++ r = l'.text.toList ++ r') : l = l' ∧ r = r' := by
  have hname := isIdentifierChar_of_isIdentifier (hnames.isIdentifier l hl)
  have hname' := isIdentifierChar_of_isIdentifier (hnames.isIdentifier l' hl')
  have haccessor := hnames.accessor_eq l hl l' hl'
  obtain ⟨field, test⟩ := l
  obtain ⟨field', test'⟩ := l'
  rw [Leaf.text, Leaf.text, Test.toList_text, Test.toList_text] at h
  have htext : field.toList ++ (test.tail ++ r) = field'.toList ++ (test'.tail ++ r') := by
    rw [← List.append_assoc, ← List.append_assoc]
    exact (List.cons.inj (List.cons.inj h).2).2
  obtain ⟨hfield, htail⟩ := Text.eq_of_append_eq hname hname' (test.stops_tail r)
    (test'.stops_tail r') htext
  obtain rfl := String.toList_inj.mp hfield
  obtain ⟨rfl, hrest⟩ := Test.tail_append_inj (haccessor rfl) hr hr' htail
  exact ⟨rfl, hrest⟩

/-! ## Expressions -/

theorem Connective.symbol_append_inj {c c' : Connective} {r r' : List Char}
    (h : c.symbol.toList ++ r = c'.symbol.toList ++ r') : c = c' ∧ r = r' := by
  have hlength : ∀ c : Connective, c.symbol.toList.length = 2 := by
    intro c
    cases c <;> rfl
  obtain ⟨hsymbol, hrest⟩ := List.append_inj h ((hlength c).trans (hlength c').symm)
  refine ⟨?_, hrest⟩
  cases c <;> cases c' <;> first | rfl | exact absurd hsymbol (by decide)

namespace Expression

/-- The first character of an expression. -/
def start : Expression ρ → Char
  | always => 't'
  | leaf _ => 'x'
  | enclosed _ => '('
  | joined _ _ _ => '('

theorem toList_text_enclosed (inner : Expression ρ) (r : List Char) :
    (enclosed inner).text.toList ++ r = '(' :: (inner.text.toList ++ ')' :: r) := by
  simp [text]

theorem toList_text_joined (connective : Connective) (left right : Expression ρ) (r : List Char) :
    (joined connective left right).text.toList ++ r =
      '(' :: (left.text.toList ++ ' ' :: (connective.symbol.toList ++
        ' ' :: (right.text.toList ++ ')' :: r))) := by
  simp [text]

theorem exists_text_cons (e : Expression ρ) (r : List Char) :
    ∃ cs, e.text.toList ++ r = e.start :: cs := by
  cases e with
  | always => exact ⟨'r' :: 'u' :: 'e' :: r, by simp [text, start]⟩
  | leaf l =>
    refine ⟨'.' :: (l.field.toList ++ l.test.tail) ++ r, ?_⟩
    rw [text, Leaf.text, Test.toList_text]
    rfl
  | enclosed inner => exact ⟨_, toList_text_enclosed inner r⟩
  | joined connective left right => exact ⟨_, toList_text_joined connective left right r⟩

theorem start_eq {a b : Expression ρ} {r r' : List Char}
    (h : a.text.toList ++ r = b.text.toList ++ r') : a.start = b.start := by
  obtain ⟨cs, hcs⟩ := a.exists_text_cons r
  obtain ⟨ds, hds⟩ := b.exists_text_cons r'
  rw [hcs, hds] at h
  exact (List.cons.inj h).1

/-- The text of an expression determines the expression, and where it ends. -/
theorem text_append_inj (hnames : ConsistentNames leaves) {a b : Expression ρ}
    (ha : a.leaves ⊆ leaves) (hb : b.leaves ⊆ leaves) {r r' : List Char}
    (hr : Stops isNumeric r) (hr' : Stops isNumeric r')
    (h : a.text.toList ++ r = b.text.toList ++ r') : a = b ∧ r = r' := by
  have hclose : ∀ r, Stops isNumeric (')' :: r) := stops_cons (by decide)
  have hblank : ∀ r, Stops isNumeric (' ' :: r) := stops_cons (by decide)
  induction a generalizing b r r' with
  | always =>
    cases b with
    | always => exact ⟨rfl, List.append_cancel_left h⟩
    | leaf => exact absurd (show 't' = 'x' from start_eq h) (by decide)
    | enclosed => exact absurd (show 't' = '(' from start_eq h) (by decide)
    | joined => exact absurd (show 't' = '(' from start_eq h) (by decide)
  | leaf l =>
    cases b with
    | always => exact absurd (show 'x' = 't' from start_eq h) (by decide)
    | leaf l' =>
      obtain ⟨rfl, hrest⟩ := Leaf.text_append_inj hnames (ha List.mem_cons_self)
        (hb List.mem_cons_self) hr hr' h
      exact ⟨rfl, hrest⟩
    | enclosed => exact absurd (show 'x' = '(' from start_eq h) (by decide)
    | joined => exact absurd (show 'x' = '(' from start_eq h) (by decide)
  | enclosed inner ih =>
    cases b with
    | always => exact absurd (show '(' = 't' from start_eq h) (by decide)
    | leaf => exact absurd (show '(' = 'x' from start_eq h) (by decide)
    | enclosed inner' =>
      rw [toList_text_enclosed, toList_text_enclosed] at h
      have hb' : inner'.leaves ⊆ leaves := hb
      obtain ⟨rfl, hrest⟩ := ih ha hb' (hclose r) (hclose r') (List.cons.inj h).2
      exact ⟨rfl, (List.cons.inj hrest).2⟩
    | joined connective left right =>
      -- What is enclosed would be the left side, but it is followed by a parenthesis.
      rw [toList_text_enclosed, toList_text_joined] at h
      obtain ⟨-, hrest⟩ := ih ha (List.append_subset.mp hb).1 (hclose r) (hblank _)
        (List.cons.inj h).2
      exact absurd (List.cons.inj hrest).1 (by decide)
  | joined connective left right ihleft ihright =>
    have hleft := (List.append_subset.mp ha).1
    have hright := (List.append_subset.mp ha).2
    cases b with
    | always => exact absurd (show '(' = 't' from start_eq h) (by decide)
    | leaf => exact absurd (show '(' = 'x' from start_eq h) (by decide)
    | enclosed inner =>
      rw [toList_text_joined, toList_text_enclosed] at h
      have hb' : inner.leaves ⊆ leaves := hb
      obtain ⟨-, hrest⟩ := ihleft hleft hb' (hblank _) (hclose r') (List.cons.inj h).2
      exact absurd (List.cons.inj hrest).1 (by decide)
    | joined connective' left' right' =>
      rw [toList_text_joined, toList_text_joined] at h
      obtain ⟨rfl, hsymbol⟩ := ihleft hleft (List.append_subset.mp hb).1 (hblank _) (hblank _)
        (List.cons.inj h).2
      obtain ⟨rfl, hbehind⟩ := Connective.symbol_append_inj (List.cons.inj hsymbol).2
      obtain ⟨rfl, hrest⟩ := ihright hright (List.append_subset.mp hb).2 (hclose r) (hclose r')
        (List.cons.inj hbehind).2
      exact ⟨rfl, (List.cons.inj hrest).2⟩

end Expression

/-! ## Conditions -/

namespace Condition

/-- Conditions with the same text have the same expression. -/
theorem expression_inj {f g : Condition ρ} (hnames : ConsistentNames (f.leaves ++ g.leaves))
    (h : f.text = g.text) : f.expression = g.expression := by
  have hnil : Stops isNumeric [] := fun c hc => nomatch hc
  refine (Expression.text_append_inj hnames ?_ ?_ hnil hnil ?_).1
  · rw [leaves_expression]
    exact List.subset_append_left _ _
  · rw [leaves_expression]
    exact List.subset_append_right _ _
  · rw [text_expression, text_expression, h]

/-- Conditions with the same text are met by the same records. -/
theorem holds_eq_of_text_eq {f g : Condition ρ} (hnames : ConsistentNames (f.leaves ++ g.leaves))
    (h : f.text = g.text) (record : ρ) : f.holds record = g.holds record := by
  rw [← holds_expression, ← holds_expression, expression_inj hnames h]

/-! ### An instance -/

/-- A leaf whose constant would read as more leaves if its quotes were not escaped. -/
def craftedLeaf : Leaf User := ⟨"Name", .contains User.name "\") || x.Name.Contains(\""⟩

/-- A leaf with a list of constants. -/
def ageLeaf : Leaf User := ⟨"Age", .integer (fun u => u.age.toInt64) (.oneOf [18, 21])⟩

/-- A group of a chain whose first sibling is a chain itself. -/
def nestedChain : Condition User :=
  grouped (chain (chain (leaf craftedLeaf) [(.or, leaf ageLeaf)]) [(.and, leaf craftedLeaf)])

/-- The same siblings in one chain. -/
def flatChain : Condition User :=
  chain (leaf craftedLeaf) [(.or, leaf ageLeaf), (.and, leaf craftedLeaf)]

theorem consistentNames_chains : ConsistentNames (nestedChain.leaves ++ flatChain.leaves) where
  isIdentifier := by decide
  accessor_eq l hl l' hl' h := by
    have hmem : ∀ l ∈ nestedChain.leaves ++ flatChain.leaves, l = craftedLeaf ∨ l = ageLeaf := by
      simp [nestedChain, flatChain, leaves, restLeaves]
    rcases hmem l hl with rfl | rfl <;> rcases hmem l' hl' with rfl | rfl
    · rfl
    · exact absurd h (by decide)
    · exact absurd h (by decide)
    · rfl

theorem holds_eq_of_text_eq_chains :
    ConsistentNames (nestedChain.leaves ++ flatChain.leaves) ∧
      nestedChain.text = flatChain.text ∧ nestedChain ≠ flatChain ∧
        ∀ u, nestedChain.holds u = flatChain.holds u := by
  have htext : nestedChain.text = flatChain.text := by decide +kernel
  exact ⟨consistentNames_chains, htext, nofun, holds_eq_of_text_eq consistentNames_chains htext⟩

end Condition

end RecordFilter
