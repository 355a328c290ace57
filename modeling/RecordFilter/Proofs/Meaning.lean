import RecordFilter.Proofs.Compilation
import Mathlib.Order.Defs.LinearOrder
import Mathlib.Data.String.Basic

/-!
# What a filter means

A filter has a meaning of its own, before anything is compiled: which records it asks for.  It is
said here of the criteria themselves, as a proposition about one record, and compiling is shown to
keep it.

## The meaning

* A leaf compares the field that its property stands for with what its value stands for in the type
  of that field (`Criterion.MeetsLeaf`).  Each type has an equality and an order of its own
  (`FieldOrder`): numbers are compared by their place on the line, so that the value that is not a
  number compares with nothing, and dates by year, month and day.
* A group means what the list of its members means (`meets_of_group`).
* A list of siblings starts from its first criterion and joins each later one by that one's own
  connective, from left to right (`meetsRest_eq_foldl`); the empty list asks for nothing.

## Why compiling keeps it

`test_holds_iff` compares one leaf with its test.  The rest is one induction along the tree: the
truth value that a chain has reached and the proposition that the siblings so far make up stay
equivalent (`KeepsJoining`), whatever the two have started from.
-/

namespace RecordFilter

/-! ## Comparing the values of fields -/

/-- The equality and the order by which the values of a field type are compared. -/
class FieldOrder (α : Type) where
  /-- The two values count as equal. -/
  Same : α → α → Prop
  /-- The first value counts as at most the second. -/
  Within : α → α → Prop

instance : FieldOrder Bool := ⟨(· = ·), (· ≤ ·)⟩

instance : FieldOrder Int64 := ⟨(· = ·), fun a b => a.toInt ≤ b.toInt⟩

instance : FieldOrder Binary64 :=
  ⟨fun x y => ∃ a, x.position = some a ∧ y.position = some a,
    fun x y => ∃ a b, x.position = some a ∧ y.position = some b ∧ a ≤ b⟩

instance : FieldOrder String := ⟨(· = ·), (· ≤ ·)⟩

instance : FieldOrder Date :=
  ⟨(· = ·), fun a b => a.year < b.year ∨
    a.year = b.year ∧ (a.month < b.month ∨ a.month = b.month ∧ a.day ≤ b.day)⟩

/-- The comparisons that constraints are made of decide the order of the type. -/
class DecidesOrder (α : Type) [Comparable α] [FieldOrder α] : Prop where
  same_iff : ∀ {a b : α}, Comparable.same a b = true ↔ FieldOrder.Same a b
  atMost_iff : ∀ {a b : α}, Comparable.atMost a b = true ↔ FieldOrder.Within a b

instance : DecidesOrder Bool where
  same_iff := by
    intro a b
    exact beq_iff_eq
  atMost_iff := by
    intro a b
    change (!a || b) = true ↔ a ≤ b
    cases a <;> cases b <;> decide

instance : DecidesOrder Int64 where
  same_iff := by
    intro a b
    exact beq_iff_eq
  atMost_iff := by
    intro a b
    change decide (a ≤ b) = true ↔ a.toInt ≤ b.toInt
    rw [decide_eq_true_iff, Int64.le_iff_toInt_le]

instance : DecidesOrder Binary64 := ⟨Binary64.same_iff, Binary64.atMost_iff⟩

instance : DecidesOrder String where
  same_iff := by
    intro a b
    exact beq_iff_eq
  atMost_iff := by
    intro a b
    change (!decide (b < a)) = true ↔ a ≤ b
    rw [Bool.not_eq_true', decide_eq_false_iff_not, not_lt]

instance : DecidesOrder Date where
  same_iff := by
    intro a b
    exact decide_eq_true_iff
  atMost_iff := by
    intro a b
    change a.atMost b = true ↔ _
    simp only [Date.atMost, Bool.or_eq_true, Bool.and_eq_true, decide_eq_true_eq, beq_iff_eq]
    rfl

/-! ## The meaning of a filter -/

/-- The value `a` of a field compares in the given way with what a value stands for. -/
def Compares {α : Type} [FieldOrder α] (coerce : Value → Option α) (a : α) :
    Comparison → Value → Prop
  | .equals, v => ∃ k, coerce v = some k ∧ FieldOrder.Same a k
  | .atLeast, v => ∃ k, coerce v = some k ∧ FieldOrder.Within k a
  | .atMost, v => ∃ k, coerce v = some k ∧ FieldOrder.Within a k
  | .oneOf, v =>
    ∃ items, v.items? = some items ∧ ∃ w ∈ items, ∃ k, coerce w = some k ∧ FieldOrder.Same a k
  | .contains, _ => False

variable {ρ : Type}

/-- What an accessor reads from a record compares in the given way with what a value stands for. -/
def Accessor.Compares (record : ρ) : Accessor ρ → Comparison → Value → Prop
  | .string get, .contains, v => ∃ t, v.toText? = some t ∧ t.toList <:+: (get record).toList
  | .boolean get, k, v => RecordFilter.Compares Value.toBoolean? (get record) k v
  | .integer get, k, v => RecordFilter.Compares Value.toInteger? (get record) k v
  | .float get, k, v => RecordFilter.Compares Value.toFloat? (get record) k v
  | .string get, k, v => RecordFilter.Compares Value.toText? (get record) k v
  | .date get, k, v => RecordFilter.Compares Value.toDate? (get record) k v

theorem Accessor.compares_string {record : ρ} {get : ρ → String} {comparison : Comparison}
    (h : comparison ≠ .contains) {v : Value} :
    (Accessor.string get).Compares record comparison v ↔
      RecordFilter.Compares Value.toText? (get record) comparison v := by
  cases comparison with
  | contains => exact absurd rfl h
  | _ => rfl

/-- Joins two propositions. -/
def Connective.Joins : Connective → Prop → Prop → Prop
  | and, p, q => p ∧ q
  | or, p, q => p ∨ q

theorem Connective.join_eq_true_iff {connective : Connective} {a b : Bool} {p q : Prop}
    (ha : a = true ↔ p) (hb : b = true ↔ q) :
    connective.join a b = true ↔ connective.Joins p q := by
  cases connective with
  | and => rw [join, Bool.and_eq_true, ha, hb, Joins]
  | or => rw [join, Bool.or_eq_true, ha, hb, Joins]

namespace Criterion

/-- A record meets a criterion that is no group: the field that the property stands for compares
with the value. -/
def MeetsLeaf (schema : Schema ρ) (settings : Settings) (record : ρ) (c : Criterion) : Prop :=
  ∃ field, schema.resolve c.property settings.ignoresCase = some field ∧
    ∃ v, c.value = some v ∧ field.accessor.Compares record c.comparison v

mutual

/-- A record meets a criterion. -/
def Meets (schema : Schema ρ) (settings : Settings) (record : ρ) : Criterion → Prop
  | ⟨_, _, _, _, some (first :: rest)⟩ =>
    MeetsRest schema settings record (first.Meets schema settings record) rest
  | c => c.MeetsLeaf schema settings record

/-- The siblings so far, which make up a proposition, joined from left to right with those that
follow. -/
def MeetsRest (schema : Schema ρ) (settings : Settings) (record : ρ) (soFar : Prop) :
    List Criterion → Prop
  | [] => soFar
  | next :: rest =>
    MeetsRest schema settings record
      (next.connective.Joins soFar (next.Meets schema settings record)) rest

end

/-- A record meets a list of siblings. -/
def MeetsAll (schema : Schema ρ) (settings : Settings) (record : ρ) : List Criterion → Prop
  | [] => True
  | first :: rest => MeetsRest schema settings record (first.Meets schema settings record) rest

variable {schema : Schema ρ} {settings : Settings} {record : ρ}

/-- A group means what its members mean. -/
theorem meets_of_group {c : Criterion} {ds : List Criterion} (h : c.members? = some ds) :
    c.Meets schema settings record ↔ MeetsAll schema settings record ds := by
  obtain ⟨property, comparison, value, connective, _ | _ | ⟨d, es⟩⟩ := c
  · cases h
  · cases h
  · cases h
    rw [Meets, MeetsAll]

theorem meets_of_leaf {c : Criterion} (h : c.members? = none) :
    c.Meets schema settings record ↔ c.MeetsLeaf schema settings record := by
  obtain ⟨property, comparison, value, connective, _ | _ | ⟨d, es⟩⟩ := c
  · rw [Meets]
    simp
  · rw [Meets]
    simp
  · cases h

/-- Siblings are joined by a left fold. -/
theorem meetsRest_eq_foldl (soFar : Prop) (rest : List Criterion) :
    MeetsRest schema settings record soFar rest =
      rest.foldl (fun p next => next.connective.Joins p (next.Meets schema settings record))
        soFar := by
  induction rest generalizing soFar with
  | nil => rw [MeetsRest, List.foldl_nil]
  | cons next rest ih => rw [MeetsRest, ih, List.foldl_cons]

end Criterion

/-! ## Leaves -/

section Leaves

variable {α : Type} [Comparable α] {field : String} {type : FieldType} {coerce : Value → Option α}

/-- A constraint made of one constant asks what the constant asks that the value stands for. -/
theorem holds_iff_of_constant {f : α → Constraint α} {v : Value} {constraint : Constraint α}
    (h : f <$> Compile.constant field type coerce v = .ok constraint) (a : α) :
    constraint.holds a = true ↔ ∃ k, coerce v = some k ∧ (f k).holds a = true := by
  obtain ⟨k, hk, rfl⟩ := Compile.map_eq_ok_iff.mp h
  rw [Compile.constant_eq_ok_iff] at hk
  simp only [hk, Option.some_inj, exists_eq_left']

variable [FieldOrder α] [DecidesOrder α]

/-- A value is among the constants of a list when it equals what some element stands for. -/
theorem any_constants {items : List Value} {ks : List α}
    (h : Compile.constants field type coerce items = .ok ks) (a : α) :
    ks.any (Comparable.same a) = true ↔
      ∃ w ∈ items, ∃ k, coerce w = some k ∧ FieldOrder.Same a k := by
  induction items generalizing ks with
  | nil =>
    cases h
    simp
  | cons w ws ih =>
    obtain ⟨k, hk, ks, hks, rfl⟩ := Compile.constants_cons_eq_ok_iff.mp h
    rw [List.any_cons, Bool.or_eq_true, ih hks, DecidesOrder.same_iff, List.exists_mem_cons_iff,
      hk]
    simp only [Option.some_inj, exists_eq_left']

/-- The constraint made of a comparison and a value asks what the two ask. -/
theorem constraint_holds_iff {comparison : Comparison} {v : Value} {constraint : Constraint α}
    (h : Compile.constraint field type coerce comparison v = .ok constraint) (a : α) :
    constraint.holds a = true ↔ Compares coerce a comparison v := by
  cases comparison with
  | equals =>
    rw [holds_iff_of_constant h]
    simp only [Constraint.holds, Compares, DecidesOrder.same_iff]
  | atLeast =>
    simp only [Compile.constraint] at h
    split at h
    · rw [holds_iff_of_constant h]
      simp only [Constraint.holds, Compares, DecidesOrder.atMost_iff]
    · cases h
  | atMost =>
    simp only [Compile.constraint] at h
    split at h
    · rw [holds_iff_of_constant h]
      simp only [Constraint.holds, Compares, DecidesOrder.atMost_iff]
    · cases h
  | contains => cases h
  | oneOf =>
    simp only [Compile.constraint] at h
    split at h
    · rename_i items hitems
      obtain ⟨ks, hks, rfl⟩ := Compile.map_eq_ok_iff.mp h
      simp only [Constraint.holds, Compares, any_constants hks, hitems, Option.some_inj,
        exists_eq_left']
    · cases h

end Leaves

/-- The test made of a comparison and a value asks what the two ask. -/
theorem test_holds_iff {field : Field ρ} {comparison : Comparison} {v : Value} {t : Test ρ}
    (h : Compile.test field comparison v = .ok t) (record : ρ) :
    t.holds record = true ↔ field.accessor.Compares record comparison v := by
  obtain ⟨name, accessor⟩ := field
  cases accessor with
  | boolean get =>
    rw [Compile.test_boolean] at h
    obtain ⟨constraint, hc, rfl⟩ := Compile.map_eq_ok_iff.mp h
    exact constraint_holds_iff hc (get record)
  | integer get =>
    rw [Compile.test_integer] at h
    obtain ⟨constraint, hc, rfl⟩ := Compile.map_eq_ok_iff.mp h
    exact constraint_holds_iff hc (get record)
  | float get =>
    rw [Compile.test_float] at h
    obtain ⟨constraint, hc, rfl⟩ := Compile.map_eq_ok_iff.mp h
    exact constraint_holds_iff hc (get record)
  | date get =>
    rw [Compile.test_date] at h
    obtain ⟨constraint, hc, rfl⟩ := Compile.map_eq_ok_iff.mp h
    exact constraint_holds_iff hc (get record)
  | string get =>
    by_cases hk : comparison = .contains
    · subst hk
      rw [Compile.test_contains] at h
      obtain ⟨t, ht, rfl⟩ := Compile.map_eq_ok_iff.mp h
      rw [Compile.constant_eq_ok_iff] at ht
      simp only [Test.holds, Text.contains, Text.occursIn_iff, Accessor.Compares, ht,
        Option.some_inj, exists_eq_left']
    · rw [Compile.test_string hk] at h
      obtain ⟨constraint, hc, rfl⟩ := Compile.map_eq_ok_iff.mp h
      rw [Accessor.compares_string hk]
      exact constraint_holds_iff hc (get record)

/-- The leaf made of a criterion asks what the criterion asks. -/
theorem leaf_holds_iff {schema : Schema ρ} {settings : Settings} {c : Criterion} {l : Leaf ρ}
    (h : Compile.leaf schema settings c = .ok l) (record : ρ) :
    l.holds record = true ↔ c.MeetsLeaf schema settings record := by
  obtain ⟨field, hf, v, hv, t, ht, rfl⟩ := Compile.leaf_eq_ok_iff.mp h
  have hholds := test_holds_iff ht record
  simp only [Leaf.holds, Criterion.MeetsLeaf, hholds, hf, hv, Option.some_inj, exists_eq_left']

/-! ## Filters -/

theorem Condition.holds_ofSiblings_cons (record : ρ) (connective : Connective)
    (first : Condition ρ) (rest : List (Connective × Condition ρ)) :
    (ofSiblings ((connective, first) :: rest)).holds record =
      joinRest record (first.holds record) rest := by
  cases rest with
  | nil => rfl
  | cons next rest => rfl

section Filters

variable (schema : Schema ρ) (settings : Settings) (record : ρ)

/-- However a criterion compiles, its condition holds of the record if the criterion is met. -/
def KeepsMeaning (c : Criterion) : Prop :=
  ∀ (depth : Nat) (path : Path) (condition : Condition ρ),
    Compile.criterion schema settings depth path c = .ok condition →
      (condition.holds record = true ↔ c.Meets schema settings record)

/-- However siblings compile, their conditions join to what the siblings join to, both behind what
came before and on their own. -/
def KeepsJoining (cs : List Criterion) : Prop :=
  ∀ (depth : Nat) (path : Path) (i : Nat) (conditions : List (Connective × Condition ρ)),
    Compile.siblings schema settings depth path i cs = .ok conditions →
      (∀ (soFar : Bool) (p : Prop), (soFar = true ↔ p) →
        (Condition.joinRest record soFar conditions = true ↔
          Criterion.MeetsRest schema settings record p cs)) ∧
      ((Condition.ofSiblings conditions).holds record = true ↔
        Criterion.MeetsAll schema settings record cs)

variable {schema settings record}

theorem keepsMeaning_of_leaf {c : Criterion} (h : c.members? = none) :
    KeepsMeaning schema settings record c := by
  intro depth path condition hc
  obtain ⟨-, l, hl, rfl⟩ := (Compile.criterion_leaf_eq_ok_iff h).mp hc
  rw [Condition.holds_leaf, leaf_holds_iff hl record, Criterion.meets_of_leaf h]

theorem keepsMeaning_of_group {c : Criterion} {ds : List Criterion} (h : c.members? = some ds)
    (hds : KeepsJoining schema settings record ds) : KeepsMeaning schema settings record c := by
  intro depth path condition hc
  obtain ⟨-, conditions, hs, rfl⟩ := (Compile.criterion_group_eq_ok_iff h).mp hc
  rw [Condition.holds_grouped, (hds _ _ _ _ hs).2, Criterion.meets_of_group h]

theorem keepsJoining_nil : KeepsJoining schema settings record [] := by
  intro depth path i conditions h
  rw [Compile.siblings_nil] at h
  cases h
  refine ⟨fun soFar p hp => ?_, ?_⟩
  · rw [Condition.joinRest, Criterion.MeetsRest]
    exact hp
  · simp [Condition.ofSiblings, Criterion.MeetsAll]

theorem keepsJoining_cons {c : Criterion} {cs : List Criterion}
    (hc : KeepsMeaning schema settings record c)
    (hcs : KeepsJoining schema settings record cs) :
    KeepsJoining schema settings record (c :: cs) := by
  intro depth path i conditions h
  obtain ⟨condition, hcondition, rest, hrest, rfl⟩ := Compile.siblings_cons_eq_ok_iff.mp h
  have hfirst := hc _ _ _ hcondition
  have hjoin := (hcs _ _ _ _ hrest).1
  refine ⟨fun soFar p hp => ?_, ?_⟩
  · rw [Condition.joinRest, Criterion.MeetsRest]
    exact hjoin _ _ (Connective.join_eq_true_iff hp hfirst)
  · rw [Condition.holds_ofSiblings_cons, Criterion.MeetsAll]
    exact hjoin _ _ hfirst

theorem keepsJoining (cs : List Criterion) : KeepsJoining schema settings record cs :=
  Criterion.onFilter (fun _ h => keepsMeaning_of_leaf h)
    (fun _ _ h hds => keepsMeaning_of_group h hds) keepsJoining_nil
    (fun _ _ hc hcs => keepsJoining_cons hc hcs) cs

/-- **Compiling keeps the meaning of a filter.**  A predicate accepts the records that meet the
filter it was compiled from, and no others. -/
theorem accepts_iff_meetsAll {filter : List Criterion} {p : Predicate ρ}
    (h : compile schema settings filter = .ok p) (record : ρ) :
    p.accepts record = true ↔ Criterion.MeetsAll schema settings record filter := by
  obtain ⟨conditions, hs, rfl⟩ := Compile.compile_eq_ok_iff.mp h
  exact (keepsJoining filter _ _ _ _ hs).2

end Filters

/-! ### An instance -/

/-- Records that are ages. -/
def ages : Schema Int64 := Schema.empty.register "Age" (.integer id)

/-- Records that are heights. -/
def heights : Schema Binary64 := Schema.empty.register "Height" (.float id)

/-- `Age >= 18 && (Age in ["7", true] || Age <= 30)`. -/
def agesFilter : List Criterion :=
  [.leaf "Age" .atLeast (.integer 18),
    .group [.leaf "Age" .oneOf (.list [.string "7", .boolean true]),
      (Criterion.leaf "Age" .atMost (.integer 30)).joinedBy .or]]

/-- What that filter compiles to. -/
def agesPredicate : Predicate Int64 where
  root := .chain (.leaf ⟨"Age", .integer id (.atLeast 18)⟩)
    [(.and, .grouped (.chain (.leaf ⟨"Age", .integer id (.oneOf [7, 1])⟩)
      [(.or, .leaf ⟨"Age", .integer id (.atMost 30)⟩)]))]

theorem compile_agesFilter : compile ages {} agesFilter = .ok agesPredicate := by
  have hseven : (Integer.ofNumeral? (Value.trimmed "7")).bind Integer.toInt64? = some 7 := by
    decide
  simp [compile, agesFilter, ages, agesPredicate, Criterion.leaf, Criterion.group,
    Criterion.joinedBy, Compile.siblings, Compile.criterion, Compile.leaf, Compile.test_integer,
    Compile.constraint, Compile.constants, Compile.constant, Value.toInteger?, Value.items?,
    hseven, FieldType.isOrdered, Condition.ofSiblings, Functor.map, Except.map, bind, Except.bind,
    pure, Except.pure]

theorem accepts_iff_meetsAll_ages :
    agesPredicate.accepts 20 = true ∧
      (agesPredicate.accepts 20 = true ↔ Criterion.MeetsAll ages {} 20 agesFilter) :=
  ⟨by decide, accepts_iff_meetsAll compile_agesFilter 20⟩

end RecordFilter
