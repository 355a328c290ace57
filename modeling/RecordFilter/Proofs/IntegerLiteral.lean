import RecordFilter.Proofs.Criterion.Gap
import RecordFilter.Proofs.Meaning
import RecordFilter.Proofs.Path
import RecordFilter.Proofs.Places

/-!
# Integers in the text of a filter

An integer that is written in a filter and compared with an integer field is compared as what it
is, or refused, with one exception.  The exception is the first 1024 integers below those of 64 bits
with a sign: their nearest number is `-2 ^ 63`, which is an integer of 64 bits, and the field is
compared with that.

The integer may stand in any text that spells a document, wherever the document of a filter has a
constant (`Criterion.ConstantPlace`): as the value of a criterion or as an item of it, under any
number of groups, in either form of a criterion, among any other members in any order.

* `Compile.constraint_constantAt`: a constraint has its constants where the value of the criterion
  has what they are made of.
* `Criterion.ConstantPlace.IsInOrder.exists_listOfText`: a text that is read with some numeral in a
  place is read with any other that has a value.
* `compile_integer`: what an integer at a place of a filter compiles to.
-/

namespace RecordFilter

open Json (Document Numeral)

/-! ## Constants -/

namespace Constraint

variable {α : Type}

/-- The constant of a constraint, or its constant at a place if it has several. -/
def constantAt : Option Nat → Constraint α → Option α
  | none, equals a => some a
  | none, atLeast a => some a
  | none, atMost a => some a
  | some k, oneOf as => as[k]?
  | _, _ => none

end Constraint

/-- The comparison is with a value itself, or with the items of a list, of which one is picked. -/
def Comparison.Takes (index : Option Nat) (k : Comparison) : Prop :=
  k ≠ .contains ∧ (k = .oneOf ↔ index.isSome = true)

/-- The criterion compares an integer field with a constant, or with several of which one is
picked. -/
structure Criterion.ComparesInteger {ρ : Type} (schema : Schema ρ) (settings : Settings)
    (index : Option Nat) (field : Field ρ) (get : ρ → Int64) (c : Criterion) : Prop where
  isLeaf : c.isLeaf = true
  resolved : schema.resolve c.property settings.ignoresCase = some field
  isInteger : field.accessor = .integer get
  takes : c.comparison.Takes index

namespace Compile

section Constants

variable {α : Type} {field : String} {type : FieldType} {coerce : Value → Option α}

theorem getElem?_constants {vs : List Value} {as : List α}
    (h : constants field type coerce vs = .ok as) {k : Nat} {v : Value} (hv : vs[k]? = some v) :
    ∃ a, coerce v = some a ∧ as[k]? = some a := by
  induction vs generalizing as k with
  | nil => cases hv
  | cons w ws ih =>
    obtain ⟨b, hb, bs, hbs, rfl⟩ := constants_cons_eq_ok_iff.mp h
    cases k with
    | zero =>
      obtain rfl := Option.some_inj.mp hv
      exact ⟨b, hb, rfl⟩
    | succ k => exact ih hbs hv

/-- A list with a value that stands for no constant is refused for it or for one before it. -/
theorem exists_constants_eq_error {vs : List Value} {v : Value} (hv : v ∈ vs)
    (hnone : coerce v = none) : ∃ w, constants field type coerce vs =
      .error (.invalidValue field w type) := by
  induction vs with
  | nil => cases hv
  | cons w ws ih =>
    cases hw : coerce w with
    | none => exact ⟨w, constants_cons_eq_error_iff.mpr (Or.inl ⟨hw, rfl⟩)⟩
    | some a =>
      have hmem : v ∈ ws := by
        rcases List.mem_cons.mp hv with rfl | hmem
        · rw [hw] at hnone
          cases hnone
        · exact hmem
      obtain ⟨u, hu⟩ := ih hmem
      exact ⟨u, constants_cons_eq_error_iff.mpr (Or.inr ⟨⟨a, hw⟩, hu⟩)⟩

variable {index : Option Nat} {comparison : Comparison} {payload v : Value}

/-- A constraint has its constants where the value has what they are made of. -/
theorem constraint_constantAt (hindex : comparison.Takes index)
    (hv : payload.constantAt index = some v) {c : Constraint α}
    (h : constraint field type coerce comparison payload = .ok c) :
    c.comparison = comparison ∧ ∃ a, coerce v = some a ∧ c.constantAt index = some a := by
  obtain ⟨hcontains, hlist⟩ := hindex
  cases index with
  | none =>
    obtain rfl := Option.some_inj.mp hv
    cases comparison with
    | equals =>
      obtain ⟨a, ha, rfl⟩ := map_eq_ok_iff.mp h
      exact ⟨rfl, a, constant_eq_ok_iff.mp ha, rfl⟩
    | atLeast =>
      rw [constraint] at h
      split at h
      · obtain ⟨a, ha, rfl⟩ := map_eq_ok_iff.mp h
        exact ⟨rfl, a, constant_eq_ok_iff.mp ha, rfl⟩
      · cases h
    | atMost =>
      rw [constraint] at h
      split at h
      · obtain ⟨a, ha, rfl⟩ := map_eq_ok_iff.mp h
        exact ⟨rfl, a, constant_eq_ok_iff.mp ha, rfl⟩
      · cases h
    | contains => exact absurd rfl hcontains
    | oneOf => cases hlist.mp rfl
  | some k =>
    obtain rfl := hlist.mpr rfl
    obtain ⟨items, hitems, hk⟩ := Option.bind_eq_some_iff.mp hv
    rw [constraint, hitems] at h
    obtain ⟨as, has, rfl⟩ := map_eq_ok_iff.mp h
    exact ⟨rfl, getElem?_constants has hk⟩

/-- A value that stands for no constant is refused, unless another in the same list is refused
before it. -/
theorem exists_constraint_eq_error (hindex : comparison.Takes index)
    (hv : payload.constantAt index = some v) (hordered : type.isOrdered = true)
    (hnone : coerce v = none) : ∃ w, constraint field type coerce comparison payload =
      .error (.invalidValue field w type) := by
  obtain ⟨hcontains, hlist⟩ := hindex
  cases index with
  | none =>
    obtain rfl := Option.some_inj.mp hv
    have hconstant : constant field type coerce payload =
        .error (.invalidValue field payload type) :=
      constant_eq_error_iff.mpr ⟨hnone, rfl⟩
    refine ⟨payload, ?_⟩
    cases comparison with
    | equals => exact map_eq_error_iff.mpr hconstant
    | atLeast =>
      rw [constraint, if_pos hordered]
      exact map_eq_error_iff.mpr hconstant
    | atMost =>
      rw [constraint, if_pos hordered]
      exact map_eq_error_iff.mpr hconstant
    | contains => exact absurd rfl hcontains
    | oneOf => cases hlist.mp rfl
  | some k =>
    obtain rfl := hlist.mpr rfl
    obtain ⟨items, hitems, hk⟩ := Option.bind_eq_some_iff.mp hv
    obtain ⟨w, hw⟩ := exists_constants_eq_error (List.mem_of_getElem? hk) hnone
    refine ⟨w, ?_⟩
    rw [constraint, hitems]
    exact map_eq_error_iff.mpr hw

end Constants

variable {ρ : Type} {schema : Schema ρ} {settings : Settings} {filter : List Criterion}
  {path : Path} {c : Criterion} {field : Field ρ} {get : ρ → Int64} {v : Value} {index : Option Nat}

/-- A leaf on an integer field has its constant where the criterion has what the constant is made
of. -/
theorem leaf_integer_constantAt (h : c.ComparesInteger schema settings index field get)
    (hv : c.constantAt index = some v) {l : Leaf ρ} (hl : leaf schema settings c = .ok l) :
    ∃ constraint i, l = ⟨field.name, .integer get constraint⟩ ∧
      constraint.comparison = c.comparison ∧ v.toInteger? = some i ∧
      constraint.constantAt index = some i := by
  obtain ⟨payload, hpayload, hat⟩ := Option.bind_eq_some_iff.mp hv
  obtain ⟨name, accessor⟩ := field
  cases h.isInteger
  obtain ⟨_, hresolved, w, hw, t, ht, rfl⟩ := leaf_eq_ok_iff.mp hl
  rw [h.resolved] at hresolved
  cases hresolved
  rw [hpayload] at hw
  cases hw
  rw [test_integer] at ht
  obtain ⟨constraint, hconstraint, rfl⟩ := map_eq_ok_iff.mp ht
  obtain ⟨hcomparison, i, hi, hconstant⟩ := constraint_constantAt h.takes hat hconstraint
  exact ⟨constraint, i, rfl, hcomparison, hi, hconstant⟩

/-- A leaf on an integer field is refused if a value in it stands for no integer. -/
theorem exists_leaf_integer_eq_error (h : c.ComparesInteger schema settings index field get)
    (hv : c.constantAt index = some v) (hnone : v.toInteger? = none) :
    ∃ w, leaf schema settings c = .error (.invalidValue field.name w .integer) := by
  obtain ⟨payload, hpayload, hat⟩ := Option.bind_eq_some_iff.mp hv
  obtain ⟨name, accessor⟩ := field
  cases h.isInteger
  obtain ⟨w, hw⟩ : ∃ w, constraint name .integer Value.toInteger? c.comparison payload =
      .error (.invalidValue name w .integer) := exists_constraint_eq_error h.takes hat rfl hnone
  refine ⟨w, leaf_eq_error_iff.mpr (Or.inr ⟨_, h.resolved, Or.inr ⟨payload, hpayload, ?_⟩⟩)⟩
  rw [test_integer]
  exact map_eq_error_iff.mpr hw

/-- A filter that compiles has the constants of its integer fields where they come from. -/
theorem root_integer_constantAt (hc : Criterion.at? path filter = some c)
    (h : c.ComparesInteger schema settings index field get) (hv : c.constantAt index = some v)
    {p : Predicate ρ} (hp : compile schema settings filter = .ok p) : ∃ constraint i,
      p.root.at? path = some (.leaf ⟨field.name, .integer get constraint⟩) ∧
      constraint.comparison = c.comparison ∧ v.toInteger? = some i ∧
      constraint.constantAt index = some i := by
  obtain ⟨l, hl, hroot⟩ := at?_root hp hc (Criterion.isLeaf_iff.mp h.isLeaf).1
  obtain ⟨constraint, i, rfl, hcomparison, hi, hconstant⟩ := leaf_integer_constantAt h hv hl
  exact ⟨constraint, i, hroot, hcomparison, hi, hconstant⟩

/-- A filter with a leaf that is refused does not compile, and fails for this leaf if all that comes
before it is in order. -/
theorem compile_ne_ok_of_leaf_eq_error (hc : Criterion.at? path filter = some c)
    (hleaf : c.isLeaf = true) {e : CompileError} (he : leaf schema settings c = .error e) :
    (∀ p, compile schema settings filter ≠ .ok p) ∧
      ((∀ path' < path, ∀ d, Criterion.at? path' filter = some d →
        (d.visit path').IsSound schema settings) → compile schema settings filter = .error e) := by
  obtain ⟨hmembers, hproperty⟩ := Criterion.isLeaf_iff.mp hleaf
  constructor
  · intro p hp
    obtain ⟨l, hl, -⟩ := at?_root hp hc hmembers
    rw [he] at hl
    cases hl
  · intro hbefore
    refine compile_eq_error_iff_least.mpr ⟨path, c, hc, ?_, hbefore⟩
    exact .leaf (Criterion.isGroup_eq_false_iff.mpr hmembers) hproperty
      (leaf_eq_error_iff_fault.mp he)

end Compile

/-! ## Numerals in a place -/

namespace Criterion

/-- The document of a filter is in order but for the constant that is missing: with some numeral in
the gap it is read as a filter, from some text. -/
def ConstantPlace.IsInOrder (place : ConstantPlace) : Prop :=
  ∃ n s filter, (place.fill (.number n)).IsSpelledBy s ∧ listOfText s = .ok filter

/-- With a numeral in the gap that has a value, a filter that is in order is read. -/
theorem ConstantPlace.IsInOrder.exists_listOfText {place : ConstantPlace} (h : place.IsInOrder)
    {n : Numeral} (hn : n.value? ≠ none) {s : String}
    (hs : (place.fill (.number n)).IsSpelledBy s) : ∃ filter, listOfText s = .ok filter := by
  obtain ⟨m, t, filter, ht, htext⟩ := h
  obtain ⟨filter', hfilter'⟩ := place.exists_listOfDocument? Document.noConfusion
    ((listOfText_eq_ok_iff_of_isSpelledBy ht).mp htext) (y := .number n) hn (Nat.le_refl 0)
  exact ⟨filter', (listOfText_eq_ok_iff_of_isSpelledBy hs).mpr hfilter'⟩

end Criterion

open Criterion (ConstantPlace)

/-- **An integer in a filter is compared as what it is, or refused.**  Take any text that spells a
document.

* If the text is read as a filter, every constant of the filter comes from a place in the document.
* If the numeral of an integer stands in a place, the text is read unless something else in it is
  out of order or the integer is close to the limit of the numbers; and what is read for the numeral
  is the constant of the criterion that the path of the place leads to.  Let this criterion be a
  leaf on an integer field.
  * If the integer has 64 bits with a sign, or is one of the first 1024 below those, the constant
    stands for it, or for the least integer of 64 bits if it is below; and if the filter compiles,
    the leaf in this place is the comparison with that integer.
  * Any other integer is refused for an invalid value.  The filter does not compile, and it fails
    with this error if all that comes before the leaf is in order. -/
theorem compile_integer {ρ : Type} (schema : Schema ρ) (settings : Settings) {d : Document}
    {s : String} (hs : d.IsSpelledBy s) :
    (∀ filter path c index v, Criterion.listOfText s = .ok filter →
      Criterion.at? path filter = some c → c.constantAt index = some v →
        ∃ (place : ConstantPlace) (x : Document), place.fill x = d ∧ place.path = path ∧
          place.index = index ∧ x.value? = some v) ∧
    ∀ (place : ConstantPlace) (n : Numeral), place.fill (.number n) = d → n.IsInteger →
      (place.IsInOrder → n.integer.natAbs < (twoTo 53 - 3) * twoTo 971 →
        ∃ filter, Criterion.listOfText s = .ok filter) ∧
      ∀ filter, Criterion.listOfText s = .ok filter → ∃ c v,
        Criterion.at? place.path filter = some c ∧ c.constantAt place.index = some v ∧
        (Int64.minValue.toInt - 1024 ≤ n.integer → n.integer ≤ Int64.maxValue.toInt →
          ∃ i, v.toInteger? = some i ∧ i.toInt = max n.integer Int64.minValue.toInt ∧
            ∀ field get, c.ComparesInteger schema settings place.index field get →
              ∀ p, compile schema settings filter = .ok p → ∃ constraint,
                p.root.at? place.path = some (.leaf ⟨field.name, .integer get constraint⟩) ∧
                constraint.comparison = c.comparison ∧
                constraint.constantAt place.index = some i) ∧
        (n.integer < Int64.minValue.toInt - 1024 ∨ Int64.maxValue.toInt < n.integer →
          ∀ field get, c.ComparesInteger schema settings place.index field get →
            ∃ w, Compile.leaf schema settings c = .error (.invalidValue field.name w .integer) ∧
              (∀ p, compile schema settings filter ≠ .ok p) ∧
              ((∀ path < place.path, ∀ e, Criterion.at? path filter = some e →
                  (e.visit path).IsSound schema settings) →
                compile schema settings filter =
                  .error (.invalidValue field.name w .integer))) := by
  refine ⟨fun filter path c index v htext hc hv => ?_, ?_⟩
  · have hread := (Criterion.listOfText_eq_ok_iff_of_isSpelledBy hs).mp htext
    exact Criterion.exists_constantPlace hread hc hv
  · rintro place n rfl hn
    refine ⟨fun horder hsmall => ?_, fun filter htext => ?_⟩
    · refine horder.exists_listOfText (fun hnone => ?_) hs
      exact absurd (hn.le_of_value?_eq_none hnone) (Nat.not_le_of_lt hsmall)
    · have hread := (Criterion.listOfText_eq_ok_iff_of_isSpelledBy hs).mp htext
      obtain ⟨c, v, hc, hv, hvalue⟩ := place.exists_constantAt Document.noConfusion hread
      refine ⟨c, v, hc, hv, fun hlow hhigh => ?_, fun hpast field get hcompares => ?_⟩
      · obtain ⟨v', i, hv', hi, hmax⟩ := hn.exists_toInteger?_value? hlow hhigh
        obtain rfl : v' = v := Option.some_inj.mp (hv'.symm.trans hvalue)
        refine ⟨i, hi, hmax, fun field get hcompares p hp => ?_⟩
        obtain ⟨constraint, j, hroot, hcomparison, hj, hconstant⟩ :=
          Compile.root_integer_constantAt hc hcompares hv hp
        obtain rfl : i = j := Option.some_inj.mp (hi.symm.trans hj)
        exact ⟨constraint, hroot, hcomparison, hconstant⟩
      · obtain ⟨w, hw⟩ := Compile.exists_leaf_integer_eq_error hcompares hv
          (hn.toInteger?_value?_eq_none hpast hvalue)
        exact ⟨w, hw, Compile.compile_ne_ok_of_leaf_eq_error hc hcompares.isLeaf hw⟩

/-! ### Instances -/

/-- The number `-2 ^ 63`. -/
def leastFloat : Binary64 := .finite true ⟨twoTo 52, 1085, by decide⟩

theorem toInteger?_leastFloat : (Value.float leastFloat).toInteger? = some Int64.minValue := by
  decide +kernel

/-- `Age == -9223372036854775809`, of which the number is the first integer below those of 64 bits
with a sign. -/
def belowLeastText : String :=
  "[\x7b\"propertyName\":\"Age\",\"operator\":\"Equals\",\"value\":-9223372036854775809\x7d]"

/-- `-9223372036854775809` in the text of a filter is compared as `-9223372036854775808`. -/
theorem compile_belowLeast :
    ∃ filter, Criterion.listOfText belowLeastText = .ok filter ∧
      compile ages {} filter = .ok ⟨.leaf ⟨"Age", .integer id (.equals Int64.minValue)⟩⟩ ∧
      Int64.minValue.toInt ≠ -9223372036854775809 := by
  have htext : Criterion.listOfText belowLeastText =
      .ok [.leaf "Age" .equals (.float leastFloat)] :=
    Json.Reader.eq_ok_of_toOption (by decide +kernel)
  refine ⟨_, htext, ?_, by decide +kernel⟩
  simp [compile, ages, Criterion.leaf, Compile.siblings, Compile.criterion, Compile.leaf,
    Compile.test_integer, Compile.constraint, Compile.constant, toInteger?_leastFloat,
    Condition.ofSiblings, Functor.map, Except.map, bind, Except.bind, pure, Except.pure]

/-- `(Age in [7, _, 30])`, with a gap for an integer.  The group has a member that is of no part,
and holds its own under the second name of the children. -/
def agesJson (k : Int) : Json :=
  .array [.object [("note", .null), ("nestedFilters", .array [.object
    [("value", .array [.integer 7, .integer k, .integer 30]), ("operator", .string "In"),
      ("propertyName", .string "Age")]])]]

/-- The place of that gap. -/
def agesPlace : ConstantPlace where
  filter := .children [] (.member [(some "note", .null)] "nestedFilters" (by decide) [])
    (.value [] (.member [] "value" (by decide)
      [(some "operator", .string (some "In")), (some "propertyName", .string (some "Age"))]) []) []
  value := .item [.number (Json.Reader.integerNumeral 7)] [.number (Json.Reader.integerNumeral 30)]

theorem fill_agesPlace (k : Int) :
    agesPlace.fill (.number (Json.Reader.integerNumeral k)) = (agesJson k).document := rfl

theorem isInteger_integerNumeral (k : Int) : (Json.Reader.integerNumeral k).IsInteger :=
  ⟨Json.Reader.isProper_integerNumeral k, rfl, rfl⟩

theorem isSpelledBy_agesJson (k : Int) :
    (agesJson k).document.IsSpelledBy ((agesJson k).text .indented ++ "\n") :=
  Json.isSpelledBy_text rfl .indented (.cons rfl .none)

/-- The filter that is read, with a value in the gap. -/
def agesInFilter (v : Value) : List Criterion :=
  [.group [.leaf "Age" .oneOf (.list [.integer 7, v, .integer 30])]]

theorem comparesInteger_agesIn (v : Value) :
    (Criterion.leaf "Age" .oneOf (.list [.integer 7, v, .integer 30])).ComparesInteger ages {}
      (some 1) ⟨"Age", .integer id⟩ id where
  isLeaf := rfl
  resolved := Schema.resolve_register_self _ _ _ _
  isInteger := rfl
  takes := show Comparison.Takes (some 1) .oneOf from ⟨by decide, by decide⟩

theorem listOfText_belowLeast :
    Criterion.listOfText ((agesJson (-9223372036854775809)).text .indented ++ "\n") =
      .ok (agesInFilter (.float leastFloat)) :=
  (Criterion.listOfText_eq_ok_iff_of_isSpelledBy (isSpelledBy_agesJson _)).mpr (by decide +kernel)

/-- The number `2 ^ 63`. -/
def pastFloat : Binary64 := .finite false ⟨twoTo 52, 1085, by decide⟩

theorem listOfText_aboveGreatest :
    Criterion.listOfText ((agesJson 9223372036854775808).text .indented ++ "\n") =
      .ok (agesInFilter (.float pastFloat)) :=
  (Criterion.listOfText_eq_ok_iff_of_isSpelledBy (isSpelledBy_agesJson _)).mpr (by decide +kernel)

theorem exists_compile_agesIn :
    ∃ p, compile ages {} (agesInFilter (.float leastFloat)) = .ok p := by
  simp [agesInFilter, compile, ages, Criterion.leaf, Criterion.group, Compile.siblings,
    Compile.criterion, Compile.leaf, Compile.test_integer, Compile.constraint, Compile.constants,
    Compile.constant, Value.items?, Value.toInteger?.eq_1, toInteger?_leastFloat, Functor.map,
    Except.map, bind, Except.bind, pure, Except.pure]

/-- Only the group comes before its member, and it is within the limit. -/
theorem isSound_before_agesIn (v : Value) : ∀ path < agesPlace.path, ∀ e,
    Criterion.at? path (agesInFilter v) = some e → (e.visit path).IsSound ages {} := by
  intro path hpath e he
  rcases path with _ | ⟨i, path⟩
  · cases he
  · rcases List.cons_lt_cons_iff.mp hpath with hlt | ⟨rfl, hlt⟩
    · exact absurd hlt (Nat.not_lt_zero i)
    · rcases path with _ | ⟨j, path⟩
      · cases he
        exact visit_isSound_iff.mpr ⟨fun _ => by decide, fun hgroup => by cases hgroup⟩
      · rcases List.cons_lt_cons_iff.mp hlt with hlt | ⟨-, hlt⟩
        · exact absurd hlt (Nat.not_lt_zero j)
        · exact absurd hlt (List.not_lt_nil path)

theorem isInOrder_agesPlace : agesPlace.IsInOrder :=
  ⟨_, _, _, fill_agesPlace _ ▸ isSpelledBy_agesJson _, listOfText_belowLeast⟩

/-- The first integer below those of 64 bits is compared as the least of them, the first above them
is refused, and the text is read with an integer of two hundred digits. -/
theorem compile_integer_ages :
    ((agesJson (-9223372036854775809)).document.IsSpelledBy
        ((agesJson (-9223372036854775809)).text .indented ++ "\n") ∧
      ∃ p constraint, compile ages {} (agesInFilter (.float leastFloat)) = .ok p ∧
        p.root.at? [0, 0] = some (.leaf ⟨"Age", .integer id constraint⟩) ∧
        constraint.constantAt (some 1) = some Int64.minValue) ∧
    ((agesJson 9223372036854775808).document.IsSpelledBy
        ((agesJson 9223372036854775808).text .indented ++ "\n") ∧
      ∃ w, compile ages {} (agesInFilter (.float pastFloat)) =
        .error (.invalidValue "Age" w .integer)) ∧
    ∃ filter, Criterion.listOfText ((agesJson (10 ^ 200)).text .indented ++ "\n") =
      .ok filter := by
  refine ⟨⟨isSpelledBy_agesJson _, ?_⟩, ⟨isSpelledBy_agesJson _, ?_⟩, ?_⟩
  · obtain ⟨p, hp⟩ := exists_compile_agesIn
    obtain ⟨c, v, hc, hv, hwithin, -⟩ := ((compile_integer ages {}
      (isSpelledBy_agesJson (-9223372036854775809))).2 agesPlace _
      (fill_agesPlace _) (isInteger_integerNumeral _)).2 _ listOfText_belowLeast
    cases hc
    obtain ⟨i, -, hmax, hcompiled⟩ := hwithin (by decide +kernel) (by decide +kernel)
    obtain ⟨constraint, hroot, -, hconstant⟩ :=
      hcompiled _ _ (comparesInteger_agesIn (.float leastFloat)) p hp
    have hleast : i = Int64.minValue := Int64.toInt_inj.mp (hmax.trans (by decide +kernel))
    exact ⟨p, constraint, hp, hroot, hleast ▸ hconstant⟩
  · obtain ⟨c, v, hc, hv, -, hpast⟩ := ((compile_integer ages {}
      (isSpelledBy_agesJson 9223372036854775808)).2 agesPlace _
      (fill_agesPlace _) (isInteger_integerNumeral _)).2 _ listOfText_aboveGreatest
    cases hc
    obtain ⟨w, -, -, herror⟩ := hpast (Or.inr (by decide +kernel)) _ _
      (comparesInteger_agesIn (.float pastFloat))
    exact ⟨w, herror (isSound_before_agesIn _)⟩
  · exact ((compile_integer ages {} (isSpelledBy_agesJson (10 ^ 200))).2 agesPlace _
      (fill_agesPlace _) (isInteger_integerNumeral _)).1 isInOrder_agesPlace (by decide +kernel)

end RecordFilter
