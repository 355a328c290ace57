import RecordFilter.Proofs.DocumentOrder
import RecordFilter.Proofs.Meaning
import RecordFilter.Proofs.Value.Text

/-!
# The value that an error shows

An error about a value shows the text of that value, and no other error shows one.  What it shows is
the value of a leaf of the filter, or an element of the list that membership is asked in
(`Criterion.Offers`).  Since the text of a value determines the value, two errors that show the same
text are about the same value, wherever in their filters the value stands.
-/

namespace RecordFilter

/-- The value whose text an error shows. -/
def CompileError.shown? : CompileError → Option Value
  | invalidValue _ v _ => some v
  | invalidMembership _ v => some v
  | illFormed _ | unknownField _ | unsupported _ _ _ | missingValue _ _ | tooDeep _ => none

/-- The text of the value stands in the message. -/
theorem CompileError.text_infix_message {e : CompileError} {v : Value} (h : e.shown? = some v) :
    v.text.toList <:+: e.message.toList := by
  cases e with
  | invalidValue field w target =>
    obtain rfl := Option.some_inj.mp h
    have hmessage : (invalidValue field w target).message =
        "Invalid value " ++ w.text ++ (" for field '" ++ field ++ "': cannot convert to " ++
          target.name) := by
      simp only [← String.append_assoc]
      rfl
    rw [hmessage, String.toList_append, String.toList_append]
    exact List.infix_append _ _ _
  | invalidMembership field w =>
    obtain rfl := Option.some_inj.mp h
    have hmessage : (invalidMembership field w).message =
        "Value for 'In' on field '" ++ field ++ "' must be a list, got " ++ w.text := rfl
    rw [hmessage, String.toList_append]
    exact (List.suffix_append _ _).isInfix
  | _ => cases h

/-- A value that a criterion may be refused for: its own, or an element of it if membership is
asked. -/
inductive Criterion.Offers (c : Criterion) : Value → Prop where
  | value {v : Value} : c.value = some v → c.Offers v
  | element {items : List Value} {v : Value} : c.comparison = .oneOf →
      c.value = some (.list items) → v ∈ items → c.Offers v

theorem Value.eq_list_of_items? {v : Value} {items : List Value} (h : v.items? = some items) :
    v = .list items := by
  cases v with
  | list items' =>
    obtain rfl := Option.some_inj.mp h
    rfl
  | _ => cases h

section Faults

variable {ρ : Type} {schema : Schema ρ} {settings : Settings} {e : CompileError} {v : Value}

/-- What is wrong with a value is said of the value or of an element of it. -/
theorem ValueFault.offers {field : String} {type : FieldType} {c : Criterion} {payload : Value}
    (hf : ValueFault field type c.comparison payload e) (hvalue : c.value = some payload)
    (h : e.shown? = some v) : c.Offers v := by
  cases hf with
  | unsupported _ => cases h
  | invalidMembership _ _ =>
    obtain rfl := Option.some_inj.mp h
    exact .value hvalue
  | invalidElement hone hitems _ _ =>
    obtain rfl := Option.some_inj.mp h
    rw [Value.eq_list_of_items? hitems] at hvalue
    exact .element hone hvalue (by simp)
  | invalidValue _ _ _ =>
    obtain rfl := Option.some_inj.mp h
    exact .value hvalue

theorem LeafFault.offers {c : Criterion}
    (hf : LeafFault schema settings c.property c.comparison c.value e) (h : e.shown? = some v) :
    c.Offers v := by
  cases hf with
  | unknownField _ => cases h
  | missingValue _ _ => cases h
  | value _ hvalue hf => exact hf.offers hvalue h

/-- Among all that can be wrong with a criterion, only what is wrong with a leaf shows a value. -/
theorem Visit.Fault.offers {c : Criterion} {path : Path}
    (hf : (c.visit path).Fault schema settings e) (h : e.shown? = some v) :
    c.isGroup = false ∧ c.Offers v := by
  cases hf with
  | tooDeep _ _ => cases h
  | illFormed _ _ => cases h
  | leaf hleaf _ hf => exact ⟨hleaf, hf.offers h⟩

/-- The value that the error of a filter shows is offered by a leaf of that filter. -/
theorem exists_offers_of_compile_eq_error {filter : List Criterion}
    (hcompile : compile schema settings filter = .error e) (h : e.shown? = some v) :
    ∃ path c, Criterion.at? path filter = some c ∧ c.isGroup = false ∧ c.Offers v := by
  obtain ⟨before, visit, after, hvisits, -, hf⟩ := compile_eq_error_iff_firstFault.mp hcompile
  have hmem : visit ∈ Criterion.visitsFrom [] 0 filter := by
    rw [hvisits]
    exact List.mem_append_right before List.mem_cons_self
  obtain ⟨path, c, hc, rfl⟩ := Criterion.mem_visits_iff.mp hmem
  exact ⟨path, c, hc, hf.offers h⟩

end Faults

/-- **The text of a value identifies the value.**  Values in which no number other than an integer
occurs are equal if their texts are.  An error that shows a value has its text in the message, and
if the errors of two filters show the same text, they are about one value, which a leaf of either
filter offers. -/
theorem eq_of_shown_text_eq :
    (∀ v w : Value, v.IsFloatFree → w.IsFloatFree → v.text = w.text → v = w) ∧
      (∀ (e : CompileError) (v : Value), e.shown? = some v →
        v.text.toList <:+: e.message.toList) ∧
      ∀ {ρ ρ' : Type} (schema : Schema ρ) (schema' : Schema ρ') (settings settings' : Settings)
        (filter filter' : List Criterion) (e e' : CompileError) (v w : Value),
        compile schema settings filter = .error e →
        compile schema' settings' filter' = .error e' →
        e.shown? = some v → e'.shown? = some w → v.IsFloatFree → w.IsFloatFree →
        v.text = w.text →
          v = w ∧
          (∃ path c, Criterion.at? path filter = some c ∧ c.isGroup = false ∧ c.Offers v) ∧
          ∃ path c, Criterion.at? path filter' = some c ∧ c.isGroup = false ∧ c.Offers v := by
  refine ⟨fun v w hv hw h => Value.text_inj hv hw h, fun e v h => e.text_infix_message h, ?_⟩
  intro ρ ρ' schema schema' settings settings' filter filter' e e' v w hcompile hcompile' hshown
    hshown' hv hw h
  obtain rfl := Value.text_inj hv hw h
  exact ⟨rfl, exists_offers_of_compile_eq_error hcompile hshown,
    exists_offers_of_compile_eq_error hcompile' hshown'⟩

/-! ### An instance -/

/-- A string that ends in a backslash, and another one. -/
def twoStrings : Value := .list [.string "a\\", .string "b"]

/-- One string, which holds what is written between those two. -/
def oneString : Value := .list [.string "a\", \"b"]

theorem isFloatFree_twoStrings : twoStrings.IsFloatFree :=
  Value.isFloatFree_list_iff.mpr (by simp [Value.isFloatFree_string])

theorem isFloatFree_oneString : oneString.IsFloatFree :=
  Value.isFloatFree_list_iff.mpr (by simp [Value.isFloatFree_string])

/-- `Age == ["a\", "b"]`. -/
def equalsTwoStrings : List Criterion := [.leaf "Age" .equals twoStrings]

/-- `(Height in [1, ["a\", "b"]])`. -/
def inTwoStrings : List Criterion :=
  [.group [.leaf "Height" .oneOf (.list [.integer 1, twoStrings])]]

theorem compile_equalsTwoStrings :
    compile ages {} equalsTwoStrings = .error (.invalidValue "Age" twoStrings .integer) := by
  simp [compile, equalsTwoStrings, ages, Criterion.leaf, Compile.siblings, Compile.criterion,
    Compile.leaf, Compile.test_integer, Compile.constraint, Compile.constant, twoStrings,
    Value.toInteger?, Functor.map, Except.map, bind, Except.bind]

theorem compile_inTwoStrings :
    compile heights {} inTwoStrings = .error (.invalidValue "Height" twoStrings .float) := by
  simp [compile, inTwoStrings, heights, Criterion.leaf, Criterion.group, Compile.siblings,
    Compile.criterion, Compile.leaf, Compile.test_float, Compile.constraint, Compile.constants,
    Compile.constant, twoStrings, Value.toFloat?, Value.items?, Functor.map, Except.map, bind,
    Except.bind]

theorem eq_of_shown_text_eq_twoStrings :
    twoStrings.text = "[\"a\\\", \"b\"]" ∧ oneString.text = "[\"a\\\", \\\"b\"]" ∧
      twoStrings.text ≠ oneString.text ∧
      compile ages {} equalsTwoStrings = .error (.invalidValue "Age" twoStrings .integer) ∧
      compile heights {} inTwoStrings = .error (.invalidValue "Height" twoStrings .float) ∧
      ∃ path c, Criterion.at? path inTwoStrings = some c ∧ c.isGroup = false ∧
        c.Offers twoStrings := by
  obtain ⟨htext, -, herrors⟩ := eq_of_shown_text_eq
  have hboth := herrors ages heights {} {} equalsTwoStrings inTwoStrings _ _ twoStrings twoStrings
    compile_equalsTwoStrings compile_inTwoStrings rfl rfl isFloatFree_twoStrings
    isFloatFree_twoStrings rfl
  refine ⟨by decide, by decide, ?_, compile_equalsTwoStrings, compile_inTwoStrings, hboth.2.2⟩
  intro h
  exact absurd (htext _ _ isFloatFree_twoStrings isFloatFree_oneString h) (by decide)

end RecordFilter
