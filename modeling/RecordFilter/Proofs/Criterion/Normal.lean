import RecordFilter.Proofs.Criterion.RoundTrip
import RecordFilter.Proofs.Json.Yields

/-!
# Every filter text has a normal form

A filter can be written in many ways: the members of a criterion in any order, under other names, or
as an array without names, comparisons under other words, numbers in other digits, and members that
nobody asks for.  The text of what was read is the normal form.  It may be shorter or longer than the
text that was read, and it is accepted again.

Two facts about everything that the readers make carry this.  Its numbers are finite, so that each
has a form of its own.  And its own text opens at most as many brackets as the readers may open:
where a text has one bracket for a criterion, an array or an object, the normal form has one as well,
and brackets that leave no trace in what was read can only be more.

* `Value.yields_reader`, `yields_listReader`: whatever is read has such a form.
* `listOfText_listText_of_listOfText`: the normal form is read, and read as the same filter if the
  numbers in it are read from their texts.
-/

namespace RecordFilter

open Json.Reader

namespace Value

/-! ## Values -/

/-- Each number in the value is finite, and the text of the value opens at most the given number of
brackets at once. -/
structure HasForm (brackets : Nat) (v : Value) : Prop where
  nesting_le : v.toJson.nesting ≤ brackets
  isFinite : ∀ x, v.Has x → x.isFinite = true

theorem hasForm_float {x : Binary64} (hx : x.isFinite = true) (brackets : Nat) :
    (float x).HasForm brackets where
  nesting_le := by
    rw [toJson, if_pos hx]
    exact Nat.zero_le _
  isFinite y hy := by
    rw [has_float_iff.mp hy]
    exact hx

theorem hasForm_list {items : List Value} {brackets : Nat} (h : ∀ v ∈ items, v.HasForm brackets) :
    (list items).HasForm (brackets + 1) where
  nesting_le := by
    rw [toJson, Json.nesting, Nat.add_le_add_iff_right, toJsons_eq_map, Json.nestingItems_le_iff]
    intro j hj
    obtain ⟨v, hv, rfl⟩ := List.mem_map.mp hj
    exact (h v hv).nesting_le
  isFinite x hx := by
    obtain ⟨v, hv, hx⟩ := has_list_iff.mp hx
    exact (h v hv).isFinite x hx

/-- The value that the JSON stands for, if there is one, has a form. -/
def StandsForForm (brackets : Nat) (j : Json) : Prop :=
  ∀ v, ofJson? j = some v → v.HasForm brackets

theorem standsForForm_integer {n : Int} (hn : Json.IsWord n) (brackets : Nat) :
    StandsForForm brackets (.integer n) := by
  intro v hv
  rw [ofJson?] at hv
  split at hv
  · cases hv
    exact ⟨Nat.zero_le _, fun x hx => by cases hx⟩
  · cases hv
    exact hasForm_float (Binary64.isFinite_ofInt hn) brackets

theorem exists_mem_of_ofJsons? {js : List Json} {vs : List Value} (h : ofJsons? js = some vs) :
    ∀ v ∈ vs, ∃ j ∈ js, ofJson? j = some v := by
  induction js generalizing vs with
  | nil =>
    rw [ofJsons?] at h
    cases h
    intro v hv
    cases hv
  | cons j js ih =>
    rw [ofJsons?] at h
    obtain ⟨w, hw, h⟩ := Option.bind_eq_some_iff.mp h
    obtain ⟨ws, hws, h⟩ := Option.bind_eq_some_iff.mp h
    cases h
    rw [List.forall_mem_cons]
    refine ⟨⟨j, List.mem_cons_self, hw⟩, fun v hv => ?_⟩
    obtain ⟨k, hk, hv⟩ := ih hws v hv
    exact ⟨k, List.mem_cons_of_mem j hk, hv⟩

theorem standsForForm_array {js : List Json} {brackets : Nat}
    (h : ∀ j ∈ js, StandsForForm brackets j) : StandsForForm (brackets + 1) (.array js) := by
  intro v hv
  rw [ofJson?] at hv
  obtain ⟨vs, hvs, rfl⟩ := Option.map_eq_some_iff.mp hv
  refine hasForm_list fun w hw => ?_
  obtain ⟨j, hj, hw⟩ := exists_mem_of_ofJsons? hvs w hw
  exact h j hj w hw

/-- A value that is no array opens no bracket, and the items of an array have one bracket less. -/
theorem yields_valueOf {item : Option (Json.Reader Json)} {brackets : Nat}
    (h : ∀ r, item = some r → ∃ n, brackets = n + 1 ∧ Yields r (StandsForForm n)) :
    Yields (valueOf item) (StandsForForm brackets) := by
  refine yields_token.bind fun t ht => ?_
  cases t with
  | null => exact yields_pure fun v hv => by cases hv
  | boolean b =>
    refine yields_pure fun v hv => ?_
    cases hv
    exact ⟨Nat.zero_le _, fun x hx => by cases hx⟩
  | integer n => exact yields_pure (standsForForm_integer ht brackets)
  | float x =>
    refine yields_pure fun v hv => ?_
    cases hv
    exact hasForm_float ht brackets
  | string s =>
    refine yields_pure fun v hv => ?_
    cases hv
    exact ⟨Nat.zero_le _, fun x hx => by cases hx⟩
  | array =>
    cases item with
    | none => exact yields_fail _
    | some r =>
      obtain ⟨n, rfl, hr⟩ := h r rfl
      exact (hr.items ']').map fun js hjs => standsForForm_array hjs
  | object =>
    cases item with
    | none => exact yields_fail _
    | some r => exact (yields_true _).map fun ms _ v hv => by cases hv

theorem yields_document (brackets : Nat) :
    Yields (document brackets) (StandsForForm brackets) := by
  induction brackets with
  | zero => exact yields_valueOf fun r hr => by cases hr
  | succ n ih =>
    refine yields_valueOf fun r hr => ⟨n, rfl, ?_⟩
    cases hr
    exact ih

/-- Whatever value is read has finite numbers and opens no more brackets than its reader may. -/
theorem yields_reader (brackets : Nat) : Yields (reader brackets) (HasForm brackets) := by
  refine (yields_document brackets).bind fun j hj => ?_
  split
  · exact yields_pure (hj _ ‹_›)
  · exact yields_mismatched _

end Value

namespace Criterion

/-! ## Criteria -/

/-- Each number in the value of the criterion is finite. -/
def IsFinite (c : Criterion) : Prop := ∀ v, c.value = some v → ∀ x, v.Has x → x.isFinite = true

/-- Each number in the criteria is finite, and the text of the criteria opens at most the given
number of brackets at once. -/
structure HaveForm (brackets : Nat) (cs : List Criterion) : Prop where
  nesting_le : (Json.array (toJsons cs)).nesting ≤ brackets
  isFinite : Everywhere IsFinite cs

/-- The value and the children of the criterion have a form. -/
structure HasForm (brackets : Nat) (c : Criterion) : Prop where
  value : ∀ v, c.value = some v → v.HasForm brackets
  children : ∀ ds, c.children = some ds → HaveForm brackets ds

/-- A criterion opens a bracket around its value and its children, and a list opens one around its
criteria. -/
theorem haveForm_of_forall {cs : List Criterion} {brackets : Nat}
    (h : ∀ c ∈ cs, ∃ n, brackets = n + 1 ∧ c.HasForm n) : HaveForm (brackets + 1) cs where
  nesting_le := by
    rw [Json.nesting, Nat.add_le_add_iff_right, nestingItems_toJsons_le_iff]
    intro c hc
    obtain ⟨n, rfl, hform⟩ := h c hc
    rw [nesting_toJson_le_iff]
    exact ⟨fun v hv => (hform.value v hv).nesting_le,
      fun ds hds => (hform.children ds hds).nesting_le⟩
  isFinite := by
    rw [everywhere_iff_forall]
    intro c hc
    obtain ⟨n, -, hform⟩ := h c hc
    exact ⟨fun v hv => (hform.value v hv).isFinite,
      fun ds hds => (hform.children ds hds).isFinite⟩

/-- Every member of a criterion keeps what is known of its value and its children. -/
theorem yields_member {brackets : Nat} {children : Json.Reader (List Criterion)}
    (h : Yields children (HaveForm brackets)) :
    ∀ m ∈ jsonMembers brackets children, ∀ c, HasForm brackets c →
      Yields (m.read c) (HasForm brackets) := by
  intro m hm c hc
  simp only [jsonMembers, List.mem_cons, List.not_mem_nil, or_false] at hm
  rcases hm with rfl | rfl | rfl | rfl | rfl
  · exact (yields_true _).map fun _ _ => ⟨hc.value, hc.children⟩
  · exact (yields_true _).map fun _ _ => ⟨hc.value, hc.children⟩
  · exact (Value.yields_reader brackets).nullable.map fun _ hvalue => ⟨hvalue, hc.children⟩
  · exact (yields_true _).map fun _ _ => ⟨hc.value, hc.children⟩
  · exact h.nullable.map fun _ hchildren => ⟨hc.value, hchildren⟩

theorem hasForm_default (brackets : Nat) : HasForm brackets {} where
  value _ hv := nomatch hv
  children _ hds := nomatch hds

mutual

/-- Whatever criterion is read has a form inside the bracket that its reader opens. -/
theorem yields_reader : ∀ brackets : Nat,
    Yields (reader brackets) fun c => ∃ n, brackets = n + 1 ∧ HasForm n c
  | 0 => by
    rw [reader]
    exact (yields_record_none _ _).mono fun _ h => h.elim
  | n + 1 => by
    rw [reader]
    have hrecord := yields_record (yields_member (yields_listReader n)) (hasForm_default n)
      "FilterNode"
    exact hrecord.mono fun c hc => ⟨n, rfl, hc⟩

/-- Whatever criteria are read have finite numbers and open no more brackets than their reader
may. -/
theorem yields_listReader : ∀ brackets : Nat, Yields (listReader brackets) (HaveForm brackets)
  | 0 => by
    rw [listReader]
    exact yields_list_none.mono fun _ h => h.elim
  | n + 1 => by
    rw [listReader]
    exact (yields_reader n).list.mono fun cs hcs => haveForm_of_forall hcs

end

/-! ## The normal form -/

theorem haveForm_of_listOfText {s : String} {filter : List Criterion}
    (h : listOfText s = .ok filter) : HaveForm bracketLimit filter :=
  (yields_listReader bracketLimit).of_complete h

/-- The numbers of a filter with a form are finite, wherever they stand. -/
theorem HaveForm.isFinite_of_carries {brackets : Nat} {filter : List Criterion}
    (h : HaveForm brackets filter) {v : Value} {x : Binary64} (hv : Carries filter v)
    (hx : v.Has x) : x.isFinite = true := by
  obtain ⟨path, c, hc, hv⟩ := hv
  exact h.isFinite path c hc v hv x hx

/-- The text of whatever was read is accepted. -/
theorem exists_listOfText_listText {s : String} {filter : List Criterion}
    (h : listOfText s = .ok filter) : ∃ ds, listOfText (listText filter) = .ok ds := by
  have hform := haveForm_of_listOfText h
  cases htext : listOfText (listText filter) with
  | ok ds => exact ⟨ds, rfl⟩
  | error e =>
    exfalso
    rcases exists_error_iff_nesting.mp ⟨e, htext⟩ with hdeep | ⟨items, x, hitems, hx, hinfinite⟩
    · exact absurd hform.nesting_le (Nat.not_le.mpr hdeep)
    · rw [hform.isFinite_of_carries hitems hx] at hinfinite
      cases hinfinite

/-- **Every accepted text has a normal form.** If a text is accepted, however it is written, then
the text of the filter that was read is accepted as well.  If moreover each number in the filter is
read from its own text, then this text is read as the same filter, so that the filter that is read
has the identical text again. -/
theorem listOfText_listText_of_listOfText {s : String} {filter : List Criterion}
    (h : listOfText s = .ok filter) :
    (∃ ds, listOfText (listText filter) = .ok ds) ∧
      ((∀ v x, Carries filter v → v.Has x →
          Value.ofText (x.text Json.numberLayout) = .ok (.float x)) →
        listOfText (listText filter) = .ok filter ∧
          ∀ ds, listOfText (listText filter) = .ok ds → listText ds = listText filter) := by
  obtain ⟨ds, hds⟩ := exists_listOfText_listText h
  refine ⟨⟨ds, hds⟩, fun hnumbers => ?_⟩
  have hsame : ds = filter := by
    refine (eq_iff_of_listOfText hds).mpr ⟨fun x hx => ?_, fun v x hv hx _ => hnumbers v x hv hx⟩
    exact (haveForm_of_listOfText h).isFinite_of_carries hx .float
  rw [hsame] at hds
  refine ⟨hds, fun es hes => ?_⟩
  rw [hds] at hes
  cases hes
  rfl

/-! ### An instance -/

/-- `halfFilter`, written with other names and words, with blanks, escapes, other digits and null,
with a member that nobody asks for, and with criteria without names. -/
def halfText : String :=
  "[\x7b \"note\": [1, \x7b\x7d], \"value\": null, \"nestedFilters\":
    [[\"T\\u006ftal\", \x7b\"In\": null\x7d, [0.50]]] \x7d,
    [\"Total\", \"GreaterThanOrEqual\", 5e-1, \"Or\"]]"

theorem listOfText_halfText : listOfText halfText = .ok halfFilter :=
  eq_ok_of_toOption (by decide +kernel)

theorem listOfText_listText_of_listOfText_half : listOfText halfText = .ok halfFilter ∧
    listOfText (listText halfFilter) = .ok halfFilter := by
  refine ⟨listOfText_halfText, ?_⟩
  refine ((listOfText_listText_of_listOfText listOfText_halfText).2 fun v x hv hx => ?_).1
  rw [eq_half_of_carries hv hx, Value.ofText_text_iff rfl]
  decide +kernel

end Criterion

end RecordFilter
