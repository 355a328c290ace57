import RecordFilter.Criterion.Json
import RecordFilter.Proofs.DocumentOrder
import RecordFilter.Proofs.Value.RoundTrip

/-!
# Writing a filter and reading it back

A filter is written as an array of criteria, each of them an object, and it is read straight from
its text.  What is read is `Criterion.rereadList?`: the same tree, in which each value is what its
own text is read as (`Value.rereadOptional?`), or nothing if a bracket opens too deep or a value is
refused.

* `reads_reader`, `listOfText_eq_ok_iff`: the text of a criterion, and of a filter, is read as this.
  The members of a criterion stand in the order in which they are written, and each is read by its
  name into the criterion so far (`folds_written`).
* `isSome_rereadList?_iff`: a filter is read exactly when its brackets do not nest too deep and
  every criterion is readable.
* `eq_iff_of_rereadList?`: it is read as itself exactly when every criterion comes back.
* `listOfText_listText`: both together, said of the text alone.

## What is lost

A value that is a number without a form in JSON is written as null, and null in place of a value is
no value, so it is lost without an error.  In a list null is no value either, and there it is an
error.  A finite number is rounded while it is read, and what comes back may be next to what was
written; the theorem asks for those numbers to come back, and for no others.
-/

namespace RecordFilter.Criterion

open Json (Reader writeMember)
open Json.Reader

/-! ## What is read -/

/-- What the text of a criterion's value is read as, if it has one. -/
def rereadValue? (brackets : Nat) : Option Value → Option (Option Value)
  | none => some none
  | some v => v.rereadOptional? brackets

mutual

/-- The criterion that the text of a criterion is read as with the given number of brackets. -/
def reread? : Nat → Criterion → Option Criterion
  | 0, _ => none
  | brackets + 1, ⟨property, comparison, value, connective, children⟩ => do
    let value ← rereadValue? brackets value
    let children ← rereadChildren? brackets children
    return ⟨property, comparison, value, connective, children⟩

/-- What the text of a criterion's children is read as, if it has any. -/
def rereadChildren? : Nat → Option (List Criterion) → Option (Option (List Criterion))
  | _, none => some none
  | 0, some _ => none
  | brackets + 1, some cs => (rereads? brackets cs).map some

/-- The criteria that the texts of the criteria of a list are read as. -/
def rereads? (brackets : Nat) : List Criterion → Option (List Criterion)
  | [] => some []
  | c :: cs => do
    let d ← reread? brackets c
    let ds ← rereads? brackets cs
    return d :: ds

end

/-- The filter that the text of a filter is read as with the given number of brackets. -/
def rereadList? : Nat → List Criterion → Option (List Criterion)
  | 0, _ => none
  | brackets + 1, cs => rereads? brackets cs

theorem rereads?_eq_mapM (brackets : Nat) (cs : List Criterion) :
    rereads? brackets cs = cs.mapM (reread? brackets) := by
  induction cs with
  | nil => rfl
  | cons c cs ih => rw [rereads?, ih, List.mapM_cons]

theorem rereads?_cons (brackets : Nat) (c : Criterion) (cs : List Criterion) :
    rereads? brackets (c :: cs) =
      (c.reread? brackets).bind fun d => (rereads? brackets cs).map (d :: ·) := by
  rw [rereads?]
  cases rereads? brackets cs <;> rfl

theorem rereadChildren?_some (brackets : Nat) (cs : List Criterion) :
    rereadChildren? brackets (some cs) = (rereadList? brackets cs).map some := by
  cases brackets with
  | zero =>
    rw [rereadChildren?]
    rfl
  | succ brackets => rw [rereadChildren?, rereadList?]

theorem reread?_succ (brackets : Nat) (property : String) (comparison : Comparison)
    (value : Option Value) (connective : Connective) (children : Option (List Criterion)) :
    reread? (brackets + 1) ⟨property, comparison, value, connective, children⟩ =
      (rereadValue? brackets value).bind fun value =>
        (rereadChildren? brackets children).map fun children =>
          ⟨property, comparison, value, connective, children⟩ := by
  rw [reread?]
  cases rereadChildren? brackets children <;> rfl

/-- The members that a criterion is written with. -/
def written (c : Criterion) : List (String × Json) :=
  [("propertyName", .string c.property), ("operator", .string c.comparison.name)] ++
    (c.value.map fun v => ("value", v.toJson)).toList ++
    [("logicalOperator", .string c.connective.name)] ++ childrenToJson c.children

theorem toJson_eq (c : Criterion) : c.toJson = .object c.written := by
  cases c
  rw [toJson]
  rfl

theorem toJsons_eq_map (cs : List Criterion) : toJsons cs = cs.map toJson := by
  induction cs with
  | nil => rfl
  | cons c cs ih => rw [toJsons, ih, List.map_cons]

/-! ## Reading members -/

theorem lookup_comparison : ∀ k : Comparison, Comparison.words.lookup k.name = some k := by
  intro k
  cases k <;> rfl

theorem lookup_connective : ∀ j : Connective, Connective.words.lookup j.name = some j := by
  intro j
  cases j <;> rfl

section Members

variable (brackets depth : Nat) (children : Reader (List Criterion)) (c : Criterion)
  {given : List String}

theorem reads_property (property : String) (h : given.contains "propertyName" = false) :
    Reads (named (jsonMembers brackets children) (c, given))
      (writeMember "propertyName" ((Json.string property).write .compact depth))
      (some ({ c with property }, "propertyName" :: given)) := by
  rw [Json.write_string]
  exact reads_named (jsonMembers brackets children) "propertyName" rfl h rfl
    (reads_string property)

theorem reads_comparison (comparison : Comparison) (h : given.contains "operator" = false) :
    Reads (named (jsonMembers brackets children) (c, given))
      (writeMember "operator" ((Json.string comparison.name).write .compact depth))
      (some ({ c with comparison }, "operator" :: given)) := by
  rw [Json.write_string]
  exact reads_named (jsonMembers brackets children) "operator" rfl h rfl
    (reads_choice (lookup_comparison comparison) _)

theorem reads_value (v : Value) (h : given.contains "value" = false) :
    Reads (named (jsonMembers brackets children) (c, given))
      (writeMember "value" (v.toJson.write .compact depth))
      ((v.rereadOptional? brackets).map fun value => ({ c with value }, "value" :: given)) :=
  reads_named (jsonMembers brackets children) "value" rfl h rfl
    (v.reads_nullable_reader brackets depth)

theorem reads_connective (connective : Connective)
    (h : given.contains "logicalOperator" = false) :
    Reads (named (jsonMembers brackets children) (c, given))
      (writeMember "logicalOperator" ((Json.string connective.name).write .compact depth))
      (some ({ c with connective }, "logicalOperator" :: given)) := by
  rw [Json.write_string]
  exact reads_named (jsonMembers brackets children) "logicalOperator" rfl h rfl
    (reads_choice (lookup_connective connective) _)

theorem reads_children {children : Reader (List Criterion)} {cs : List Json}
    {o : Option (List Criterion)} (h : given.contains "children" = false)
    (hread : Reads children ((Json.array cs).write .compact depth) o) :
    Reads (named (jsonMembers brackets children) (c, given))
      (writeMember "children" ((Json.array cs).write .compact depth))
      ((o.map some).map fun children => ({ c with children }, "children" :: given)) := by
  have hn : ∀ rest, ((Json.array cs).write .compact depth rest).head? ≠ some 'n' := by
    intro rest
    rw [Json.write_array, List.head?_cons]
    decide
  exact reads_named (jsonMembers brackets children) "children" rfl h rfl
    (reads_nullable (Json.begins_write depth _) hn hread)

end Members

/-! ## Reading criteria -/

/-- The text of a member, to be written inside the given number of brackets. -/
def memberWriting (depth : Nat) (m : String × Json) : Json.Reader.Writing :=
  writeMember m.1 (m.2.write .compact depth)

section Folding

variable (brackets depth : Nat) {given : List String}

/-- The member that holds a value, if there is one, leaves the later members to be read. -/
theorem folds_value (children : Reader (List Criterion)) (value : Option Value)
    (hgiven : given.contains "value" = false) :
    ∃ given' : List String, (given' = given ∨ given' = "value" :: given) ∧
      ∀ c : Criterion, c.value = none →
        Folds (named (jsonMembers brackets children)) (c, given)
          ((value.map fun v => ("value", v.toJson)).toList.map (memberWriting depth))
          ((rereadValue? brackets value).map fun value => ({ c with value }, given')) := by
  cases value with
  | none =>
    refine ⟨given, Or.inl rfl, fun c hc => ?_⟩
    have hsame : { c with value := none } = c := by
      cases c
      cases hc
      rfl
    rw [rereadValue?, Option.map_some, hsame]
    exact .nil
  | some v =>
    exact ⟨"value" :: given, Or.inr rfl, fun c _ =>
      .single (reads_value brackets depth children c v hgiven)⟩

/-- The member that holds the children, if there is one, is the last. -/
theorem folds_children {children : Reader (List Criterion)} (cs : Option (List Criterion))
    (hgiven : given.contains "children" = false)
    (h : ∀ ds, cs = some ds →
      Reads children ((Json.array (toJsons ds)).write .compact depth) (rereadList? brackets ds)) :
    ∃ given' : List String, ∀ c : Criterion, c.children = none →
      Folds (named (jsonMembers brackets children)) (c, given)
        ((childrenToJson cs).map (memberWriting depth))
        ((rereadChildren? brackets cs).map fun children => ({ c with children }, given')) := by
  cases cs with
  | none =>
    refine ⟨given, fun c hc => ?_⟩
    have hsame : { c with children := none } = c := by
      cases c
      cases hc
      rfl
    rw [childrenToJson, rereadChildren?, Option.map_some, hsame]
    exact .nil
  | some ds =>
    refine ⟨"children" :: given, fun c _ => ?_⟩
    rw [childrenToJson, rereadChildren?_some]
    exact .single (reads_children brackets depth c hgiven (h ds rfl))

/-- The members of a written criterion are read one after the other. -/
theorem folds_written {children : Reader (List Criterion)} (c : Criterion)
    (h : ∀ ds, c.children = some ds →
      Reads children ((Json.array (toJsons ds)).write .compact depth) (rereadList? brackets ds)) :
    ∃ given : List String,
      Folds (named (jsonMembers brackets children)) ({}, [])
        (c.written.map (memberWriting depth))
        ((c.reread? (brackets + 1)).map fun c => (c, given)) := by
  obtain ⟨property, comparison, value, connective, cs⟩ := c
  have hnames : Folds (named (jsonMembers brackets children)) (({} : Criterion), [])
      ([("propertyName", Json.string property), ("operator", Json.string comparison.name)].map
        (memberWriting depth))
      (some ({ property, comparison }, ["operator", "propertyName"])) :=
    .cons (reads_property brackets depth children {} property rfl)
      (.single (reads_comparison brackets depth children { property } comparison rfl))
  obtain ⟨given, hgiven, hvalue⟩ := folds_value brackets depth children value
    (show ["operator", "propertyName"].contains "value" = false from rfl)
  have hlogical : given.contains "logicalOperator" = false := by
    rcases hgiven with rfl | rfl <;> rfl
  have hchildren : ("logicalOperator" :: given).contains "children" = false := by
    rcases hgiven with rfl | rfl <;> rfl
  obtain ⟨given', hlast⟩ := folds_children brackets depth cs hchildren h
  have hfirst := hvalue { property, comparison } rfl
  refine ⟨given', ?_⟩
  rw [written, List.map_append, List.map_append, List.map_append, reread?_succ]
  cases hv : rereadValue? brackets value with
  | none =>
    rw [hv] at hfirst
    exact ((hnames.append hfirst).append_of_refused _).append_of_refused _
  | some v =>
    rw [hv] at hfirst
    have hthird := reads_connective brackets depth children
      { property, comparison, value := v } connective hlogical
    have hfold := ((hnames.append hfirst).append (.single hthird)).append
      (hlast { property, comparison, value := v, connective } rfl)
    rw [Option.bind_some, Option.map_map]
    exact hfold

end Folding

/-- The written criteria of a list are read as `rereadList?` says if each of them is. -/
theorem reads_listReader {cs : List Criterion}
    (h : ∀ c ∈ cs, ∀ brackets depth, Reads (reader brackets) (c.toJson.write .compact depth)
      (c.reread? brackets)) (brackets depth : Nat) :
    Reads (listReader brackets) ((Json.array (toJsons cs)).write .compact depth)
      (rereadList? brackets cs) := by
  have hwrite : (Json.array (toJsons cs)).write .compact depth = fun rest =>
      '[' :: inside ']' (cs.map fun c => c.toJson.write .compact (depth + 1)) rest := by
    funext rest
    rw [Json.write_array, toJsons_eq_map, List.map_map]
    rfl
  rw [hwrite]
  cases brackets with
  | zero =>
    rw [listReader]
    exact reads_list_none _
  | succ brackets =>
    rw [listReader, rereadList?, rereads?_eq_mapM]
    exact reads_list (reads_items (Or.inl rfl) (fun c hc => h c hc brackets (depth + 1))
      fun c => Json.begins_write (depth + 1) c.toJson)

/-- A written criterion is read as `reread?` says if its children are. -/
theorem reads_reader_of_children {c : Criterion}
    (h : ∀ ds, c.children = some ds → ∀ brackets depth,
      Reads (listReader brackets) ((Json.array (toJsons ds)).write .compact depth)
        (rereadList? brackets ds)) (brackets depth : Nat) :
    Reads (reader brackets) (c.toJson.write .compact depth) (c.reread? brackets) := by
  have hwrite : c.toJson.write .compact depth = fun rest =>
      '\x7b' :: inside '\x7d' (c.written.map (memberWriting (depth + 1))) rest := by
    funext rest
    rw [toJson_eq, Json.write_object]
    rfl
  rw [hwrite]
  cases brackets with
  | zero =>
    rw [reader, reread?]
    exact reads_record_none _ _ _
  | succ brackets =>
    obtain ⟨given, hfolds⟩ := folds_written brackets (depth + 1) c fun ds hds =>
      h ds hds brackets (depth + 1)
    have hoptional : ∀ m ∈ jsonMembers brackets (listReader brackets), m.isRequired = false := by
      simp [jsonMembers]
    have hbegins : ∀ w ∈ c.written.map (memberWriting (depth + 1)), Begins w := by
      intro w hw
      obtain ⟨m, -, rfl⟩ := List.mem_map.mp hw
      exact Json.begins_writeMember _ _
    rw [reader]
    exact reads_record hoptional hbegins hfolds "FilterNode"

/-- A written criterion is read as `reread?` says, or refused if there is none. -/
theorem reads_reader (c : Criterion) : ∀ brackets depth,
    Reads (reader brackets) (c.toJson.write .compact depth) (c.reread? brackets) := by
  induction c using onChildren with
  | h c ih => exact reads_reader_of_children fun ds hds => reads_listReader (ih ds hds)

/-- The text of a filter is read as `rereadList?` says. -/
theorem listOfText_eq_ok_iff {filter ds : List Criterion} :
    listOfText (listText filter) = .ok ds ↔ rereadList? bracketLimit filter = some ds :=
  complete_eq_ok_iff (reads_listReader (fun c _ => reads_reader c) bracketLimit 0)

/-! ## Everywhere in a filter -/

/-- Every criterion that a path leads to has the property. -/
def Everywhere (P : Criterion → Prop) (cs : List Criterion) : Prop :=
  ∀ path c, at? path cs = some c → P c

variable {P : Criterion → Prop}

theorem everywhere_nil : Everywhere P [] := by
  intro path c hc
  rcases path with _ | ⟨i, path⟩
  · cases hc
  · obtain ⟨d, hd, -⟩ := at?_cons_eq_some_iff.mp hc
    cases hd

theorem at?_succ (i : Nat) (path : Path) (c : Criterion) (cs : List Criterion) :
    at? ((i + 1) :: path) (c :: cs) = at? (i :: path) cs := by
  cases path <;> rfl

theorem everywhere_cons {c : Criterion} {cs : List Criterion} :
    Everywhere P (c :: cs) ↔
      (P c ∧ ∀ ds, c.children = some ds → Everywhere P ds) ∧ Everywhere P cs := by
  constructor
  · intro h
    refine ⟨⟨h [0] c rfl, fun ds hds path d hd => ?_⟩, fun path d hd => ?_⟩
    · rcases path with _ | ⟨i, path⟩
      · cases hd
      · have hne : ds ≠ [] := by
          rintro rfl
          exact absurd hd (by simp [at?_cons_eq_some_iff])
        exact h (0 :: i :: path) d (at?_cons_eq_some_iff.mpr
          ⟨c, rfl, Or.inr ⟨ds, members?_eq_some_iff.mpr ⟨hds, hne⟩, hd⟩⟩)
    · rcases path with _ | ⟨i, path⟩
      · cases hd
      · exact h ((i + 1) :: path) d ((at?_succ i path c cs).trans hd)
  · rintro ⟨⟨hc, hds⟩, hcs⟩ path d hd
    rcases path with _ | ⟨_ | i, path⟩
    · cases hd
    · obtain ⟨c', hc', hd⟩ := at?_cons_eq_some_iff.mp hd
      obtain rfl := Option.some_inj.mp hc'
      rcases hd with ⟨-, rfl⟩ | ⟨ds, hmembers, hd⟩
      · exact hc
      · exact hds ds (members?_eq_some_iff.mp hmembers).1 path d hd
    · exact hcs (i :: path) d ((at?_succ i path c cs).symm.trans hd)

theorem everywhere_iff_forall {cs : List Criterion} :
    Everywhere P cs ↔ ∀ c ∈ cs, P c ∧ ∀ ds, c.children = some ds → Everywhere P ds := by
  induction cs with
  | nil => exact ⟨fun _ c hc => absurd hc List.not_mem_nil, fun _ => everywhere_nil⟩
  | cons c cs ih => rw [everywhere_cons, ih, List.forall_mem_cons]

/-! ## What comes back -/

/-- Every number in the value of the criterion is read, unless the value is left out. -/
def IsReadable (c : Criterion) : Prop :=
  ∀ v, c.value = some v → v.isNonFinite = false → ∀ x, v.Has x → x.reread?.isSome = true

/-- Every number in the value of the criterion is read as itself. -/
def ComesBack (c : Criterion) : Prop :=
  ∀ v, c.value = some v → ∀ x, v.Has x → x.reread? = some x

/-- A criterion opens one bracket more than its value and its children. -/
theorem nesting_toJson_le_iff {c : Criterion} {brackets : Nat} :
    c.toJson.nesting ≤ brackets + 1 ↔
      (∀ v, c.value = some v → v.toJson.nesting ≤ brackets) ∧
        ∀ ds, c.children = some ds → (Json.array (toJsons ds)).nesting ≤ brackets := by
  obtain ⟨property, comparison, value, connective, cs⟩ := c
  rw [toJson_eq, Json.nesting, written, Json.nestingMembers_append, Json.nestingMembers_append,
    Json.nestingMembers_append]
  cases value with
  | none =>
    cases cs with
    | none => simp [Json.nestingMembers, Json.nesting, childrenToJson]
    | some ds => simp [Json.nestingMembers, Json.nesting, childrenToJson]
  | some v =>
    cases cs with
    | none => simp [Json.nestingMembers, Json.nesting, childrenToJson]
    | some ds => simp [Json.nestingMembers, Json.nesting, childrenToJson]

theorem nestingItems_toJsons_le_iff {cs : List Criterion} {brackets : Nat} :
    Json.nestingItems (toJsons cs) ≤ brackets ↔ ∀ c ∈ cs, c.toJson.nesting ≤ brackets := by
  rw [toJsons_eq_map, Json.nestingItems_le_iff, List.forall_mem_map]

theorem isSome_rereads?_iff {cs : List Criterion} {brackets : Nat} :
    (rereads? brackets cs).isSome = true ↔ ∀ c ∈ cs, (c.reread? brackets).isSome = true := by
  induction cs with
  | nil => simp [rereads?]
  | cons c cs ih =>
    rw [rereads?, List.forall_mem_cons, ← ih]
    cases c.reread? brackets with
    | none => simp
    | some d => cases rereads? brackets cs <;> simp

theorem isSome_rereadValue?_iff {o : Option Value} {brackets : Nat} :
    (rereadValue? brackets o).isSome = true ↔
      (∀ v, o = some v → v.toJson.nesting ≤ brackets) ∧
        ∀ v, o = some v → v.isNonFinite = false → ∀ x, v.Has x → x.reread?.isSome = true := by
  cases o with
  | none => simp [rereadValue?]
  | some v => simpa [rereadValue?] using v.isSome_rereadOptional?_iff brackets

/-- The criteria of a list are read exactly when no more than the given number of brackets are open
at once and every criterion below is readable. -/
theorem isSome_rereadList?_iff_of {cs : List Criterion}
    (h : ∀ c ∈ cs, ∀ brackets, (c.reread? brackets).isSome = true ↔
      c.toJson.nesting ≤ brackets ∧ c.IsReadable ∧
        ∀ ds, c.children = some ds → Everywhere IsReadable ds) (brackets : Nat) :
    (rereadList? brackets cs).isSome = true ↔
      (Json.array (toJsons cs)).nesting ≤ brackets ∧ Everywhere IsReadable cs := by
  rw [Json.nesting]
  cases brackets with
  | zero => simp [rereadList?]
  | succ brackets =>
    rw [rereadList?, isSome_rereads?_iff, Nat.add_le_add_iff_right, nestingItems_toJsons_le_iff,
      everywhere_iff_forall, ← forall₂_and]
    exact forall₂_congr fun c hc => h c hc brackets

theorem isSome_reread?_succ_iff {c : Criterion} {brackets : Nat} :
    (c.reread? (brackets + 1)).isSome = true ↔
      (rereadValue? brackets c.value).isSome = true ∧
        ∀ ds, c.children = some ds → (rereadList? brackets ds).isSome = true := by
  obtain ⟨property, comparison, value, connective, cs⟩ := c
  rw [reread?_succ]
  cases rereadValue? brackets value with
  | none => simp
  | some v =>
    cases cs with
    | none => simp [rereadChildren?]
    | some ds => simp [rereadChildren?_some]

/-- A criterion is read exactly when no more than the given number of brackets are open at once and
it is readable with every criterion below it. -/
theorem isSome_reread?_iff (c : Criterion) : ∀ brackets, (c.reread? brackets).isSome = true ↔
    c.toJson.nesting ≤ brackets ∧ c.IsReadable ∧
      ∀ ds, c.children = some ds → Everywhere IsReadable ds := by
  induction c using onChildren with
  | h c ih =>
    intro brackets
    cases brackets with
    | zero =>
      rw [reread?, toJson_eq, Json.nesting]
      simp
    | succ brackets =>
      rw [isSome_reread?_succ_iff, isSome_rereadValue?_iff, nesting_toJson_le_iff]
      constructor
      · rintro ⟨⟨hnesting, hvalue⟩, hchildren⟩
        have hlist : ∀ ds, c.children = some ds →
            (Json.array (toJsons ds)).nesting ≤ brackets ∧ Everywhere IsReadable ds :=
          fun ds hds => (isSome_rereadList?_iff_of (ih ds hds) brackets).mp (hchildren ds hds)
        exact ⟨⟨hnesting, fun ds hds => (hlist ds hds).1⟩, hvalue, fun ds hds => (hlist ds hds).2⟩
      · rintro ⟨⟨hnesting, hdepth⟩, hvalue, hchildren⟩
        refine ⟨⟨hnesting, hvalue⟩, fun ds hds => ?_⟩
        exact (isSome_rereadList?_iff_of (ih ds hds) brackets).mpr
          ⟨hdepth ds hds, hchildren ds hds⟩

theorem isSome_rereadList?_iff (cs : List Criterion) (brackets : Nat) :
    (rereadList? brackets cs).isSome = true ↔
      (Json.array (toJsons cs)).nesting ≤ brackets ∧ Everywhere IsReadable cs :=
  isSome_rereadList?_iff_of (fun c _ => isSome_reread?_iff c) brackets

/-- What is read of a criterion's value is the value exactly when its numbers come back. -/
theorem eq_iff_of_rereadValue? {value o : Option Value} {brackets : Nat}
    (h : rereadValue? brackets value = some o) :
    o = value ↔ ∀ v, value = some v → ∀ x, v.Has x → x.reread? = some x := by
  cases value with
  | none =>
    rw [rereadValue?] at h
    exact ⟨fun _ v hv => (nomatch hv), fun _ => (Option.some_inj.mp h).symm⟩
  | some v =>
    rw [rereadValue?] at h
    rw [Value.eq_iff_of_rereadOptional? h]
    simp

/-- The criteria that are read are the written ones exactly when every criterion below comes
back. -/
theorem eq_iff_of_rereadList? {cs : List Criterion}
    (h : ∀ c ∈ cs, ∀ brackets d, c.reread? brackets = some d →
      (d = c ↔ c.ComesBack ∧ ∀ ds, c.children = some ds → Everywhere ComesBack ds))
    {brackets : Nat} {ds : List Criterion} (hds : rereadList? brackets cs = some ds) :
    ds = cs ↔ Everywhere ComesBack cs := by
  cases brackets with
  | zero => cases hds
  | succ brackets =>
    rw [rereadList?] at hds
    rw [everywhere_iff_forall]
    induction cs generalizing ds with
    | nil =>
      rw [rereads?] at hds
      exact ⟨fun _ c hc => absurd hc List.not_mem_nil, fun _ => (Option.some_inj.mp hds).symm⟩
    | cons c cs ih =>
      rw [List.forall_mem_cons] at h
      rw [rereads?_cons] at hds
      obtain ⟨d, hd, htail⟩ := Option.bind_eq_some_iff.mp hds
      obtain ⟨es, hes, rfl⟩ := Option.map_eq_some_iff.mp htail
      rw [List.cons.injEq, h.1 brackets d hd, ih h.2 hes, List.forall_mem_cons]

/-- A criterion that is read is the written one exactly when it comes back with every criterion
below it. -/
theorem eq_iff_of_reread? (c : Criterion) : ∀ brackets d, c.reread? brackets = some d →
    (d = c ↔ c.ComesBack ∧ ∀ ds, c.children = some ds → Everywhere ComesBack ds) := by
  induction c using onChildren with
  | h c ih =>
    intro brackets d hd
    obtain ⟨property, comparison, value, connective, cs⟩ := c
    cases brackets with
    | zero => cases hd
    | succ brackets =>
      rw [reread?_succ] at hd
      obtain ⟨o, ho, htail⟩ := Option.bind_eq_some_iff.mp hd
      obtain ⟨os, hos, rfl⟩ := Option.map_eq_some_iff.mp htail
      have hchildren : os = cs ↔ ∀ ds, cs = some ds → Everywhere ComesBack ds := by
        cases cs with
        | none =>
          rw [rereadChildren?] at hos
          exact ⟨fun _ ds hds => (nomatch hds), fun _ => (Option.some_inj.mp hos).symm⟩
        | some ds =>
          rw [rereadChildren?_some] at hos
          obtain ⟨es, hes, rfl⟩ := Option.map_eq_some_iff.mp hos
          rw [Option.some_inj, eq_iff_of_rereadList? (ih ds rfl) hes]
          simp
      rw [mk.injEq, eq_iff_of_rereadValue? ho, hchildren]
      simp [ComesBack]

/-! ## The round trip -/

/-- Some criterion of the filter, at any depth, has the value. -/
def Carries (filter : List Criterion) (v : Value) : Prop :=
  ∃ path c, at? path filter = some c ∧ c.value = some v

/-- A criterion is readable unless its value is a list with a number in it that is not finite. -/
theorem isReadable_iff {c : Criterion} : c.IsReadable ↔
    ∀ items, c.value = some (.list items) → ∀ x, (Value.list items).Has x → x.isFinite = true := by
  constructor
  · intro h items hitems x hx
    exact Binary64.isSome_reread?_iff.mp (h _ hitems rfl x hx)
  · intro h v hv hfinite x hx
    rw [Binary64.isSome_reread?_iff]
    cases v with
    | boolean b => cases hx
    | integer i => cases hx
    | float y =>
      rw [Value.has_float_iff.mp hx]
      simpa [Value.isNonFinite] using hfinite
    | string s => cases hx
    | list items => exact h items hv x hx

theorem not_everywhere_isReadable_iff {filter : List Criterion} : ¬ Everywhere IsReadable filter ↔
    ∃ items x, Carries filter (.list items) ∧ (Value.list items).Has x ∧ x.isFinite = false := by
  constructor
  · intro h
    simp only [Everywhere, isReadable_iff, not_forall] at h
    obtain ⟨path, c, hc, items, hitems, x, hx, hinfinite⟩ := h
    exact ⟨items, x, ⟨path, c, hc, hitems⟩, hx, Bool.eq_false_iff.mpr hinfinite⟩
  · rintro ⟨items, x, ⟨path, c, hc, hitems⟩, hx, hinfinite⟩ h
    have hfinite := isReadable_iff.mp (h path c hc) items hitems x hx
    rw [hinfinite] at hfinite
    cases hfinite

/-- A filter that is readable comes back everywhere exactly when none of its values is a number that
is not finite, and each of its finite numbers is read from its text. -/
theorem everywhere_comesBack_iff {filter : List Criterion} (h : Everywhere IsReadable filter) :
    Everywhere ComesBack filter ↔
      (∀ x, Carries filter (.float x) → x.isFinite = true) ∧
        ∀ v x, Carries filter v → v.Has x → x.isFinite = true →
          Value.ofText (x.text Json.numberLayout) = .ok (.float x) := by
  constructor
  · intro hback
    constructor
    · rintro x ⟨path, c, hc, hv⟩
      have hx := hback path c hc _ hv x .float
      rw [← Binary64.isSome_reread?_iff, hx]
      rfl
    · rintro v x ⟨path, c, hc, hv⟩ hx hfinite
      exact (Value.ofText_text_iff hfinite).mpr (hback path c hc v hv x hx)
  · rintro ⟨hdirect, htexts⟩ path c hc v hv x hx
    have hfinite : x.isFinite = true := by
      cases v with
      | boolean b => cases hx
      | integer i => cases hx
      | float y =>
        rw [Value.has_float_iff.mp hx]
        exact hdirect y ⟨path, c, hc, hv⟩
      | string s => cases hx
      | list items => exact isReadable_iff.mp (h path c hc) items hv x hx
    exact (Value.ofText_text_iff hfinite).mp (htexts v x ⟨path, c, hc, hv⟩ hx hfinite)

theorem exists_error_iff {filter : List Criterion} :
    (∃ e, listOfText (listText filter) = .error e) ↔
      (rereadList? bracketLimit filter).isSome = false := by
  cases hread : rereadList? bracketLimit filter with
  | none =>
    refine ⟨fun _ => rfl, fun _ => ?_⟩
    cases htext : listOfText (listText filter) with
    | error e => exact ⟨e, rfl⟩
    | ok ds =>
      rw [listOfText_eq_ok_iff, hread] at htext
      cases htext
  | some ds =>
    rw [listOfText_eq_ok_iff.mpr hread]
    simp

/-- A filter is refused when it nests too deep or a list in it holds a number without a form. -/
theorem exists_error_iff_nesting {filter : List Criterion} :
    (∃ e, listOfText (listText filter) = .error e) ↔
      127 < (Json.array (toJsons filter)).nesting ∨
        ∃ items x, Carries filter (.list items) ∧ (Value.list items).Has x ∧
          x.isFinite = false := by
  rw [exists_error_iff, ← not_everywhere_isReadable_iff, Bool.eq_false_iff, Ne,
    isSome_rereadList?_iff, not_and_or, Nat.not_le]
  rfl

/-- A filter that is read comes back when each number in it does. -/
theorem eq_iff_of_listOfText {filter ds : List Criterion}
    (h : listOfText (listText filter) = .ok ds) :
    ds = filter ↔
      (∀ x, Carries filter (.float x) → x.isFinite = true) ∧
        ∀ v x, Carries filter v → v.Has x → x.isFinite = true →
          Value.ofText (x.text Json.numberLayout) = .ok (.float x) := by
  have hread := listOfText_eq_ok_iff.mp h
  have hreadable : Everywhere IsReadable filter :=
    ((isSome_rereadList?_iff filter bracketLimit).mp (by rw [hread]; rfl)).2
  rw [eq_iff_of_rereadList? (fun c _ => eq_iff_of_reread? c) hread]
  exact everywhere_comesBack_iff hreadable

/-- **Writing a filter and reading it back.** The text of a filter is refused exactly when more than
127 brackets are open in it at once or a list in it holds a number that is not finite.  What is read
otherwise is the filter exactly when no value is itself such a number, which would be left out, and
every finite number in it is read from its text.  So a filter of finite numbers that are read from
their texts comes back if it does not nest too deep. -/
theorem listOfText_listText (filter : List Criterion) :
    ((∃ e, listOfText (listText filter) = .error e) ↔
      127 < (Json.array (toJsons filter)).nesting ∨
        ∃ items x, Carries filter (.list items) ∧ (Value.list items).Has x ∧
          x.isFinite = false) ∧
    (∀ ds, listOfText (listText filter) = .ok ds →
      (ds = filter ↔
        (∀ x, Carries filter (.float x) → x.isFinite = true) ∧
          ∀ v x, Carries filter v → v.Has x → x.isFinite = true →
            Value.ofText (x.text Json.numberLayout) = .ok (.float x))) ∧
    ((Json.array (toJsons filter)).nesting ≤ 127 →
      (∀ v x, Carries filter v → v.Has x → x.isFinite = true ∧
        Value.ofText (x.text Json.numberLayout) = .ok (.float x)) →
      listOfText (listText filter) = .ok filter) := by
  refine ⟨exists_error_iff_nesting, fun ds hds => eq_iff_of_listOfText hds, ?_⟩
  intro hnesting hnumbers
  cases htext : listOfText (listText filter) with
  | error e =>
    rcases exists_error_iff_nesting.mp ⟨e, htext⟩ with hdeep | ⟨items, x, hitems, hx, hinfinite⟩
    · exact absurd hnesting (Nat.not_le.mpr hdeep)
    · rw [(hnumbers _ x hitems hx).1] at hinfinite
      cases hinfinite
  | ok ds =>
    have hsame : ds = filter := (eq_iff_of_listOfText htext).mpr
      ⟨fun x hx => (hnumbers _ x hx .float).1, fun v x hv hx _ => (hnumbers v x hv hx).2⟩
    rw [hsame]

/-! ### An instance -/

/-- One half. -/
def half : Binary64 := .finite false ⟨0x10000000000000, 1021, by decide⟩

/-- `(Total in [0.5]) || Total >= 0.5`. -/
def halfFilter : List Criterion :=
  [.group [.leaf "Total" .oneOf (.list [.float half])],
    (leaf "Total" .atLeast (.float half)).joinedBy .or]

theorem eq_half_of_carries {v : Value} {x : Binary64} (hv : Carries halfFilter v)
    (hx : v.Has x) : x = half := by
  have h : Everywhere (fun c => ∀ v, c.value = some v → ∀ x, v.Has x → x = half) halfFilter := by
    simp [halfFilter, everywhere_cons, everywhere_nil, group, leaf, joinedBy, Value.has_list_iff,
      Value.has_float_iff]
  obtain ⟨path, c, hc, hv⟩ := hv
  exact h path c hc v hv x hx

theorem listOfText_listText_half : listOfText (listText halfFilter) = .ok halfFilter := by
  refine (listOfText_listText halfFilter).2.2 (by decide) ?_
  intro v x hv hx
  rw [eq_half_of_carries hv hx]
  refine ⟨rfl, (Value.ofText_text_iff rfl).mpr ?_⟩
  decide +kernel

end RecordFilter.Criterion
