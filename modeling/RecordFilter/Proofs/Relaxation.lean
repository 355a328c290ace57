import RecordFilter.Proofs.DocumentOrder
import RecordFilter.Proofs.Meaning
import RecordFilter.Proofs.Registration

/-!
# What more room changes

The settings decide two things only: how deep groups may nest, and whether a property may differ
from the name of its field in the case of letters.  Relaxing them lets more filters compile, and
changes nothing for those that compiled before; of the errors, only an unknown field and a group
nested too deep can go away.

The compiler does not know where the outermost list is.  It compares the depth of a group with the
limit, so what counts is the room between the two, and siblings compile below a group as they do on
their own if the limit is higher by as much as they stand deeper.  Both observations are one: the
two runs compared here (`Admits`) have settings and depths of their own, and the second run may lie
below a path of its own, which its errors then show (`CompileError.below`).

* `Persists`: the second run ends like the first, unless that one fails with an error that room or
  case can lift.
* `persist_siblings`: siblings persist, by one step for leaves and one for groups.
* `compile_relaxed`: the same, said of whole filters.
-/

namespace RecordFilter

/-! ## Errors -/

namespace CompileError

/-- The error can go away when the settings are relaxed. -/
def IsLiftable : CompileError → Prop
  | unknownField _ => True
  | tooDeep _ => True
  | _ => False

/-- The error of a criterion that stands below a path. -/
def below (start : Path) : CompileError → CompileError
  | illFormed path => illFormed (start ++ path)
  | e => e

theorem below_nil (e : CompileError) : e.below [] = e := by
  cases e <;> rfl

end CompileError

/-- Only a criterion without a property is called by its path; what is wrong with a leaf is not. -/
theorem ValueFault.below_eq {field : String} {type : FieldType} {k : Comparison} {v : Value}
    {e : CompileError} (h : ValueFault field type k v e) (start : Path) : e.below start = e := by
  cases h <;> rfl

theorem LeafFault.below_eq {ρ : Type} {schema : Schema ρ} {settings : Settings} {property : String}
    {k : Comparison} {value : Option Value} {e : CompileError}
    (h : LeafFault schema settings property k value e) (start : Path) : e.below start = e := by
  cases h with
  | unknownField => rfl
  | missingValue => rfl
  | value _ _ hvalue => exact hvalue.below_eq start

/-! ## Outcomes that persist -/

section Outcomes

variable {α β : Type} {start : Path}

/-- The second outcome is the first one below a path, unless that one is an error that can go away
when the settings are relaxed. -/
def Persists (start : Path) (x y : Except CompileError α) : Prop :=
  (∃ e, x = .error e ∧ e.IsLiftable) ∨ y = x.mapError (.below start)

theorem Persists.of_liftable {e : CompileError} {y : Except CompileError α} (h : e.IsLiftable) :
    Persists start (.error e) y :=
  Or.inl ⟨e, rfl, h⟩

theorem persists_ok (a : α) : Persists start (.ok a) (.ok a) := Or.inr rfl

theorem persists_error (e : CompileError) :
    Persists start (.error e : Except CompileError α) (.error (e.below start)) :=
  Or.inr rfl

theorem Persists.bind {x y : Except CompileError α} {f g : α → Except CompileError β}
    (h : Persists start x y) (hf : ∀ a, Persists start (f a) (g a)) :
    Persists start (x >>= f) (y >>= g) := by
  rcases h with ⟨e, rfl, he⟩ | rfl
  · exact .of_liftable he
  · cases x with
    | error e => exact persists_error e
    | ok a => exact hf a

theorem Persists.map {x y : Except CompileError α} (h : Persists start x y) (f : α → β) :
    Persists start (f <$> x) (f <$> y) := by
  rcases h with ⟨e, rfl, he⟩ | rfl
  · exact .of_liftable he
  · cases x with
    | error e => exact persists_error e
    | ok a => exact persists_ok (f a)

theorem Persists.eq_ok {x y : Except CompileError α} (h : Persists start x y) {a : α}
    (hx : x = .ok a) : y = .ok a := by
  subst hx
  rcases h with ⟨e, he, -⟩ | rfl
  · cases he
  · rfl

theorem Persists.eq_error {x y : Except CompileError α} (h : Persists start x y)
    {e : CompileError} (hx : x = .error e) (he : ¬ e.IsLiftable) : y = .error (e.below start) := by
  subst hx
  rcases h with ⟨e', he', hlift⟩ | rfl
  · cases he'
    exact absurd hlift he
  · rfl

end Outcomes

/-! ## Two runs -/

/-- Whatever the first settings admit at the first depth, the second admit at the second one: there
is room for as many groups, and the case of letters may differ if it might before. -/
structure Admits (settings : Settings) (depth : Nat) (settings' : Settings) (depth' : Nat) :
    Prop where
  room : settings.maxDepth + depth' ≤ settings'.maxDepth + depth
  ignoresCase : settings.ignoresCase = true → settings'.ignoresCase = true

theorem Admits.succ {settings settings' : Settings} {depth depth' : Nat}
    (h : Admits settings depth settings' depth') :
    Admits settings (depth + 1) settings' (depth' + 1) where
  room := by
    have := h.room
    omega
  ignoresCase := h.ignoresCase

variable {ρ : Type} {schema : Schema ρ} {settings settings' : Settings} {depth depth' : Nat}
  {start : Path}

/-- A property stands for the same field when the case of letters may differ as well, since a field
of exactly its name comes first. -/
theorem Schema.resolve_of_resolve {property : String} {ignoresCase ignoresCase' : Bool}
    {f : Field ρ} (h : schema.resolve property ignoresCase = some f)
    (hcase : ignoresCase = true → ignoresCase' = true) :
    schema.resolve property ignoresCase' = some f := by
  rw [resolve_eq_some_iff] at h ⊢
  rcases h with h | ⟨hnone, hignores, hfirst⟩
  · exact Or.inl h
  · exact Or.inr ⟨hnone, hcase hignores, hfirst⟩

theorem persists_leaf (h : Admits settings depth settings' depth') (c : Criterion) :
    Persists start (Compile.leaf schema settings c) (Compile.leaf schema settings' c) := by
  cases hfield : schema.resolve c.property settings.ignoresCase with
  | none =>
    have herror : Compile.leaf schema settings c = .error (.unknownField c.property) :=
      leaf_eq_error_iff_fault.mpr (.unknownField hfield)
    rw [herror]
    exact .of_liftable trivial
  | some f =>
    have hsame : Compile.leaf schema settings' c = Compile.leaf schema settings c := by
      unfold Compile.leaf
      rw [hfield, Schema.resolve_of_resolve hfield h.ignoresCase]
    rw [hsame]
    cases hleaf : Compile.leaf schema settings c with
    | ok l => exact persists_ok l
    | error e =>
      have herror : Persists start (.error e : Except CompileError (Leaf ρ))
          (.error (e.below start)) := persists_error e
      rwa [(leaf_eq_error_iff_fault.mp hleaf).below_eq start] at herror

variable (schema settings settings' start)

/-- A criterion compiles alike in both runs, wherever it stands. -/
def CriterionPersists (c : Criterion) : Prop :=
  ∀ (depth depth' : Nat) (path : Path), Admits settings depth settings' depth' →
    Persists start (Compile.criterion schema settings depth path c)
      (Compile.criterion schema settings' depth' (start ++ path) c)

/-- Siblings compile alike in both runs, wherever they stand. -/
def SiblingsPersist (cs : List Criterion) : Prop :=
  ∀ (depth depth' : Nat) (path : Path) (i : Nat), Admits settings depth settings' depth' →
    Persists start (Compile.siblings schema settings depth path i cs)
      (Compile.siblings schema settings' depth' (start ++ path) i cs)

variable {schema settings settings' start}

theorem criterionPersists_of_leaf {c : Criterion} (hc : c.members? = none) :
    CriterionPersists schema settings settings' start c := by
  intro depth depth' path h
  rw [Compile.criterion_of_leaf hc, Compile.criterion_of_leaf hc]
  by_cases hproperty : c.property = ""
  · rw [if_pos hproperty, if_pos hproperty]
    exact persists_error (.illFormed path)
  · rw [if_neg hproperty, if_neg hproperty]
    exact (persists_leaf h c).map _

theorem criterionPersists_of_group {c : Criterion} {ds : List Criterion}
    (hc : c.members? = some ds) (hds : SiblingsPersist schema settings settings' start ds) :
    CriterionPersists schema settings settings' start c := by
  intro depth depth' path h
  rw [Compile.criterion_of_group hc, Compile.criterion_of_group hc]
  by_cases hdeep : settings.maxDepth ≤ depth
  · rw [if_pos hdeep]
    exact .of_liftable trivial
  · have hroom : ¬ settings'.maxDepth ≤ depth' := by
      have := h.room
      omega
    rw [if_neg hdeep, if_neg hroom]
    exact (hds _ _ path 0 h.succ).map _

theorem siblingsPersist_cons {c : Criterion} {cs : List Criterion}
    (hc : CriterionPersists schema settings settings' start c)
    (hcs : SiblingsPersist schema settings settings' start cs) :
    SiblingsPersist schema settings settings' start (c :: cs) := by
  intro depth depth' path i h
  rw [Compile.siblings, Compile.siblings, List.append_assoc]
  refine (hc depth depth' (path ++ [i]) h).bind fun condition => ?_
  exact (hcs depth depth' path (i + 1) h).bind fun rest => persists_ok _

/-- Siblings compile below a path as they do without it, if there is room. -/
theorem persist_siblings (start : Path) (cs : List Criterion) :
    SiblingsPersist schema settings settings' start cs := by
  refine Criterion.onFilter (fun _ h => criterionPersists_of_leaf h)
    (fun _ _ h hds => criterionPersists_of_group h hds) ?_
    (fun _ _ hc hcs => siblingsPersist_cons hc hcs) cs
  intro depth depth' path i _
  rw [Compile.siblings_nil, Compile.siblings_nil]
  exact persists_ok []

/-! ## Filters -/

/-- **Relaxing the settings is conservative.**  If the limit is not lowered and the case of letters
may still differ wherever it might before, then a filter that compiled compiles to the same
predicate, and one that failed fails with the same error, unless this error was an unknown field or
a group nested too deep. -/
theorem compile_relaxed (schema : Schema ρ) {settings settings' : Settings}
    (hdepth : settings.maxDepth ≤ settings'.maxDepth)
    (hcase : settings.ignoresCase = true → settings'.ignoresCase = true)
    (filter : List Criterion) :
    (∀ p, compile schema settings filter = .ok p → compile schema settings' filter = .ok p) ∧
    ∀ e, compile schema settings filter = .error e → (∀ property, e ≠ .unknownField property) →
      (∀ limit, e ≠ .tooDeep limit) → compile schema settings' filter = .error e := by
  have hpersists : Persists [] (compile schema settings filter) (compile schema settings' filter) :=
    (persist_siblings [] filter 0 0 [] 0 ⟨Nat.add_le_add_right hdepth 0, hcase⟩).map _
  refine ⟨fun p hp => hpersists.eq_ok hp, fun e he hfield hdeep => ?_⟩
  have hfixed : ¬ e.IsLiftable := by
    intro hlift
    cases e with
    | unknownField property => exact hfield property rfl
    | tooDeep limit => exact hdeep limit rfl
    | _ => exact hlift
  rw [hpersists.eq_error he hfixed, CompileError.below_nil]

/-! ### An instance -/

/-- `(Age >= 25)`. -/
def elderFilter : List Criterion := [.group [.leaf "Age" .atLeast (.integer 25)]]

/-- What that filter compiles to. -/
def elderPredicate : Predicate Int64 := ⟨.grouped (.leaf ⟨"Age", .integer id (.atLeast 25)⟩)⟩

theorem compile_elderFilter {settings : Settings} (h : 0 < settings.maxDepth) :
    compile ages settings elderFilter = .ok elderPredicate := by
  simp [compile, elderFilter, ages, elderPredicate, Criterion.leaf, Criterion.group,
    Compile.siblings, Compile.criterion, Nat.ne_of_gt h, Compile.leaf, Compile.test_integer,
    Compile.constraint, Compile.constant, Value.toInteger?, FieldType.isOrdered,
    Condition.ofSiblings, Functor.map, Except.map, bind, Except.bind, pure, Except.pure]

/-- A search in a number. -/
def searchFilter : List Criterion := [.leaf "Age" .contains (.string "2")]

theorem compile_searchFilter (settings : Settings) :
    compile ages settings searchFilter = .error (.unsupported .contains "Age" .integer) := by
  have hfield : ages.resolve "Age" settings.ignoresCase = some ⟨"Age", .integer id⟩ :=
    Schema.resolve_register_self _ _ _ _
  have hfault : LeafFault ages settings "Age" .contains (some (.string "2"))
      (.unsupported .contains "Age" .integer) :=
    .value hfield rfl (.unsupported nofun)
  exact compile_eq_error_iff_firstFault.mpr
    ⟨[], _, [], rfl, List.forall_mem_nil _, .leaf rfl (by decide) hfault⟩

theorem compile_relaxed_ages :
    (compile ages { maxDepth := 1, ignoresCase := false } elderFilter = .ok elderPredicate ∧
      compile ages {} elderFilter = .ok elderPredicate) ∧
    compile ages { maxDepth := 1, ignoresCase := false } searchFilter =
      .error (.unsupported .contains "Age" .integer) ∧
    compile ages {} searchFilter = .error (.unsupported .contains "Age" .integer) := by
  have hdepth : ({ maxDepth := 1, ignoresCase := false } : Settings).maxDepth ≤
      ({} : Settings).maxDepth := by decide
  have hok : compile ages { maxDepth := 1, ignoresCase := false } elderFilter = .ok elderPredicate :=
    compile_elderFilter (by decide)
  have herror := compile_searchFilter { maxDepth := 1, ignoresCase := false }
  refine ⟨⟨hok, (compile_relaxed ages hdepth nofun elderFilter).1 _ hok⟩, herror, ?_⟩
  exact (compile_relaxed ages hdepth nofun searchFilter).2 _ herror nofun nofun

end RecordFilter
