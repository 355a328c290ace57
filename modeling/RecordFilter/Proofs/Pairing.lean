import RecordFilter.Proofs.Shape

/-!
# Two filters compiled side by side

Compiling asks one thing of a schema: which field the property of a leaf stands for.  So two filters
with the same groups and connectives have the same outcome, under one schema or under two, if their
leaves stand for the same fields, pair by pair.

The only place where a property is seen again is the error that no field answers to it.  Errors are
therefore compared by a relation (`Agree`), which has to relate each error to itself and, where
the properties of a pair stand for nothing, the two errors that say so.

* `Paired`: two filters with the same groups and connectives, and related leaves.
* `paired_self`: a filter is paired with itself if each of its leaves is related to itself.
* `Interchangeable`: what is asked of the two leaves of a pair.
* `Paired.agree_compile`: filters of interchangeable leaves have the same outcome.
-/

namespace RecordFilter

/-! ## Outcomes -/

section Outcomes

variable {α β : Type} {Same : CompileError → CompileError → Prop}

/-- The two outcomes are the same result, or errors that are the same in the given sense. -/
inductive Agree (Same : CompileError → CompileError → Prop) :
    Except CompileError α → Except CompileError α → Prop where
  | ok (a : α) : Agree Same (.ok a) (.ok a)
  | error {e e' : CompileError} : Same e e' → Agree Same (.error e) (.error e')

theorem agree_refl (hrefl : ∀ e, Same e e) (x : Except CompileError α) : Agree Same x x := by
  cases x with
  | ok a => exact .ok a
  | error e => exact .error (hrefl e)

theorem Agree.eq {x y : Except CompileError α} (h : Agree Eq x y) : x = y := by
  cases h with
  | ok a => rfl
  | error h => rw [h]

theorem Agree.bind {x y : Except CompileError α} {f g : α → Except CompileError β}
    (h : Agree Same x y) (hf : ∀ a, Agree Same (f a) (g a)) : Agree Same (x >>= f) (y >>= g) := by
  cases h with
  | ok a => exact hf a
  | error h => exact .error h

theorem Agree.map {x y : Except CompileError α} (h : Agree Same x y) (f : α → β) :
    Agree Same (f <$> x) (f <$> y) := by
  cases h with
  | ok a => exact .ok (f a)
  | error h => exact .error h

end Outcomes

/-! ## Pairs -/

/-- The two filters have the same groups and the same connectives, and the leaves at one place are
related. -/
inductive Paired (Related : Criterion → Criterion → Prop) :
    List Criterion → List Criterion → Prop where
  | nil : Paired Related [] []
  | leaf {c d : Criterion} {cs ds : List Criterion} :
      c.members? = none → d.members? = none → c.connective = d.connective → Related c d →
      Paired Related cs ds → Paired Related (c :: cs) (d :: ds)
  | group {c d : Criterion} {cs ds inner inner' : List Criterion} :
      c.members? = some inner → d.members? = some inner' → c.connective = d.connective →
      Paired Related inner inner' → Paired Related cs ds → Paired Related (c :: cs) (d :: ds)

variable {Related Related' : Criterion → Criterion → Prop}

theorem Paired.mono {cs ds : List Criterion} (h : Paired Related cs ds)
    (himp : ∀ c d, Related c d → Related' c d) : Paired Related' cs ds := by
  induction h with
  | nil => exact .nil
  | leaf hc hd hconnective hrelated _ ih => exact .leaf hc hd hconnective (himp _ _ hrelated) ih
  | group hc hd hconnective _ _ ihinner ih => exact .group hc hd hconnective ihinner ih

theorem Paired.append {cs ds cs' ds' : List Criterion} (h : Paired Related cs ds)
    (h' : Paired Related cs' ds') : Paired Related (cs ++ cs') (ds ++ ds') := by
  induction h with
  | nil => exact h'
  | leaf hc hd hconnective hrelated _ ih => exact .leaf hc hd hconnective hrelated ih
  | group hc hd hconnective hinner _ _ ih => exact .group hc hd hconnective hinner ih

/-- A filter is paired with itself if each of its leaves is related to itself. -/
theorem paired_self (cs : List Criterion) :
    (∀ c ∈ Criterion.leavesOf cs, Related c c) → Paired Related cs cs := by
  refine Criterion.onFilter
    (P := fun c => (∀ d ∈ c.leaves, Related d d) → Paired Related [c] [c])
    (Q := fun cs => (∀ d ∈ Criterion.leavesOf cs, Related d d) → Paired Related cs cs)
    ?leaf ?group ?nil ?cons cs
  case leaf =>
    intro c hc hleaves
    rw [Criterion.leaves_of_leaf hc] at hleaves
    exact .leaf hc hc rfl (hleaves c (List.mem_singleton_self c)) .nil
  case group =>
    intro c ds hc hds hleaves
    rw [Criterion.leaves_of_group hc] at hleaves
    exact .group hc hc rfl (hds hleaves) .nil
  case nil => exact fun _ => .nil
  case cons =>
    intro c cs hc hcs hleaves
    rw [Criterion.leavesOf, List.forall_mem_append] at hleaves
    exact (hc hleaves.1).append (hcs hleaves.2)

/-! ## Leaves -/

variable {ρ : Type} {schema schema' : Schema ρ} {settings : Settings}
  {Same : CompileError → CompileError → Prop}

/-- The two leaves differ in their properties at most, and these stand for the same field of the two
schemas, unless both are missing. -/
structure Interchangeable (schema schema' : Schema ρ) (settings : Settings)
    (Same : CompileError → CompileError → Prop) (c d : Criterion) : Prop where
  comparison_eq : c.comparison = d.comparison
  value_eq : c.value = d.value
  property_eq_empty_iff : c.property = "" ↔ d.property = ""
  resolve_eq : c.property ≠ "" →
    schema.resolve c.property settings.ignoresCase = schema'.resolve d.property settings.ignoresCase
  same_unknownField : Same (.unknownField c.property) (.unknownField d.property)

/-- Interchangeable leaves that name a property have the same outcome. -/
theorem Interchangeable.agree_leaf {c d : Criterion}
    (h : Interchangeable schema schema' settings Same c d) (hrefl : ∀ e, Same e e)
    (hproperty : c.property ≠ "") :
    Agree Same (Compile.leaf schema settings c) (Compile.leaf schema' settings d) := by
  unfold Compile.leaf
  rw [h.resolve_eq hproperty, h.comparison_eq, h.value_eq]
  cases schema'.resolve d.property settings.ignoresCase with
  | none => exact .error h.same_unknownField
  | some field => exact agree_refl hrefl _

theorem Interchangeable.agree_criterion {c d : Criterion}
    (h : Interchangeable schema schema' settings Same c d) (hrefl : ∀ e, Same e e)
    (hc : c.members? = none) (hd : d.members? = none) (depth : Nat) (path : Path) :
    Agree Same (Compile.criterion schema settings depth path c)
      (Compile.criterion schema' settings depth path d) := by
  rw [Compile.criterion_of_leaf hc, Compile.criterion_of_leaf hd]
  by_cases hproperty : c.property = ""
  · rw [if_pos hproperty, if_pos (h.property_eq_empty_iff.mp hproperty)]
    exact .error (hrefl _)
  · rw [if_neg hproperty, if_neg (mt h.property_eq_empty_iff.mpr hproperty)]
    exact (h.agree_leaf hrefl hproperty).map _

/-! ## Filters -/

/-- Siblings of interchangeable leaves have the same outcome, wherever they stand. -/
theorem Paired.agree_siblings {cs ds : List Criterion}
    (h : Paired (Interchangeable schema schema' settings Same) cs ds) (hrefl : ∀ e, Same e e)
    (depth : Nat) (path : Path) (i : Nat) :
    Agree Same (Compile.siblings schema settings depth path i cs)
      (Compile.siblings schema' settings depth path i ds) := by
  induction h generalizing depth path i with
  | nil =>
    rw [Compile.siblings_nil, Compile.siblings_nil]
    exact .ok []
  | leaf hc hd hconnective hrelated _ ih =>
    rw [Compile.siblings, Compile.siblings, hconnective]
    refine (hrelated.agree_criterion hrefl hc hd depth (path ++ [i])).bind fun condition => ?_
    exact (ih depth path (i + 1)).bind fun rest => .ok _
  | group hc hd hconnective _ _ ihinner ih =>
    rw [Compile.siblings, Compile.siblings, hconnective, Compile.criterion_of_group hc,
      Compile.criterion_of_group hd]
    refine Agree.bind ?_ fun condition => (ih depth path (i + 1)).bind fun rest => .ok _
    by_cases hdeep : settings.maxDepth ≤ depth
    · rw [if_pos hdeep, if_pos hdeep]
      exact .error (hrefl _)
    · rw [if_neg hdeep, if_neg hdeep]
      exact (ihinner (depth + 1) (path ++ [i]) 0).map _

/-- Filters of interchangeable leaves compile to the same predicate, or fail with errors that are
the same in the given sense. -/
theorem Paired.agree_compile {f g : List Criterion}
    (h : Paired (Interchangeable schema schema' settings Same) f g) (hrefl : ∀ e, Same e e) :
    Agree Same (compile schema settings f) (compile schema' settings g) :=
  (h.agree_siblings hrefl 0 [] 0).map _

end RecordFilter
