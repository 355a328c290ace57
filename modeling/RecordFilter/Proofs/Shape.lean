import RecordFilter.Proofs.Condition.Readability
import RecordFilter.Proofs.Derivation
import RecordFilter.Proofs.Fault
import RecordFilter.Proofs.Meaning
import RecordFilter.Proofs.Registration
import Mathlib.Data.List.Forall2
import Mathlib.Logic.Relation

/-!
# The shape of a condition

Most conditions are not what any filter compiles to: a chain may have a chain as a sibling, a group
may ask for nothing, and a chain may have no rest.  `Condition.TakesAfter` says which condition has
the shape of which criteria.  It has one rule for each number of siblings that the compiler treats
differently, none, one and more, and the rule for one is split into leaves and groups.

A part of a condition that takes after some criteria takes after some criteria again
(`TakesAfter.exists_of_isPart`), so what is true of a condition and its nearest parts is true of
everything that occurs in it.  How deep the groups nest, and which leaves there are, is read off a
derivation, where siblings are still a list.

* `Compile.standsFor_of_leaf`: what a leaf has of its criterion.
* `Derives.takesAfter`: what is derived from criteria takes after them.
* `Derives.groupDepth_eq`, `Derives.groupDepths_le`: groups nest as deep as in the filter, and no
  deeper than there is room for.
* `Derives.standFor`: the leaves are those of the filter, in order.
* `hasShapeOf_of_compile`: all of this for a filter that compiles.
-/

namespace RecordFilter

variable {ρ : Type}

/-! ## Leaves -/

/-- The comparison that a test makes. -/
def Test.comparison : Test ρ → Comparison
  | boolean _ constraint => constraint.comparison
  | integer _ constraint => constraint.comparison
  | float _ constraint => constraint.comparison
  | string _ constraint => constraint.comparison
  | date _ constraint => constraint.comparison
  | contains _ _ => .contains

/-- What a leaf has of its criterion. -/
structure Leaf.StandsFor (schema : Schema ρ) (settings : Settings) (c : Criterion) (l : Leaf ρ) :
    Prop where
  isLeaf : c.isLeaf = true
  /-- The property stands for the field of the leaf, and the leaf reads it as the schema says. -/
  resolve_eq : schema.resolve c.property settings.ignoresCase = some ⟨l.field, l.test.accessor⟩
  /-- The name in the leaf is the declared one. -/
  find?_eq : schema.find? l.field = some ⟨l.field, l.test.accessor⟩
  comparison_eq : l.test.comparison = c.comparison
  /-- Strings alone are searched, and truth values are not bounded. -/
  suits : l.test.comparison.Suits l.test.accessor.type

/-- What a property stands for is found under its own name. -/
theorem Schema.find?_of_resolve {schema : Schema ρ} {property : String} {ignoresCase : Bool}
    {f : Field ρ} (h : schema.resolve property ignoresCase = some f) :
    schema.find? f.name = some f := by
  rcases resolve_eq_some_iff.mp h with h | ⟨-, -, -, before, after, hfields, -⟩
  · rwa [(find?_eq_some_iff.mp h).2]
  · have hmem : f ∈ schema.fields.toList := hfields ▸ List.mem_append_right _ List.mem_cons_self
    exact find?_eq_some_iff.mpr ⟨Array.mem_toList_iff.mp hmem, rfl⟩

namespace Compile

variable {schema : Schema ρ} {settings : Settings}

/-- A constraint makes the comparison that it was asked for, which suits the type. -/
theorem comparison_of_constraint {α : Type} {field : String} {type : FieldType}
    {coerce : Value → Option α} {comparison : Comparison} {v : Value} {k : Constraint α}
    (h : constraint field type coerce comparison v = .ok k) :
    k.comparison = comparison ∧ comparison.Suits type := by
  cases comparison with
  | equals =>
    obtain ⟨a, -, rfl⟩ := map_eq_ok_iff.mp h
    exact ⟨rfl, trivial⟩
  | atLeast =>
    rw [constraint] at h
    split at h
    · rename_i hordered
      obtain ⟨a, -, rfl⟩ := map_eq_ok_iff.mp h
      exact ⟨rfl, isOrdered_iff.mp hordered⟩
    · cases h
  | atMost =>
    rw [constraint] at h
    split at h
    · rename_i hordered
      obtain ⟨a, -, rfl⟩ := map_eq_ok_iff.mp h
      exact ⟨rfl, isOrdered_iff.mp hordered⟩
    · cases h
  | oneOf =>
    rw [constraint] at h
    split at h
    · obtain ⟨as, -, rfl⟩ := map_eq_ok_iff.mp h
      exact ⟨rfl, trivial⟩
    · cases h
  | contains => cases h

theorem comparison_of_make {α : Type} {field : Field ρ} {coerce : Value → Option α}
    {comparison : Comparison} {v : Value} {t : Test ρ} {make : Constraint α → Test ρ}
    (hmake : ∀ k, (make k).accessor = field.accessor ∧ (make k).comparison = k.comparison)
    (h : make <$> constraint field.name field.accessor.type coerce comparison v = .ok t) :
    t.accessor = field.accessor ∧ t.comparison = comparison ∧
      comparison.Suits field.accessor.type := by
  obtain ⟨k, hk, rfl⟩ := map_eq_ok_iff.mp h
  obtain ⟨hcomparison, hsuits⟩ := comparison_of_constraint hk
  exact ⟨(hmake k).1, (hmake k).2.trans hcomparison, hsuits⟩

/-- A test reads the field that it was made for, and makes the comparison that it was asked for. -/
theorem comparison_of_test {field : Field ρ} {comparison : Comparison} {v : Value} {t : Test ρ}
    (h : test field comparison v = .ok t) :
    t.accessor = field.accessor ∧ t.comparison = comparison ∧
      comparison.Suits field.accessor.type := by
  obtain ⟨name, accessor⟩ := field
  cases accessor with
  | boolean get =>
    rw [test_boolean] at h
    exact comparison_of_make (fun _ => ⟨rfl, rfl⟩) h
  | integer get =>
    rw [test_integer] at h
    exact comparison_of_make (fun _ => ⟨rfl, rfl⟩) h
  | float get =>
    rw [test_float] at h
    exact comparison_of_make (fun _ => ⟨rfl, rfl⟩) h
  | string get =>
    by_cases hsearch : comparison = .contains
    · subst hsearch
      rw [test_contains, map_eq_ok_iff] at h
      obtain ⟨needle, -, rfl⟩ := h
      exact ⟨rfl, rfl, rfl⟩
    · rw [test_string hsearch] at h
      exact comparison_of_make (fun _ => ⟨rfl, rfl⟩) h
  | date get =>
    rw [test_date] at h
    exact comparison_of_make (fun _ => ⟨rfl, rfl⟩) h

theorem standsFor_of_leaf {c : Criterion} {l : Leaf ρ} (hmembers : c.members? = none)
    (hproperty : c.property ≠ "") (h : leaf schema settings c = .ok l) :
    l.StandsFor schema settings c := by
  obtain ⟨⟨name, accessor⟩, hfield, v, -, t, ht, rfl⟩ := leaf_eq_ok_iff.mp h
  obtain ⟨haccessor, hcomparison, hsuits⟩ := comparison_of_test ht
  subst haccessor
  exact
    { isLeaf := Criterion.isLeaf_iff.mpr ⟨hmembers, hproperty⟩
      resolve_eq := hfield
      find?_eq := Schema.find?_of_resolve hfield
      comparison_eq := hcomparison
      suits := hcomparison ▸ hsuits }

end Compile

/-! ## Shapes -/

/-- A condition has the shape of some criteria. -/
inductive Condition.TakesAfter (schema : Schema ρ) (settings : Settings) :
    List Criterion → Condition ρ → Prop where
  /-- No criteria ask for nothing. -/
  | none : TakesAfter schema settings [] .always
  /-- A leaf that is one alone is a leaf. -/
  | leaf {c : Criterion} {l : Leaf ρ} : l.StandsFor schema settings c →
      TakesAfter schema settings [c] (.leaf l)
  /-- A group that is one alone is one group of what its members are. -/
  | group {c : Criterion} {ds : List Criterion} {inner : Condition ρ} : c.members? = some ds →
      TakesAfter schema settings ds inner → TakesAfter schema settings [c] (.grouped inner)
  /-- Two siblings or more are one chain, in which each is what it would be alone, and each but the
  first has its connective. -/
  | chain {c : Criterion} {cs : List Criterion} {first : Condition ρ}
      {rest : List (Connective × Condition ρ)} : cs ≠ [] →
      TakesAfter schema settings [c] first →
      rest.map Prod.fst = cs.map Criterion.connective →
      List.Forall₂ (fun d next => TakesAfter schema settings [d] next) cs (rest.map Prod.snd) →
      TakesAfter schema settings (c :: cs) (.chain first rest)

namespace Condition

variable {schema : Schema ρ} {settings : Settings} {cs : List Criterion}
  {conditions : List (Connective × Condition ρ)}

/-- The condition of siblings takes after them if each of its parts does. -/
theorem takesAfter_ofSiblings
    (hconnectives : conditions.map Prod.fst = cs.map Criterion.connective)
    (hconditions : List.Forall₂ (fun c condition => TakesAfter schema settings [c] condition) cs
      (conditions.map Prod.snd)) :
    TakesAfter schema settings cs (ofSiblings conditions) := by
  rcases conditions with _ | ⟨first, _ | ⟨second, rest⟩⟩
  · obtain rfl := List.forall₂_nil_right_iff.mp hconditions
    exact .none
  · obtain ⟨c, cs, hfirst, hcs, rfl⟩ := List.forall₂_cons_right_iff.mp hconditions
    obtain rfl := List.forall₂_nil_right_iff.mp hcs
    exact hfirst
  · obtain ⟨c, cs, hfirst, hcs, rfl⟩ := List.forall₂_cons_right_iff.mp hconditions
    refine .chain ?_ hfirst (List.cons.inj hconnectives).2 hcs
    rintro rfl
    cases hcs

end Condition

variable {schema : Schema ρ} {settings : Settings} {room : Nat} {cs : List Criterion}
  {conditions : List (Connective × Condition ρ)}

/-- What is derived from criteria takes after them, one by one. -/
theorem Derives.takesAfter (h : Derives schema settings room cs conditions) :
    conditions.map Prod.fst = cs.map Criterion.connective ∧
      List.Forall₂ (fun c condition => Condition.TakesAfter schema settings [c] condition) cs
        (conditions.map Prod.snd) := by
  induction h with
  | nil => exact ⟨rfl, .nil⟩
  | leaf hc hproperty hl _ ih =>
    exact ⟨congrArg _ ih.1, .cons (.leaf (Compile.standsFor_of_leaf hc hproperty hl)) ih.2⟩
  | group hc _ _ ihinner ih =>
    have hinner := Condition.takesAfter_ofSiblings ihinner.1 ihinner.2
    exact ⟨congrArg _ ih.1, .cons (.group hc hinner) ih.2⟩

/-! ## Parts -/

namespace Condition

/-- A condition is a sibling in a chain, or what is inside a group. -/
inductive IsPart : Condition ρ → Condition ρ → Prop where
  | first {first : Condition ρ} {rest : List (Connective × Condition ρ)} :
      IsPart first (chain first rest)
  | next {first : Condition ρ} {rest : List (Connective × Condition ρ)}
      {next : Connective × Condition ρ} : next ∈ rest → IsPart next.2 (chain first rest)
  | inner {inner : Condition ρ} : IsPart inner (grouped inner)

/-- A condition is the other one, a part of it, a part of one of its parts, and so on. -/
def Occurs : Condition ρ → Condition ρ → Prop := Relation.ReflTransGen IsPart

namespace TakesAfter

variable {part whole : Condition ρ}

/-- Chains are what two or more criteria are. -/
theorem isChain_iff (h : TakesAfter schema settings cs whole) :
    whole.isChain = true ↔ 2 ≤ cs.length := by
  cases h with
  | none => simp [isChain]
  | leaf _ => simp [isChain]
  | group _ _ => simp [isChain]
  | chain hcs _ _ _ =>
    have hlength := List.length_pos_iff.mpr hcs
    simp only [isChain, List.length_cons, true_iff]
    omega

/-- What asks for nothing is what no criteria are. -/
theorem eq_always_iff (h : TakesAfter schema settings cs whole) : whole = always ↔ cs = [] := by
  cases h with
  | none => simp
  | leaf _ => simp
  | group _ _ => simp
  | chain _ _ _ _ => simp

theorem rest_ne_nil {first : Condition ρ} {rest : List (Connective × Condition ρ)}
    (h : TakesAfter schema settings cs (Condition.chain first rest)) : rest ≠ [] := by
  cases h with
  | chain hcs _ hconnectives _ =>
    rintro rfl
    exact hcs (List.map_eq_nil_iff.mp hconnectives.symm)

/-- A part takes after some of the criteria: after one of the siblings of a chain, and after the
members of a group, which are the only parts that can be chains. -/
theorem exists_of_isPart (h : TakesAfter schema settings cs whole) (hpart : IsPart part whole) :
    ∃ ds, ds ≠ [] ∧ TakesAfter schema settings ds part ∧
      (2 ≤ ds.length → whole = grouped part) := by
  have halone : ∀ c : Criterion, 2 ≤ [c].length → whole = grouped part :=
    fun _ hlength => absurd hlength (by simp)
  cases h with
  | none => cases hpart
  | leaf _ => cases hpart
  | group hc hinner =>
    cases hpart
    exact ⟨_, (Criterion.members?_eq_some_iff.mp hc).2, hinner, fun _ => rfl⟩
  | chain _ hfirst _ hrest =>
    cases hpart with
    | first => exact ⟨_, List.cons_ne_nil _ _, hfirst, halone _⟩
    | next hnext =>
      obtain ⟨i, hi, heq⟩ := List.getElem_of_mem (List.mem_map_of_mem (f := Prod.snd) hnext)
      have hd := hrest.get (hrest.length_eq ▸ hi) hi
      rw [List.get_eq_getElem, List.get_eq_getElem, heq] at hd
      exact ⟨_, List.cons_ne_nil _ _, hd, halone _⟩

/-- What occurs in a condition takes after some criteria again. -/
theorem exists_of_occurs (h : TakesAfter schema settings cs whole) (hpart : Occurs part whole) :
    ∃ ds, TakesAfter schema settings ds part := by
  induction hpart using Relation.ReflTransGen.head_induction_on with
  | refl => exact ⟨cs, h⟩
  | head hpart _ ih =>
    obtain ⟨ds, hds⟩ := ih
    obtain ⟨es, -, hes, -⟩ := hds.exists_of_isPart hpart
    exact ⟨es, hes⟩

end TakesAfter

end Condition

/-! ## Nesting -/

namespace Criterion

mutual

/-- How many groups are nested in one another from a criterion on. -/
def groupDepth : Criterion → Nat
  | ⟨_, _, _, _, some (d :: ds)⟩ => groupDepths (d :: ds) + 1
  | _ => 0

/-- How many groups are nested in one another among siblings. -/
def groupDepths : List Criterion → Nat
  | [] => 0
  | c :: cs => max c.groupDepth (groupDepths cs)

end

theorem groupDepth_of_group {c : Criterion} {ds : List Criterion} (h : c.members? = some ds) :
    c.groupDepth = groupDepths ds + 1 := by
  obtain ⟨property, comparison, value, connective, _ | _ | ⟨d, es⟩⟩ := c
  · cases h
  · cases h
  · cases h
    rw [groupDepth]

theorem groupDepth_of_leaf {c : Criterion} (h : c.members? = none) : c.groupDepth = 0 := by
  obtain ⟨property, comparison, value, connective, _ | _ | ⟨d, es⟩⟩ := c
  · simp [groupDepth]
  · simp [groupDepth]
  · cases h

end Criterion

namespace Condition

mutual

/-- How many groups are nested in one another in a condition. -/
def groupDepth : Condition ρ → Nat
  | always => 0
  | leaf _ => 0
  | chain first rest => max first.groupDepth (restGroupDepth rest)
  | grouped inner => inner.groupDepth + 1

/-- How many groups are nested in one another among siblings. -/
def restGroupDepth : List (Connective × Condition ρ) → Nat
  | [] => 0
  | (_, next) :: rest => max next.groupDepth (restGroupDepth rest)

end

theorem groupDepth_ofSiblings (conditions : List (Connective × Condition ρ)) :
    (ofSiblings conditions).groupDepth = restGroupDepth conditions := by
  rcases conditions with _ | ⟨⟨_, first⟩, _ | ⟨second, rest⟩⟩
  · rfl
  · rw [ofSiblings, restGroupDepth, restGroupDepth, Nat.max_zero]
  · rfl

end Condition

/-- Groups nest in a condition as deep as in the criteria that it is derived from. -/
theorem Derives.groupDepth_eq (h : Derives schema settings room cs conditions) :
    Condition.restGroupDepth conditions = Criterion.groupDepths cs := by
  induction h with
  | nil => rfl
  | leaf hc _ _ _ ih =>
    rw [Condition.restGroupDepth, Criterion.groupDepths, Criterion.groupDepth_of_leaf hc, ih]
    rfl
  | group hc _ _ ihinner ih =>
    rw [Condition.restGroupDepth, Criterion.groupDepths, Criterion.groupDepth_of_group hc,
      Condition.groupDepth, Condition.groupDepth_ofSiblings, ihinner, ih]

/-- Groups nest no deeper than there is room for. -/
theorem Derives.groupDepths_le (h : Derives schema settings room cs conditions) :
    Criterion.groupDepths cs ≤ room := by
  induction h with
  | nil => exact Nat.zero_le _
  | leaf hc _ _ _ ih =>
    rw [Criterion.groupDepths, Criterion.groupDepth_of_leaf hc]
    exact Nat.max_le.mpr ⟨Nat.zero_le _, ih⟩
  | group hc _ _ ihinner ih =>
    rw [Criterion.groupDepths, Criterion.groupDepth_of_group hc]
    exact Nat.max_le.mpr ⟨Nat.succ_le_succ ihinner, ih⟩

/-! ## Leaves in order -/

namespace Criterion

mutual

/-- The criteria from one on that are no groups, from left to right. -/
def leaves : Criterion → List Criterion
  | ⟨_, _, _, _, some (d :: ds)⟩ => leavesOf (d :: ds)
  | c => [c]

/-- The criteria among siblings that are no groups, from left to right. -/
def leavesOf : List Criterion → List Criterion
  | [] => []
  | c :: cs => c.leaves ++ leavesOf cs

end

theorem leaves_of_group {c : Criterion} {ds : List Criterion} (h : c.members? = some ds) :
    c.leaves = leavesOf ds := by
  obtain ⟨property, comparison, value, connective, _ | _ | ⟨d, es⟩⟩ := c
  · cases h
  · cases h
  · cases h
    rw [leaves]

theorem leaves_of_leaf {c : Criterion} (h : c.members? = none) : c.leaves = [c] := by
  obtain ⟨property, comparison, value, connective, _ | _ | ⟨d, es⟩⟩ := c
  · simp [leaves]
  · simp [leaves]
  · cases h

theorem members?_of_mem_leavesOf (cs : List Criterion) : ∀ c ∈ leavesOf cs, c.members? = none := by
  refine onFilter (P := fun c => ∀ d ∈ c.leaves, d.members? = none)
    (Q := fun cs => ∀ d ∈ leavesOf cs, d.members? = none) ?leaf ?group ?nil ?cons cs
  case leaf =>
    intro c hc d hd
    rw [leaves_of_leaf hc, List.mem_singleton] at hd
    rwa [hd]
  case group =>
    intro c ds hc hds
    rwa [leaves_of_group hc]
  case nil => exact nofun
  case cons =>
    intro c cs hc hcs
    rw [leavesOf]
    exact List.forall_mem_append.mpr ⟨hc, hcs⟩

end Criterion

theorem Condition.leaves_ofSiblings (conditions : List (Connective × Condition ρ)) :
    (ofSiblings conditions).leaves = restLeaves conditions := by
  rcases conditions with _ | ⟨⟨_, first⟩, _ | ⟨second, rest⟩⟩
  · rfl
  · rw [ofSiblings, restLeaves, restLeaves, List.append_nil]
  · rfl

/-- The leaves of a condition stand for those it is derived from. -/
theorem Derives.standFor (h : Derives schema settings room cs conditions) :
    List.Forall₂ (Leaf.StandsFor schema settings) (Criterion.leavesOf cs)
      (Condition.restLeaves conditions) := by
  induction h with
  | nil => exact .nil
  | leaf hc hproperty hl _ ih =>
    rw [Criterion.leavesOf, Criterion.leaves_of_leaf hc]
    exact .cons (Compile.standsFor_of_leaf hc hproperty hl) ih
  | group hc _ _ ihinner ih =>
    rw [Criterion.leavesOf, Criterion.leaves_of_group hc, Condition.restLeaves, Condition.leaves,
      Condition.leaves_ofSiblings]
    exact List.rel_append ihinner ih

/-- Each leaf of a condition stands for one of those it is derived from. -/
theorem Derives.exists_standsFor (h : Derives schema settings room cs conditions) {l : Leaf ρ}
    (hl : l ∈ Condition.restLeaves conditions) :
    ∃ c ∈ Criterion.leavesOf cs, l.StandsFor schema settings c := by
  obtain ⟨i, hi, rfl⟩ := List.getElem_of_mem hl
  have hlength := h.standFor.length_eq
  exact ⟨_, List.get_mem _ ⟨i, hlength ▸ hi⟩, h.standFor.get (hlength ▸ hi) hi⟩

/-- Each of the leaves that a condition is derived from has a leaf that stands for it. -/
theorem Derives.exists_leaf_standsFor (h : Derives schema settings room cs conditions)
    {c : Criterion} (hc : c ∈ Criterion.leavesOf cs) :
    ∃ l : Leaf ρ, l.StandsFor schema settings c := by
  obtain ⟨i, hi, rfl⟩ := List.getElem_of_mem hc
  exact ⟨_, h.standFor.get hi (h.standFor.length_eq ▸ hi)⟩

/-! ## Filters -/

/-- The predicate has the shape of the filter. -/
structure Predicate.HasShapeOf (schema : Schema ρ) (settings : Settings) (filter : List Criterion)
    (p : Predicate ρ) : Prop where
  /-- Groups, chains and leaves stand where the filter has groups, siblings and leaves. -/
  takesAfter : Condition.TakesAfter schema settings filter p.root
  /-- The empty filter asks for nothing, and no other one does. -/
  root_eq_always_iff : p.root = .always ↔ filter = []
  /-- Nothing in a condition asks for nothing. -/
  ne_always {part whole : Condition ρ} : Condition.IsPart part whole →
    Condition.Occurs whole p.root → part ≠ .always
  /-- A chain in a condition is all that a group holds. -/
  eq_grouped {part whole : Condition ρ} : Condition.IsPart part whole →
    Condition.Occurs whole p.root → part.isChain = true → whole = .grouped part
  /-- A chain has two siblings or more. -/
  rest_ne_nil {first : Condition ρ} {rest : List (Connective × Condition ρ)} :
    Condition.Occurs (.chain first rest) p.root → rest ≠ []
  /-- Groups nest as deep as in the filter. -/
  groupDepth_eq : p.root.groupDepth = Criterion.groupDepths filter
  /-- Groups nest no deeper than the limit. -/
  groupDepth_le : p.root.groupDepth ≤ settings.maxDepth
  /-- The leaves stand for those of the filter, one by one. -/
  standFor : List.Forall₂ (Leaf.StandsFor schema settings) (Criterion.leavesOf filter) p.root.leaves

/-- **A predicate has the shape of its filter.**  It asks for nothing only if the filter is empty.
Each group of the filter is one group of the predicate, a criterion among no others stands for
itself, and two siblings or more are one chain, in which all but the first keep their connectives.
So chains are the whole predicate or all that a group holds, and groups nest as deep as in the
filter, within the limit.  The leaves are those of the filter in order, and each is read from the
schema's field under its declared name, by a test of the field's type. -/
theorem hasShapeOf_of_compile {filter : List Criterion} {p : Predicate ρ}
    (h : compile schema settings filter = .ok p) : p.HasShapeOf schema settings filter := by
  obtain ⟨conditions, hderives, rfl⟩ := compile_eq_ok_iff_derives.mp h
  have htakes : Condition.TakesAfter schema settings filter (.ofSiblings conditions) :=
    Condition.takesAfter_ofSiblings hderives.takesAfter.1 hderives.takesAfter.2
  have hdepth : (Condition.ofSiblings conditions).groupDepth = Criterion.groupDepths filter :=
    (Condition.groupDepth_ofSiblings conditions).trans hderives.groupDepth_eq
  exact
    { takesAfter := htakes
      root_eq_always_iff := htakes.eq_always_iff
      ne_always := by
        intro part whole hpart hwhole heq
        obtain ⟨cs, hcs⟩ := htakes.exists_of_occurs hwhole
        obtain ⟨ds, hne, hds, -⟩ := hcs.exists_of_isPart hpart
        exact hne (hds.eq_always_iff.mp heq)
      eq_grouped := by
        intro part whole hpart hwhole hchain
        obtain ⟨cs, hcs⟩ := htakes.exists_of_occurs hwhole
        obtain ⟨ds, -, hds, hgrouped⟩ := hcs.exists_of_isPart hpart
        exact hgrouped (hds.isChain_iff.mp hchain)
      rest_ne_nil := by
        intro first rest hchain
        obtain ⟨cs, hcs⟩ := htakes.exists_of_occurs hchain
        exact hcs.rest_ne_nil
      groupDepth_eq := hdepth
      groupDepth_le := hdepth.trans_le hderives.groupDepths_le
      standFor := by
        rw [Condition.leaves_ofSiblings]
        exact hderives.standFor }

/-! ### An instance -/

theorem hasShapeOf_of_compile_ages :
    compile ages {} agesFilter = .ok agesPredicate ∧ agesPredicate.HasShapeOf ages {} agesFilter ∧
      agesPredicate.root ≠ .always ∧ agesPredicate.root.groupDepth = 1 ∧
      agesPredicate.root.leaves.length = 3 := by
  have hshape := hasShapeOf_of_compile compile_agesFilter
  have hne : agesFilter ≠ [] := List.cons_ne_nil _ _
  refine ⟨compile_agesFilter, hshape, fun halways => hne (hshape.root_eq_always_iff.mp halways),
    ?_, ?_⟩
  · rw [hshape.groupDepth_eq]
    decide
  · rw [← hshape.standFor.length_eq]
    decide

end RecordFilter
