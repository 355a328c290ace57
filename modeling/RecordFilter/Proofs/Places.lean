import RecordFilter.Proofs.DocumentOrder

/-!
# Where a leaf goes

A path leads to a criterion of a filter, and the same path leads to what has become of it in the
condition that the filter compiles to.  The condition has no list for siblings that are one alone, so
the siblings of a condition are read off it (`Condition.joined`): of a chain its members, and of
anything else the condition itself.

* `Compile.exists_of_siblings`: siblings that compile stand in the same order.
* `Compile.at?_root`: the leaf of a filter that compiles is a leaf of the condition, at the same path.
-/

namespace RecordFilter

variable {ρ : Type}

namespace Condition

/-- The siblings that a condition joins; a condition that is no chain is one alone. -/
def joined : Condition ρ → List (Condition ρ)
  | always => []
  | chain first rest => first :: rest.map Prod.snd
  | leaf l => [leaf l]
  | grouped inner => [grouped inner]

/-- What is inside a group. -/
def inner? : Condition ρ → Option (Condition ρ)
  | grouped inner => some inner
  | _ => none

/-- The condition that a path leads to: its first place picks a sibling, and the rest descends
through groups. -/
def at? : Path → Condition ρ → Option (Condition ρ)
  | [], _ => none
  | [i], c => c.joined[i]?
  | i :: j :: path, c => ((c.joined[i]?).bind inner?).bind (at? (j :: path))

theorem at?_cons_of_grouped {i : Nat} {path : Path} (hpath : path ≠ []) {c inner : Condition ρ}
    (h : c.joined[i]? = some (grouped inner)) : c.at? (i :: path) = inner.at? path := by
  obtain ⟨j, path, rfl⟩ := List.exists_cons_of_ne_nil hpath
  rw [at?, h]
  rfl

/-- Siblings that are no chains are the siblings of their condition. -/
theorem joined_ofSiblings {conditions : List (Connective × Condition ρ)}
    (h : ∀ c ∈ conditions, c.2.joined = [c.2]) :
    (ofSiblings conditions).joined = conditions.map Prod.snd := by
  rcases conditions with _ | ⟨first, _ | ⟨second, rest⟩⟩
  · rfl
  · exact h first List.mem_cons_self
  · rfl

end Condition

namespace Compile

variable {schema : Schema ρ} {settings : Settings} {depth : Nat} {start : Path}

/-- A criterion compiles to a leaf or to a group. -/
theorem joined_of_criterion {c : Criterion} {condition : Condition ρ}
    (h : criterion schema settings depth start c = .ok condition) :
    condition.joined = [condition] := by
  cases hmembers : c.members? with
  | none =>
    obtain ⟨-, l, -, rfl⟩ := (criterion_leaf_eq_ok_iff hmembers).mp h
    rfl
  | some ds =>
    obtain ⟨-, conditions, -, rfl⟩ := (criterion_group_eq_ok_iff hmembers).mp h
    rfl

/-- Siblings that compile stand in the same order. -/
theorem exists_of_siblings {cs : List Criterion} {i : Nat}
    {conditions : List (Connective × Condition ρ)}
    (h : siblings schema settings depth start i cs = .ok conditions) {k : Nat} {c : Criterion}
    (hc : cs[k]? = some c) : ∃ condition,
      criterion schema settings depth (start ++ [i + k]) c = .ok condition ∧
        conditions[k]? = some (c.connective, condition) := by
  induction cs generalizing i k conditions with
  | nil => cases hc
  | cons d ds ih =>
    obtain ⟨condition, hcondition, rest, hrest, rfl⟩ := siblings_cons_eq_ok_iff.mp h
    cases k with
    | zero =>
      obtain rfl := Option.some_inj.mp hc
      exact ⟨condition, hcondition, rfl⟩
    | succ k =>
      obtain ⟨condition', hcondition', hk⟩ := ih hrest hc
      refine ⟨condition', ?_, hk⟩
      rwa [Nat.add_right_comm, Nat.add_assoc] at hcondition'

theorem joined_of_siblings {cs : List Criterion} {i : Nat}
    {conditions : List (Connective × Condition ρ)}
    (h : siblings schema settings depth start i cs = .ok conditions) :
    ∀ c ∈ conditions, c.2.joined = [c.2] := by
  induction cs generalizing i conditions with
  | nil =>
    rw [siblings_nil] at h
    cases h
    exact fun c hc => nomatch hc
  | cons d ds ih =>
    obtain ⟨condition, hcondition, rest, hrest, rfl⟩ := siblings_cons_eq_ok_iff.mp h
    exact List.forall_mem_cons.mpr ⟨joined_of_criterion hcondition, ih hrest⟩

/-- The sibling at a place of the siblings compiles to the one at the same place of the
condition. -/
theorem joined_ofSiblings_getElem? {cs : List Criterion}
    {conditions : List (Connective × Condition ρ)}
    (h : siblings schema settings depth start 0 cs = .ok conditions) {k : Nat} {c : Criterion}
    (hc : cs[k]? = some c) : ∃ condition,
      criterion schema settings depth (start ++ [k]) c = .ok condition ∧
        (Condition.ofSiblings conditions).joined[k]? = some condition := by
  obtain ⟨condition, hcondition, hk⟩ := exists_of_siblings h hc
  rw [Nat.zero_add] at hcondition
  refine ⟨condition, hcondition, ?_⟩
  rw [Condition.joined_ofSiblings (joined_of_siblings h), List.getElem?_map, hk]
  rfl

/-- Siblings that compile have their leaves where the condition has the leaves they compile to. -/
theorem at?_ofSiblings {path : Path} {cs : List Criterion}
    {conditions : List (Connective × Condition ρ)}
    (h : siblings schema settings depth start 0 cs = .ok conditions) {c : Criterion}
    (hc : Criterion.at? path cs = some c) (hleaf : c.members? = none) :
    ∃ l, leaf schema settings c = .ok l ∧
      (Condition.ofSiblings conditions).at? path = some (.leaf l) := by
  induction path generalizing cs conditions depth start with
  | nil => cases hc
  | cons k path ih =>
    obtain ⟨d, hd, hpath⟩ := Criterion.at?_cons_eq_some_iff.mp hc
    obtain ⟨condition, hcondition, hk⟩ := joined_ofSiblings_getElem? h hd
    rcases hpath with ⟨rfl, rfl⟩ | ⟨ds, hmembers, hbelow⟩
    · obtain ⟨-, l, hl, rfl⟩ := (criterion_leaf_eq_ok_iff hleaf).mp hcondition
      exact ⟨l, hl, hk⟩
    · obtain ⟨-, inner, hinner, rfl⟩ := (criterion_group_eq_ok_iff hmembers).mp hcondition
      have hpath : path ≠ [] := by
        rintro rfl
        cases hbelow
      rw [Condition.at?_cons_of_grouped hpath hk]
      exact ih hinner hbelow

/-- The leaf at a path of a filter that compiles becomes the leaf at this path of the condition. -/
theorem at?_root {filter : List Criterion} {p : Predicate ρ}
    (h : compile schema settings filter = .ok p) {path : Path} {c : Criterion}
    (hc : Criterion.at? path filter = some c) (hleaf : c.members? = none) :
    ∃ l, leaf schema settings c = .ok l ∧ p.root.at? path = some (.leaf l) := by
  obtain ⟨conditions, hconditions, rfl⟩ := compile_eq_ok_iff.mp h
  exact at?_ofSiblings hconditions hc hleaf

end Compile

end RecordFilter
