import RecordFilter.Proofs.Compilation

/-!
# What siblings compile to

The compiler carries two things along that no condition shows: the path to a criterion, which only
errors mention, and the number of groups around it, of which only the distance to the limit matters.
`Derives` is what remains of a compilation that succeeds when both are forgotten.  It has a rule for
the end of some siblings, one for a leaf in front of them, and one for a group, whose members have
one level of room less.

* `compile_eq_ok_iff_derives`: filters that compile are those with a derivation.
* `Derives.mono`: more room does no harm.
* `derives_append_iff`: siblings are derived independently of those around them.
-/

namespace RecordFilter

variable {ρ : Type}

/-- Siblings become conditions, each with its own connective, if as many groups may be nested in one
another as there is room for. -/
inductive Derives (schema : Schema ρ) (settings : Settings) :
    Nat → List Criterion → List (Connective × Condition ρ) → Prop where
  | nil {room : Nat} : Derives schema settings room [] []
  | leaf {room : Nat} {c : Criterion} {cs : List Criterion} {l : Leaf ρ}
      {conditions : List (Connective × Condition ρ)} :
      c.members? = none → c.property ≠ "" → Compile.leaf schema settings c = .ok l →
      Derives schema settings room cs conditions →
      Derives schema settings room (c :: cs) ((c.connective, .leaf l) :: conditions)
  | group {room : Nat} {c : Criterion} {cs ds : List Criterion}
      {inner conditions : List (Connective × Condition ρ)} :
      c.members? = some ds → Derives schema settings room ds inner →
      Derives schema settings (room + 1) cs conditions →
      Derives schema settings (room + 1) (c :: cs)
        ((c.connective, .grouped (.ofSiblings inner)) :: conditions)

variable {schema : Schema ρ} {settings settings' : Settings} {room : Nat}

/-! ## Derivations are compilations -/

variable (schema settings) in
/-- What a criterion compiles to is derived in front of any siblings. -/
def CriterionDerived (c : Criterion) : Prop :=
  ∀ (depth room : Nat) (path : Path) (condition : Condition ρ) (cs : List Criterion)
    (conditions : List (Connective × Condition ρ)), settings.maxDepth = depth + room →
    Compile.criterion schema settings depth path c = .ok condition →
      Derives schema settings room cs conditions →
        Derives schema settings room (c :: cs) ((c.connective, condition) :: conditions)

variable (schema settings) in
/-- What siblings compile to is derived. -/
def SiblingsDerived (cs : List Criterion) : Prop :=
  ∀ (depth room : Nat) (path : Path) (i : Nat) (conditions : List (Connective × Condition ρ)),
    settings.maxDepth = depth + room →
    Compile.siblings schema settings depth path i cs = .ok conditions →
      Derives schema settings room cs conditions

theorem criterionDerived_of_leaf {c : Criterion} (hc : c.members? = none) :
    CriterionDerived schema settings c := by
  intro depth room path condition cs conditions _ hcondition hcs
  obtain ⟨hproperty, l, hl, rfl⟩ := (Compile.criterion_leaf_eq_ok_iff hc).mp hcondition
  exact .leaf hc hproperty hl hcs

theorem criterionDerived_of_group {c : Criterion} {ds : List Criterion}
    (hc : c.members? = some ds) (hds : SiblingsDerived schema settings ds) :
    CriterionDerived schema settings c := by
  intro depth room path condition cs conditions hdepth hcondition hcs
  obtain ⟨hlt, inner, hinner, rfl⟩ := (Compile.criterion_group_eq_ok_iff hc).mp hcondition
  obtain ⟨room, rfl⟩ : ∃ n, room = n + 1 := ⟨room - 1, by omega⟩
  exact .group hc (hds (depth + 1) room path 0 inner (by omega) hinner) hcs

theorem siblingsDerived_cons {c : Criterion} {cs : List Criterion}
    (hc : CriterionDerived schema settings c) (hcs : SiblingsDerived schema settings cs) :
    SiblingsDerived schema settings (c :: cs) := by
  intro depth room path i conditions hdepth h
  obtain ⟨condition, hcondition, rest, hrest, rfl⟩ := Compile.siblings_cons_eq_ok_iff.mp h
  have hderived := hcs depth room path (i + 1) rest hdepth hrest
  exact hc depth room (path ++ [i]) condition cs rest hdepth hcondition hderived

theorem siblingsDerived (cs : List Criterion) : SiblingsDerived schema settings cs := by
  refine Criterion.onFilter (fun _ h => criterionDerived_of_leaf h)
    (fun _ _ h hds => criterionDerived_of_group h hds) ?_
    (fun _ _ hc hcs => siblingsDerived_cons hc hcs) cs
  intro depth room path i conditions _ h
  rw [Compile.siblings_nil] at h
  cases h
  exact .nil

/-- What is derived compiles, under any path and counted from any place. -/
theorem Derives.siblings_eq_ok {cs : List Criterion} {conditions : List (Connective × Condition ρ)}
    (h : Derives schema settings room cs conditions) (depth : Nat)
    (hdepth : settings.maxDepth = depth + room) (path : Path) (i : Nat) :
    Compile.siblings schema settings depth path i cs = .ok conditions := by
  induction h generalizing depth path i with
  | nil => exact Compile.siblings_nil i
  | leaf hc hproperty hl _ ih =>
    have hrest := ih depth hdepth path (i + 1)
    have hcriterion : Compile.criterion schema settings depth (path ++ [i]) _ = .ok (.leaf _) :=
      (Compile.criterion_leaf_eq_ok_iff hc).mpr ⟨hproperty, _, hl, rfl⟩
    exact Compile.siblings_cons_eq_ok_iff.mpr ⟨_, hcriterion, _, hrest, rfl⟩
  | group hc _ _ ihinner ih =>
    have hrest := ih depth hdepth path (i + 1)
    have hinner := ihinner (depth + 1) (by omega) (path ++ [i]) 0
    have hcriterion := (Compile.criterion_group_eq_ok_iff hc).mpr ⟨by omega, _, hinner, rfl⟩
    exact Compile.siblings_cons_eq_ok_iff.mpr ⟨_, hcriterion, _, hrest, rfl⟩

/-- A filter compiles to what is derived from it in as much room as the limit allows. -/
theorem compile_eq_ok_iff_derives {filter : List Criterion} {p : Predicate ρ} :
    compile schema settings filter = .ok p ↔
      ∃ conditions, Derives schema settings settings.maxDepth filter conditions ∧
        ⟨.ofSiblings conditions⟩ = p := by
  rw [Compile.compile_eq_ok_iff]
  refine exists_congr fun conditions => and_congr_left fun _ => ⟨fun h => ?_, fun h => ?_⟩
  · exact siblingsDerived filter 0 _ [] 0 conditions (Nat.zero_add _).symm h
  · exact h.siblings_eq_ok 0 (Nat.zero_add _).symm [] 0

/-! ## Room -/

/-- More room does no harm, and of the settings only what they say about the case of letters
matters. -/
theorem Derives.mono {room' : Nat} {cs : List Criterion}
    {conditions : List (Connective × Condition ρ)}
    (h : Derives schema settings room cs conditions) (hroom : room ≤ room')
    (hcase : settings.ignoresCase = settings'.ignoresCase) :
    Derives schema settings' room' cs conditions := by
  induction h generalizing room' with
  | nil => exact .nil
  | leaf hc hproperty hl _ ih =>
    refine .leaf hc hproperty ?_ (ih hroom)
    rw [← hl, Compile.leaf, Compile.leaf, hcase]
  | group hc _ _ ihinner ih =>
    obtain ⟨room', rfl⟩ : ∃ n, room' = n + 1 := ⟨room' - 1, by omega⟩
    exact .group hc (ihinner (Nat.le_of_succ_le_succ hroom)) (ih hroom)

/-! ## Siblings -/

theorem Derives.length_eq {cs : List Criterion} {conditions : List (Connective × Condition ρ)}
    (h : Derives schema settings room cs conditions) : conditions.length = cs.length := by
  induction h with
  | nil => rfl
  | leaf _ _ _ _ ih => rw [List.length_cons, List.length_cons, ih]
  | group _ _ _ _ ih => rw [List.length_cons, List.length_cons, ih]

theorem Derives.ne_nil {cs : List Criterion} {conditions : List (Connective × Condition ρ)}
    (h : Derives schema settings room cs conditions) (hcs : cs ≠ []) : conditions ≠ [] := by
  rwa [← List.length_pos_iff, h.length_eq, List.length_pos_iff]

/-- Siblings are derived independently of those around them. -/
theorem derives_append_iff {cs ds : List Criterion} {conditions : List (Connective × Condition ρ)} :
    Derives schema settings room (cs ++ ds) conditions ↔
      ∃ front back, conditions = front ++ back ∧ Derives schema settings room cs front ∧
        Derives schema settings room ds back := by
  constructor
  · intro h
    induction cs generalizing conditions with
    | nil => exact ⟨[], conditions, rfl, .nil, h⟩
    | cons c cs ih =>
      cases h with
      | leaf hc hproperty hl hrest =>
        obtain ⟨front, back, rfl, hfront, hback⟩ := ih hrest
        exact ⟨_, back, rfl, .leaf hc hproperty hl hfront, hback⟩
      | group hc hinner hrest =>
        obtain ⟨front, back, rfl, hfront, hback⟩ := ih hrest
        exact ⟨_, back, rfl, .group hc hinner hfront, hback⟩
  · rintro ⟨front, back, rfl, hfront, hback⟩
    induction hfront with
    | nil => exact hback
    | leaf hc hproperty hl _ ih => exact .leaf hc hproperty hl (ih hback)
    | group hc hinner _ _ ih => exact .group hc hinner (ih hback)

end RecordFilter
