import RecordFilter.Proofs.Fault
import Mathlib.Logic.Basic

/-!
# The order in which a filter is checked

A filter is checked in document order: a criterion before the members of its group, and all of those
before the siblings behind it.  `Criterion.visitsFrom` lists what is met on the way, each criterion
with its path but without its children, and `Visit.Fault` says what can be wrong with one of them.

* `mem_visits_iff`: the list holds the criteria that a path leads to (`Criterion.at?`), no others.
* `compiles_iff_wellFormed`: a filter compiles exactly when every criterion on the way is in order.
* `compile_error_iff_firstFault`: a filter that does not compile fails with the first fault in
  document order, whatever comes behind it.

## Where the depth is

A criterion whose path has `k + 1` places lies in `k` groups, so the compiler's count of groups is
read off the path (`hdepth` in the lemmas below), and a group at a path with more places than the
limit is too deep.
-/

namespace RecordFilter

/-! ## Paths -/

/-- The criterion that a path leads to, descending through the members of groups. -/
def Criterion.at? : Path → List Criterion → Option Criterion
  | [], _ => none
  | [i], cs => cs[i]?
  | i :: j :: path, cs => do
    let c ← cs[i]?
    let ds ← c.members?
    at? (j :: path) ds

/-! ## Visits -/

/-- What is met at one place of a filter: a criterion without its children. -/
structure Visit where
  /-- The path to the criterion. -/
  path : Path
  /-- The criterion is a group. -/
  isGroup : Bool
  property : String
  comparison : Comparison
  value : Option Value

namespace Criterion

/-- What is met at a criterion. -/
def visit (path : Path) (c : Criterion) : Visit :=
  ⟨path, c.isGroup, c.property, c.comparison, c.value⟩

mutual

/-- What is met from a criterion on, up to the end of its group. -/
def visits (path : Path) : Criterion → List Visit
  | ⟨property, comparison, value, _, some (first :: rest)⟩ =>
    ⟨path, true, property, comparison, value⟩ :: visitsFrom path 0 (first :: rest)
  | c => [c.visit path]

/-- What is met at siblings under a path, counted from `i`, in document order. -/
def visitsFrom (path : Path) (i : Nat) : List Criterion → List Visit
  | [] => []
  | c :: cs => c.visits (path ++ [i]) ++ visitsFrom path (i + 1) cs

end

theorem visits_of_group {c : Criterion} {ds : List Criterion} (h : c.members? = some ds)
    (path : Path) : c.visits path = c.visit path :: visitsFrom path 0 ds := by
  obtain ⟨property, comparison, value, connective, _ | _ | ⟨d, es⟩⟩ := c
  · cases h
  · cases h
  · cases h
    rw [visits]
    rfl

theorem visits_of_leaf {c : Criterion} (h : c.members? = none) (path : Path) :
    c.visits path = [c.visit path] := by
  obtain ⟨property, comparison, value, connective, _ | _ | ⟨d, es⟩⟩ := c
  · rw [visits]
    simp
  · rw [visits]
    simp
  · cases h

end Criterion

/-! ## Where the visits lead -/

namespace Criterion

/-- The first place of a path picks a sibling, and the rest descends through its members. -/
theorem at?_cons_eq_some_iff {i : Nat} {path : Path} {cs : List Criterion} {d : Criterion} :
    at? (i :: path) cs = some d ↔ ∃ c, cs[i]? = some c ∧
      ((path = [] ∧ c = d) ∨ ∃ ds, c.members? = some ds ∧ at? path ds = some d) := by
  rcases path with _ | ⟨j, path⟩
  · simp [at?]
  · simp [at?, Option.bind_eq_some_iff]

/-- What is met from a criterion on is the criterion itself and what its members lead to. -/
def VisitsDescend (c : Criterion) : Prop :=
  ∀ (path : Path) (v : Visit), v ∈ c.visits path ↔
    v = c.visit path ∨ ∃ ds, c.members? = some ds ∧
      ∃ q d, at? q ds = some d ∧ v = d.visit (path ++ q)

/-- What is met at siblings is what the paths from them on lead to. -/
def VisitsSpread (cs : List Criterion) : Prop :=
  ∀ (path : Path) (i : Nat) (v : Visit), v ∈ visitsFrom path i cs ↔
    ∃ k q d, at? (k :: q) cs = some d ∧ v = d.visit (path ++ (i + k) :: q)

theorem visitsDescend_of_leaf {c : Criterion} (h : c.members? = none) : VisitsDescend c := by
  intro path v
  rw [visits_of_leaf h, List.mem_singleton, h]
  simp

theorem visitsDescend_of_group {c : Criterion} {ds : List Criterion} (h : c.members? = some ds)
    (hds : VisitsSpread ds) : VisitsDescend c := by
  intro path v
  rw [visits_of_group h, List.mem_cons, hds, h]
  simp only [Option.some_inj, exists_eq_left', Nat.zero_add]
  constructor
  · rintro (hv | ⟨k, q, d, hd, hv⟩)
    · exact Or.inl hv
    · exact Or.inr ⟨k :: q, d, hd, hv⟩
  · rintro (hv | ⟨_ | ⟨k, q⟩, d, hd, hv⟩)
    · exact Or.inl hv
    · cases hd
    · exact Or.inr ⟨k, q, d, hd, hv⟩

theorem visitsSpread_nil : VisitsSpread [] := by
  intro path i v
  simp [visitsFrom, at?_cons_eq_some_iff]

theorem visitsSpread_cons {c : Criterion} {cs : List Criterion} (hc : VisitsDescend c)
    (hcs : VisitsSpread cs) : VisitsSpread (c :: cs) := by
  intro path i v
  rw [visitsFrom, List.mem_append, hc, hcs]
  constructor
  · rintro ((rfl | ⟨ds, hds, q, d, hd, rfl⟩) | ⟨k, q, d, hd, rfl⟩)
    · exact ⟨0, [], c, at?_cons_eq_some_iff.mpr ⟨c, rfl, Or.inl ⟨rfl, rfl⟩⟩, rfl⟩
    · exact ⟨0, q, d, at?_cons_eq_some_iff.mpr ⟨c, rfl, Or.inr ⟨ds, hds, hd⟩⟩, by simp⟩
    · obtain ⟨c', hc', hd'⟩ := at?_cons_eq_some_iff.mp hd
      refine ⟨k + 1, q, d, at?_cons_eq_some_iff.mpr ⟨c', ?_, hd'⟩, ?_⟩
      · rw [List.getElem?_cons_succ]
        exact hc'
      · rw [Nat.add_right_comm, Nat.add_assoc]
  · rintro ⟨k, q, d, hd, rfl⟩
    obtain ⟨c', hc', hd'⟩ := at?_cons_eq_some_iff.mp hd
    rcases k with _ | k
    · rw [List.getElem?_cons_zero, Option.some_inj] at hc'
      subst hc'
      rcases hd' with ⟨rfl, rfl⟩ | ⟨ds, hds, hd'⟩
      · exact Or.inl (Or.inl rfl)
      · exact Or.inl (Or.inr ⟨ds, hds, q, d, hd', by simp⟩)
    · rw [List.getElem?_cons_succ] at hc'
      refine Or.inr ⟨k, q, d, at?_cons_eq_some_iff.mpr ⟨c', hc', hd'⟩, ?_⟩
      rw [Nat.add_right_comm, Nat.add_assoc]

theorem visitsSpread (cs : List Criterion) : VisitsSpread cs :=
  onFilter (fun _ h => visitsDescend_of_leaf h) (fun _ _ h hds => visitsDescend_of_group h hds)
    visitsSpread_nil (fun _ _ hc hcs => visitsSpread_cons hc hcs) cs

/-- The criteria that are met are those that a path leads to. -/
theorem mem_visits_iff {filter : List Criterion} {v : Visit} :
    v ∈ visitsFrom [] 0 filter ↔ ∃ path c, at? path filter = some c ∧ v = c.visit path := by
  rw [visitsSpread]
  simp only [List.nil_append, Nat.zero_add]
  constructor
  · rintro ⟨k, q, c, hc, hv⟩
    exact ⟨k :: q, c, hc, hv⟩
  · rintro ⟨_ | ⟨k, q⟩, c, hc, hv⟩
    · cases hc
    · exact ⟨k, q, c, hc, hv⟩

end Criterion

/-! ## Faults on the way -/

variable {ρ : Type}

/-- What is wrong with a criterion that is met. -/
inductive Visit.Fault (schema : Schema ρ) (settings : Settings) (v : Visit) :
    CompileError → Prop where
  /-- A group is nested too deep. -/
  | tooDeep : v.isGroup = true → settings.maxDepth < v.path.length →
      Fault schema settings v (.tooDeep settings.maxDepth)
  /-- The criterion is no group and does not name a property. -/
  | illFormed : v.isGroup = false → v.property = "" → Fault schema settings v (.illFormed v.path)
  /-- The criterion names a property that does not compare with the value. -/
  | leaf {e : CompileError} : v.isGroup = false → v.property ≠ "" →
      LeafFault schema settings v.property v.comparison v.value e → Fault schema settings v e

/-- Nothing is wrong with a criterion that is met. -/
def Visit.IsSound (schema : Schema ρ) (settings : Settings) (v : Visit) : Prop :=
  ∀ e, ¬ v.Fault schema settings e

/-- An error is the first fault among criteria in the order in which they are met. -/
def FirstFault (schema : Schema ρ) (settings : Settings) (visits : List Visit) (e : CompileError) :
    Prop :=
  ∃ before v after, visits = before ++ v :: after ∧
    (∀ u ∈ before, u.IsSound schema settings) ∧ v.Fault schema settings e

section FirstFaults

variable {schema : Schema ρ} {settings : Settings} {e : CompileError}

theorem not_firstFault_nil : ¬ FirstFault schema settings [] e := by
  rintro ⟨before, v, after, h, -⟩
  exact absurd h.symm (by simp)

theorem firstFault_cons_iff {v : Visit} {vs : List Visit} :
    FirstFault schema settings (v :: vs) e ↔
      v.Fault schema settings e ∨ (v.IsSound schema settings ∧ FirstFault schema settings vs e) := by
  constructor
  · rintro ⟨before, u, after, h, hbefore, hu⟩
    rcases before with _ | ⟨b, before⟩
    · obtain ⟨rfl, rfl⟩ := List.cons.inj h
      exact Or.inl hu
    · obtain ⟨rfl, rfl⟩ := List.cons.inj h
      rw [List.forall_mem_cons] at hbefore
      exact Or.inr ⟨hbefore.1, before, u, after, rfl, hbefore.2, hu⟩
  · rintro (hv | ⟨hv, before, u, after, rfl, hbefore, hu⟩)
    · exact ⟨[], v, vs, rfl, by simp, hv⟩
    · exact ⟨v :: before, u, after, rfl, List.forall_mem_cons.mpr ⟨hv, hbefore⟩, hu⟩

theorem firstFault_append_iff {us vs : List Visit} :
    FirstFault schema settings (us ++ vs) e ↔
      FirstFault schema settings us e ∨
        ((∀ u ∈ us, u.IsSound schema settings) ∧ FirstFault schema settings vs e) := by
  induction us with
  | nil =>
    rw [List.nil_append]
    constructor
    · exact fun h => Or.inr ⟨by simp, h⟩
    · rintro (h | ⟨-, h⟩)
      · exact absurd h not_firstFault_nil
      · exact h
  | cons u us ih =>
    rw [List.cons_append, firstFault_cons_iff, firstFault_cons_iff, ih, List.forall_mem_cons,
      and_or_left, or_assoc, and_assoc]

theorem forall_isSound_iff {vs : List Visit} :
    (∀ v ∈ vs, v.IsSound schema settings) ↔ ∀ e, ¬ FirstFault schema settings vs e := by
  constructor
  · rintro h e ⟨before, v, after, rfl, -, hv⟩
    exact h v (by simp) e hv
  · intro h
    by_contra hnot
    obtain ⟨before, v, after, rfl, hbefore, hv⟩ := exists_first_of_not_forall hnot
    rw [Visit.IsSound, not_forall] at hv
    obtain ⟨e, he⟩ := hv
    exact h e ⟨before, v, after, rfl, hbefore, not_not.mp he⟩

/-- Up to a visit at fault, the first fault does not depend on what comes behind. -/
theorem exists_firstFault_append_cons (before : List Visit) {v : Visit}
    (hv : v.Fault schema settings e) :
    ∃ e', ∀ after, FirstFault schema settings (before ++ v :: after) e' := by
  by_cases hbefore : ∀ u ∈ before, u.IsSound schema settings
  · exact ⟨e, fun after => ⟨before, v, after, rfl, hbefore, hv⟩⟩
  · rw [forall_isSound_iff, not_forall] at hbefore
    obtain ⟨e', he'⟩ := hbefore
    exact ⟨e', fun after => firstFault_append_iff.mpr (Or.inl (not_not.mp he'))⟩

end FirstFaults

/-! ## The error of a filter -/

section Errors

variable (schema : Schema ρ) (settings : Settings)

/-- Wherever it stands, a criterion fails with the first fault from it on. -/
def FailsFirst (c : Criterion) : Prop :=
  ∀ (depth : Nat) (path : Path) (e : CompileError), path.length = depth + 1 →
    (Compile.criterion schema settings depth path c = .error e ↔
      FirstFault schema settings (c.visits path) e)

/-- Wherever they stand, siblings fail with the first fault among them. -/
def FailFirst (cs : List Criterion) : Prop :=
  ∀ (depth : Nat) (path : Path) (i : Nat) (e : CompileError), path.length = depth →
    (Compile.siblings schema settings depth path i cs = .error e ↔
      FirstFault schema settings (Criterion.visitsFrom path i cs) e)

variable {schema settings}

theorem Compile.exists_eq_ok_iff {ε α : Type} {x : Except ε α} :
    (∃ a, x = .ok a) ↔ ∀ e, x ≠ .error e := by
  cases x with
  | error e => simp
  | ok a => simp

theorem FailsFirst.exists_ok_iff {c : Criterion} (hc : FailsFirst schema settings c) {depth : Nat}
    {path : Path} (hdepth : path.length = depth + 1) :
    (∃ condition, Compile.criterion schema settings depth path c = .ok condition) ↔
      ∀ v ∈ c.visits path, v.IsSound schema settings := by
  rw [Compile.exists_eq_ok_iff, forall_isSound_iff]
  exact forall_congr' fun e => not_congr (hc depth path e hdepth)

theorem failsFirst_of_leaf {c : Criterion} (h : c.members? = none) :
    FailsFirst schema settings c := by
  intro depth path e hdepth
  have hgroup : c.isGroup = false := Criterion.isGroup_eq_false_iff.mpr h
  rw [Compile.criterion_leaf_eq_error_iff h, Criterion.visits_of_leaf h, leaf_eq_error_iff_fault,
    firstFault_cons_iff]
  constructor
  · rintro (⟨hp, rfl⟩ | ⟨hp, he⟩)
    · exact Or.inl (.illFormed hgroup hp)
    · exact Or.inl (.leaf hgroup hp he)
  · rintro (hf | ⟨-, hf⟩)
    · cases hf with
      | tooDeep hg => rw [show (c.visit path).isGroup = false from hgroup] at hg; cases hg
      | illFormed _ hp => exact Or.inl ⟨hp, rfl⟩
      | leaf _ hp he => exact Or.inr ⟨hp, he⟩
    · exact absurd hf not_firstFault_nil

theorem failsFirst_of_group {c : Criterion} {ds : List Criterion} (h : c.members? = some ds)
    (hds : FailFirst schema settings ds) : FailsFirst schema settings c := by
  intro depth path e hdepth
  have hgroup : c.isGroup = true := by rw [Criterion.isGroup, h]; rfl
  rw [Compile.criterion_group_eq_error_iff h, Criterion.visits_of_group h, firstFault_cons_iff,
    hds _ _ _ _ hdepth]
  -- A group can only be too deep, and its own members are looked at if it is not.
  have hfault : ∀ e, (c.visit path).Fault schema settings e ↔
      settings.maxDepth ≤ depth ∧ .tooDeep settings.maxDepth = e := by
    intro e
    constructor
    · intro hf
      cases hf with
      | tooDeep _ hdeep => exact ⟨by rw [Criterion.visit, hdepth] at hdeep; omega, rfl⟩
      | illFormed hg => rw [show (c.visit path).isGroup = true from hgroup] at hg; cases hg
      | leaf hg => rw [show (c.visit path).isGroup = true from hgroup] at hg; cases hg
    · rintro ⟨hdeep, rfl⟩
      exact .tooDeep hgroup (by rw [Criterion.visit, hdepth]; omega)
  have hsound : (c.visit path).IsSound schema settings ↔ depth < settings.maxDepth := by
    rw [Visit.IsSound]
    simp only [hfault, not_and, ← Nat.not_le]
    exact ⟨fun h hdeep => h _ hdeep rfl, fun h _ hdeep => absurd hdeep h⟩
  rw [hfault, hsound]

theorem failFirst_nil : FailFirst schema settings [] := by
  intro depth path i e hdepth
  rw [Compile.siblings_nil, Criterion.visitsFrom]
  constructor
  · intro h
    cases h
  · intro h
    exact absurd h not_firstFault_nil

theorem failFirst_cons {c : Criterion} {cs : List Criterion} (hc : FailsFirst schema settings c)
    (hcs : FailFirst schema settings cs) : FailFirst schema settings (c :: cs) := by
  intro depth path i e hdepth
  have hlength : (path ++ [i]).length = depth + 1 := by simp [hdepth]
  rw [Compile.siblings_cons_eq_error_iff, Criterion.visitsFrom, firstFault_append_iff,
    hc _ _ _ hlength, hc.exists_ok_iff hlength, hcs _ _ _ _ hdepth]

theorem failFirst (cs : List Criterion) : FailFirst schema settings cs :=
  Criterion.onFilter (fun _ h => failsFirst_of_leaf h)
    (fun _ _ h hds => failsFirst_of_group h hds) failFirst_nil
    (fun _ _ hc hcs => failFirst_cons hc hcs) cs

theorem compile_eq_error_iff_firstFault {filter : List Criterion} {e : CompileError} :
    compile schema settings filter = .error e ↔
      FirstFault schema settings (Criterion.visitsFrom [] 0 filter) e := by
  rw [Compile.compile_eq_error_iff]
  exact failFirst filter 0 [] 0 e rfl

theorem exists_compile_eq_ok_iff {filter : List Criterion} :
    (∃ p, compile schema settings filter = .ok p) ↔
      ∀ v ∈ Criterion.visitsFrom [] 0 filter, v.IsSound schema settings := by
  rw [Compile.exists_eq_ok_iff, forall_isSound_iff]
  exact forall_congr' fun e => not_congr compile_eq_error_iff_firstFault

/-- A criterion at a path is in order when it is a group within the limit, or a leaf that names a
property and fits. -/
theorem visit_isSound_iff {path : Path} {c : Criterion} :
    (c.visit path).IsSound schema settings ↔
      (c.isGroup = true → path.length ≤ settings.maxDepth) ∧
        (c.isGroup = false → c.property ≠ "" ∧ c.Fits schema settings) := by
  rw [← forall_not_leafFault_iff]
  constructor
  · intro h
    refine ⟨fun hg => ?_, fun hg => ?_⟩
    · by_contra hdeep
      exact h _ (.tooDeep hg (Nat.lt_of_not_le hdeep))
    · have hp : c.property ≠ "" := fun hp => h _ (.illFormed hg hp)
      exact ⟨hp, fun e he => h e (.leaf hg hp he)⟩
  · rintro ⟨hgroup, hleaf⟩ e hf
    cases hf with
    | tooDeep hg hdeep => exact absurd (hgroup hg) (Nat.not_le_of_lt hdeep)
    | illFormed hg hp => exact (hleaf hg).1 hp
    | leaf hg _ he => exact (hleaf hg).2 e he

/-! ## Main results -/

variable (schema settings)

/-- **A filter compiles exactly when it is well-formed.**  Every criterion that a path leads to has
to be a group within the limit --- a group at a path of `k` places is the `k`-th of those nested in
one another --- or a leaf that names a property and fits: the property stands for a field, there is
a value, the comparison suits the field's type, and the value, or each element of the list that
membership is asked in, stands for one of the type. -/
theorem compiles_iff_wellFormed (filter : List Criterion) :
    (∃ p, compile schema settings filter = .ok p) ↔
      ∀ path c, Criterion.at? path filter = some c →
        (c.isGroup = true → path.length ≤ settings.maxDepth) ∧
          (c.isGroup = false → c.property ≠ "" ∧ c.Fits schema settings) := by
  rw [exists_compile_eq_ok_iff]
  constructor
  · intro h path c hc
    exact visit_isSound_iff.mp (h _ (Criterion.mem_visits_iff.mpr ⟨path, c, hc, rfl⟩))
  · intro h v hv
    obtain ⟨path, c, hc, rfl⟩ := Criterion.mem_visits_iff.mp hv
    exact visit_isSound_iff.mpr (h path c hc)

/-- **The error of a filter is its first fault in document order.**  Filters that agree up to a
criterion at fault, and in that criterion, fail alike, whatever stands behind it.  The message about
a value that stands for none of a type shows the whole text of that value. -/
theorem compile_error_iff_firstFault (filter : List Criterion) (e : CompileError) :
    (compile schema settings filter = .error e ↔
      ∃ before v after, Criterion.visitsFrom [] 0 filter = before ++ v :: after ∧
        (∀ u ∈ before, ∀ e', ¬ u.Fault schema settings e') ∧ v.Fault schema settings e) ∧
    (∀ filter' before v after after',
      Criterion.visitsFrom [] 0 filter = before ++ v :: after →
      Criterion.visitsFrom [] 0 filter' = before ++ v :: after' →
      v.Fault schema settings e →
        ∃ e', compile schema settings filter = .error e' ∧
          compile schema settings filter' = .error e') ∧
    (∀ field v type, e = .invalidValue field v type →
      e.message = "Invalid value " ++ v.text ++ " for field '" ++ field ++
        "': cannot convert to " ++ type.name) := by
  refine ⟨compile_eq_error_iff_firstFault, ?_, ?_⟩
  · intro filter' before v after after' h h' hv
    obtain ⟨e', he'⟩ := exists_firstFault_append_cons before hv
    refine ⟨e', ?_, ?_⟩
    · rw [compile_eq_error_iff_firstFault, h]
      exact he' after
    · rw [compile_eq_error_iff_firstFault, h']
      exact he' after'
  · rintro field v type rfl
    rfl

end Errors

end RecordFilter
