import RecordFilter.Collection
import RecordFilter.Proofs.Relaxation

/-!
# Two filters as groups of one

Any two filters that compile can be made into one, each of them a group: joined by *and* they keep
the records that both accept, joined by *or* those that at least one accepts.  Nothing of the
connectives inside a group reaches outside it, and a group costs one level of depth.

What a group compiles to is exactly what its members compile to on their own
(`criterion_eq_grouped`): they stand one level deeper under a limit that is one higher, so they
persist in the sense of `Persists`.  Everything else is said of the two predicates.
-/

namespace RecordFilter

variable {ρ : Type} {schema : Schema ρ} {settings : Settings}

/-- A filter that compiles is compiled to the same condition as the members of a group, if the limit
is one higher. -/
theorem Compile.criterion_eq_grouped {c : Criterion} {filter : List Criterion}
    (hc : c.members? = some filter) {p : Predicate ρ}
    (hp : compile schema settings filter = .ok p) (i : Nat) :
    criterion schema { settings with maxDepth := settings.maxDepth + 1 } 0 [i] c =
      .ok (.grouped p.root) := by
  obtain ⟨conditions, hconditions, rfl⟩ := compile_eq_ok_iff.mp hp
  have hadmits : Admits settings 0 { settings with maxDepth := settings.maxDepth + 1 } 1 :=
    ⟨Nat.le_refl _, id⟩
  have hmembers := (persist_siblings [i] filter 0 1 [] 0 hadmits).eq_ok hconditions
  exact (criterion_group_eq_ok_iff hc).mpr ⟨Nat.succ_pos _, conditions, hmembers, rfl⟩

/-- Two filters that compile make one filter as groups, and it compiles to the chain of the two. -/
theorem compile_groups {f g : List Criterion} (hf : f ≠ []) (hg : g ≠ []) {p q : Predicate ρ}
    (hp : compile schema settings f = .ok p) (hq : compile schema settings g = .ok q)
    (connective : Connective) :
    compile schema { settings with maxDepth := settings.maxDepth + 1 }
        [.group f, (Criterion.group g).joinedBy connective] =
      .ok ⟨.chain (.grouped p.root) [(connective, .grouped q.root)]⟩ := by
  have hfirst := Compile.criterion_eq_grouped
    (Criterion.members?_eq_some_iff.mpr ⟨(rfl : (Criterion.group f).children = some f), hf⟩) hp 0
  have hsecond := Compile.criterion_eq_grouped (c := (Criterion.group g).joinedBy connective)
    (Criterion.members?_eq_some_iff.mpr ⟨rfl, hg⟩) hq 1
  refine Compile.compile_eq_ok_iff.mpr ⟨[(.and, .grouped p.root), (connective, .grouped q.root)],
    ?_, rfl⟩
  refine Compile.siblings_cons_eq_ok_iff.mpr ⟨_, hfirst, [(connective, .grouped q.root)], ?_, rfl⟩
  exact Compile.siblings_cons_eq_ok_iff.mpr ⟨_, hsecond, [], Compile.siblings_nil 2, rfl⟩

/-- A chain of two groups joins what the two accept. -/
theorem Predicate.accepts_groups (p q : Predicate ρ) (connective : Connective) (record : ρ) :
    (Predicate.mk (.chain (.grouped p.root) [(connective, .grouped q.root)])).accepts record =
      connective.join (p.accepts record) (q.accepts record) := by
  rw [accepts, Condition.holds_chain, List.foldl_cons, List.foldl_nil, Condition.holds_grouped,
    Condition.holds_grouped]
  rfl

/-- **Groups joined by *and* narrow twice, and groups joined by *or* keep both.**  Two filters that
compile and are not empty make one filter as two groups, which compiles if the limit is one higher.
Joined by *and*, the groups keep of any collection what the second filter keeps of the records that
the first one keeps; joined by *or*, they keep the records that one of the two accepts, each as often
as it occurs and in the order of the collection. -/
theorem matching_groups (schema : Schema ρ) {settings : Settings} {f g : List Criterion}
    (hf : f ≠ []) (hg : g ≠ []) {p q : Predicate ρ} (hp : compile schema settings f = .ok p)
    (hq : compile schema settings g = .ok q) :
    ∃ both either : Predicate ρ,
      compile schema { settings with maxDepth := settings.maxDepth + 1 }
        [.group f, (Criterion.group g).joinedBy .and] = .ok both ∧
      compile schema { settings with maxDepth := settings.maxDepth + 1 }
        [.group f, (Criterion.group g).joinedBy .or] = .ok either ∧
      ∀ c : Collection ρ,
        c.matching both = (Collection.mk (c.matching p)).matching q ∧
        c.matching either = c.records.filter fun record => p.accepts record || q.accepts record := by
  refine ⟨_, _, compile_groups hf hg hp hq .and, compile_groups hf hg hp hq .or, fun c => ⟨?_, ?_⟩⟩
  · rw [Collection.matching, Collection.matching, Collection.matching, Array.filter_filter]
    refine congrArg (Array.filter · c.records) (funext fun record => ?_)
    rw [Predicate.accepts_groups, Connective.join, Bool.and_comm]
  · rw [Collection.matching]
    refine congrArg (Array.filter · c.records) (funext fun record => ?_)
    rw [Predicate.accepts_groups, Connective.join]

/-! ### An instance -/

theorem matching_groups_ages :
    ∃ both either : Predicate Int64,
      compile ages { maxDepth := 65 }
        [.group agesFilter, (Criterion.group elderFilter).joinedBy .and] = .ok both ∧
      compile ages { maxDepth := 65 }
        [.group agesFilter, (Criterion.group elderFilter).joinedBy .or] = .ok either ∧
      (Collection.ofList [28, 7, 40, 20, 28]).matching both = #[28, 28] ∧
      (Collection.ofList [28, 7, 40, 20, 28]).matching either = #[28, 40, 20, 28] := by
  obtain ⟨both, either, hboth, heither, h⟩ := matching_groups ages (by decide) (by decide)
    compile_agesFilter (compile_elderFilter (by decide))
  refine ⟨both, either, hboth, heither, ?_, ?_⟩
  · rw [(h _).1]
    decide
  · rw [(h _).2]
    decide

end RecordFilter
