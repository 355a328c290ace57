import RecordFilter.Proofs.DocumentOrder
import RecordFilter.Proofs.Meaning

/-!
# What compiling ignores

Three parts of a filter mean nothing: the connective of the first of some siblings, which joins
nothing; the property, the comparison and the value of a group; and the difference between no
children and an empty list of them.  Filters that differ in nothing else compile to the same
predicate, or fail with the same error.

`Alike` relates two lists of siblings that differ in these parts at any depth.  How the connectives
of the later siblings have to agree is left open there, since they decide what a predicate accepts,
but neither whether a filter compiles nor why it does not.

* `Alike.siblings_eq`: siblings that are alike compile alike.
* `Alike.siblings_eq_error_iff`: they fail alike, whatever their connectives.
* `compile_eq_of_alike`: both, said of whole filters.
-/

namespace RecordFilter

/-! ## The relation -/

/-- The two lists differ only in what is ignored.  They are the whole of some siblings if they are
`whole`, and otherwise stand behind other siblings, in which case the connectives of two criteria at
one place are related by `Joined`. -/
inductive Alike (Joined : Connective → Connective → Prop) :
    (whole : Bool) → List Criterion → List Criterion → Prop where
  | nil {whole : Bool} : Alike Joined whole [] []
  /-- Two leaves have their property, comparison and value in common. -/
  | leaf {whole : Bool} {c d : Criterion} {cs ds : List Criterion} :
      (whole = false → Joined c.connective d.connective) →
      c.members? = none → d.members? = none →
      c.property = d.property → c.comparison = d.comparison → c.value = d.value →
      Alike Joined false cs ds → Alike Joined whole (c :: cs) (d :: ds)
  /-- Two groups have nothing in common but their members. -/
  | group {whole : Bool} {c d : Criterion} {cs ds inner inner' : List Criterion} :
      (whole = false → Joined c.connective d.connective) →
      c.members? = some inner → d.members? = some inner' →
      Alike Joined true inner inner' →
      Alike Joined false cs ds → Alike Joined whole (c :: cs) (d :: ds)

/-- The connective of the first of some siblings is dropped. -/
theorem Condition.ofSiblings_cons {ρ : Type} (j j' : Connective) (first : Condition ρ)
    (rest : List (Connective × Condition ρ)) :
    ofSiblings ((j, first) :: rest) = ofSiblings ((j', first) :: rest) := by
  cases rest with
  | nil => rfl
  | cons next rest => rfl

variable {ρ : Type} {schema : Schema ρ} {settings : Settings}

/-! ## One criterion -/

/-- A leaf is made of its property, its comparison and its value alone. -/
theorem Compile.leaf_congr {c d : Criterion} (hproperty : c.property = d.property)
    (hcomparison : c.comparison = d.comparison) (hvalue : c.value = d.value) :
    Compile.leaf schema settings c = Compile.leaf schema settings d := by
  unfold Compile.leaf
  rw [hproperty, hcomparison, hvalue]

theorem Compile.criterion_eq_of_leaf {c d : Criterion} (hc : c.members? = none)
    (hd : d.members? = none) (hproperty : c.property = d.property)
    (hcomparison : c.comparison = d.comparison) (hvalue : c.value = d.value) (depth : Nat)
    (path : Path) :
    criterion schema settings depth path c = criterion schema settings depth path d := by
  rw [criterion_of_leaf hc, criterion_of_leaf hd, hproperty,
    leaf_congr hproperty hcomparison hvalue]

/-- A group is made of the condition of its members. -/
theorem Compile.criterion_eq_of_group {c d : Criterion} {inner inner' : List Criterion}
    (hc : c.members? = some inner) (hd : d.members? = some inner') {depth : Nat} {path : Path}
    (h : Condition.ofSiblings <$> siblings schema settings (depth + 1) path 0 inner =
      Condition.ofSiblings <$> siblings schema settings (depth + 1) path 0 inner') :
    criterion schema settings depth path c = criterion schema settings depth path d := by
  rw [criterion_of_group hc, criterion_of_group hd, comp_map, comp_map, h]

/-! ## Siblings -/

/-- Siblings whose first criteria compile alike, and likewise those behind them, have the same
condition, and are the same conditions if the connectives in front are the same. -/
theorem Compile.siblings_cons_eq {c d : Criterion} {cs ds : List Criterion} {depth i : Nat}
    {path : Path}
    (hfirst : criterion schema settings depth (path ++ [i]) c =
      criterion schema settings depth (path ++ [i]) d)
    (hrest : siblings schema settings depth path (i + 1) cs =
      siblings schema settings depth path (i + 1) ds) :
    (c.connective = d.connective → siblings schema settings depth path i (c :: cs) =
      siblings schema settings depth path i (d :: ds)) ∧
    Condition.ofSiblings <$> siblings schema settings depth path i (c :: cs) =
      Condition.ofSiblings <$> siblings schema settings depth path i (d :: ds) := by
  rw [siblings, siblings, hfirst, hrest]
  refine ⟨fun hconnective => by rw [hconnective], ?_⟩
  cases criterion schema settings depth (path ++ [i]) d with
  | error e => rfl
  | ok condition =>
    cases siblings schema settings depth path (i + 1) ds with
    | error e => rfl
    | ok rest =>
      exact congrArg Except.ok (Condition.ofSiblings_cons c.connective d.connective condition rest)

/-- Siblings that are alike have the same condition; behind other siblings, they are the same
conditions. -/
theorem Alike.siblings_eq {whole : Bool} {cs ds : List Criterion} (h : Alike Eq whole cs ds) :
    ∀ (depth : Nat) (path : Path) (i : Nat),
      (whole = false → Compile.siblings schema settings depth path i cs =
        Compile.siblings schema settings depth path i ds) ∧
      Condition.ofSiblings <$> Compile.siblings schema settings depth path i cs =
        Condition.ofSiblings <$> Compile.siblings schema settings depth path i ds := by
  induction h with
  | nil => exact fun _ _ _ => ⟨fun _ => rfl, rfl⟩
  | leaf hjoined hc hd hproperty hcomparison hvalue _ ih =>
    intro depth path i
    have hfirst : Compile.criterion schema settings depth (path ++ [i]) _ =
        Compile.criterion schema settings depth (path ++ [i]) _ :=
      Compile.criterion_eq_of_leaf hc hd hproperty hcomparison hvalue depth (path ++ [i])
    have hboth := Compile.siblings_cons_eq hfirst ((ih depth path (i + 1)).1 rfl)
    exact ⟨fun hwhole => hboth.1 (hjoined hwhole), hboth.2⟩
  | group hjoined hc hd _ _ ihinner ih =>
    intro depth path i
    have hfirst := Compile.criterion_eq_of_group hc hd (ihinner (depth + 1) (path ++ [i]) 0).2
    have hboth := Compile.siblings_cons_eq hfirst ((ih depth path (i + 1)).1 rfl)
    exact ⟨fun hwhole => hboth.1 (hjoined hwhole), hboth.2⟩

/-! ## Errors -/

/-- Siblings whose first criteria fail alike, and likewise those behind them, fail alike. -/
theorem Compile.siblings_cons_eq_error_iff_of {c d : Criterion} {cs ds : List Criterion}
    {depth i : Nat} {path : Path}
    (hfirst : ∀ e, criterion schema settings depth (path ++ [i]) c = .error e ↔
      criterion schema settings depth (path ++ [i]) d = .error e)
    (hrest : ∀ e, siblings schema settings depth path (i + 1) cs = .error e ↔
      siblings schema settings depth path (i + 1) ds = .error e) (e : CompileError) :
    siblings schema settings depth path i (c :: cs) = .error e ↔
      siblings schema settings depth path i (d :: ds) = .error e := by
  have hcompiles : (∃ condition, criterion schema settings depth (path ++ [i]) c = .ok condition) ↔
      ∃ condition, criterion schema settings depth (path ++ [i]) d = .ok condition := by
    rw [exists_eq_ok_iff, exists_eq_ok_iff]
    exact forall_congr' fun e => not_congr (hfirst e)
  rw [siblings_cons_eq_error_iff, siblings_cons_eq_error_iff, hfirst, hrest, hcompiles]

/-- Siblings that are alike fail alike, whatever connectives join them. -/
theorem Alike.siblings_eq_error_iff {Joined : Connective → Connective → Prop} {whole : Bool}
    {cs ds : List Criterion} (h : Alike Joined whole cs ds) :
    ∀ (depth : Nat) (path : Path) (i : Nat) (e : CompileError),
      Compile.siblings schema settings depth path i cs = .error e ↔
        Compile.siblings schema settings depth path i ds = .error e := by
  induction h with
  | nil => exact fun _ _ _ _ => Iff.rfl
  | leaf _ hc hd hproperty hcomparison hvalue _ ih =>
    intro depth path i e
    have hfirst : Compile.criterion schema settings depth (path ++ [i]) _ =
        Compile.criterion schema settings depth (path ++ [i]) _ :=
      Compile.criterion_eq_of_leaf hc hd hproperty hcomparison hvalue depth (path ++ [i])
    exact Compile.siblings_cons_eq_error_iff_of (fun e => by rw [hfirst])
      (ih depth path (i + 1)) e
  | group _ hc hd _ _ ihinner ih =>
    intro depth path i e
    refine Compile.siblings_cons_eq_error_iff_of (fun e => ?_) (ih depth path (i + 1)) e
    rw [Compile.criterion_group_eq_error_iff hc, Compile.criterion_group_eq_error_iff hd,
      ihinner (depth + 1) (path ++ [i]) 0 e]

/-! ## Filters -/

/-- **What is ignored has no influence.**  Two filters that differ only in the connective of the
first of some siblings, in the property, the comparison and the value of a group, and in an empty
list of children where the other has none, compile to the same predicate or fail with the same
error, at the same path and with the same message.  If the connectives of later siblings differ as
well, either both compile or both fail, and then with the same error. -/
theorem compile_eq_of_alike (schema : Schema ρ) (settings : Settings) {f g : List Criterion} :
    (Alike Eq true f g → compile schema settings f = compile schema settings g) ∧
    (Alike (fun _ _ => True) true f g →
      ((∃ p, compile schema settings f = .ok p) ↔ ∃ p, compile schema settings g = .ok p) ∧
        ∀ e, compile schema settings f = .error e ↔ compile schema settings g = .error e) := by
  constructor
  · intro h
    rw [compile, compile, comp_map, comp_map, (h.siblings_eq 0 [] 0).2]
  · intro h
    have herror : ∀ e, compile schema settings f = .error e ↔
        compile schema settings g = .error e := by
      intro e
      rw [Compile.compile_eq_error_iff, Compile.compile_eq_error_iff]
      exact h.siblings_eq_error_iff 0 [] 0 e
    refine ⟨?_, herror⟩
    rw [Compile.exists_eq_ok_iff, Compile.exists_eq_ok_iff]
    exact forall_congr' fun e => not_congr (herror e)

/-! ### An instance -/

/-- `Age >= 18 && (Age <= 30 || Nick == true)`, with nothing in it that is ignored. -/
def plainFilter : List Criterion :=
  [.leaf "Age" .atLeast (.integer 18),
    .group [.leaf "Age" .atMost (.integer 30),
      (Criterion.leaf "Nick" .equals (.boolean true)).joinedBy .or]]

/-- The same with a connective in front of the first sibling of each list, a group that names a
property, and a leaf with an empty list of children. -/
def decoratedFilter : List Criterion :=
  [⟨"Age", .atLeast, some (.integer 18), .or, some []⟩,
    ⟨"Nick", .contains, some (.string "x"), .and,
      some [(Criterion.leaf "Age" .atMost (.integer 30)).joinedBy .or,
        ⟨"Nick", .equals, some (.boolean true), .or, some []⟩]⟩]

/-- The same with other connectives everywhere. -/
def rejoinedFilter : List Criterion :=
  [.leaf "Age" .atLeast (.integer 18),
    (Criterion.group [.leaf "Age" .atMost (.integer 30),
      .leaf "Nick" .equals (.boolean true)]).joinedBy .or]

theorem alike_decoratedFilter : Alike Eq true plainFilter decoratedFilter :=
  .leaf nofun rfl rfl rfl rfl rfl <|
    .group (fun _ => rfl) rfl rfl
      (.leaf nofun rfl rfl rfl rfl rfl (.leaf (fun _ => rfl) rfl rfl rfl rfl rfl .nil))
      .nil

theorem alike_rejoinedFilter : Alike (fun _ _ => True) true plainFilter rejoinedFilter :=
  .leaf nofun rfl rfl rfl rfl rfl <|
    .group (fun _ => trivial) rfl rfl
      (.leaf nofun rfl rfl rfl rfl rfl (.leaf (fun _ => trivial) rfl rfl rfl rfl rfl .nil))
      .nil

theorem compile_eq_of_alike_plainFilter :
    (Alike Eq true plainFilter decoratedFilter ∧
      compile ages {} plainFilter = compile ages {} decoratedFilter) ∧
    Alike (fun _ _ => True) true plainFilter rejoinedFilter ∧
      ∀ e, compile ages {} plainFilter = .error e ↔ compile ages {} rejoinedFilter = .error e :=
  ⟨⟨alike_decoratedFilter, (compile_eq_of_alike ages {}).1 alike_decoratedFilter⟩,
    alike_rejoinedFilter, ((compile_eq_of_alike ages {}).2 alike_rejoinedFilter).2⟩

end RecordFilter
