import RecordFilter.Proofs.Cli.Stages
import RecordFilter.Proofs.Criterion.Normal
import RecordFilter.Proofs.DocumentOrder

/-!
# How deep the filter of a text nests

Two limits bound how deep a filter nests.  The reader counts the brackets that are open at once, of
which it allows 127, and the compiler counts the groups around a criterion, of which the settings
allow as many as they say.  A group costs two brackets, one for the list that it stands in and one
for itself, and its members cost two more.  So the `k`-th of the groups nested in one another takes
`2 * k + 2` brackets, and the reader lets no more than 62 of them through: under a limit of 62 or
more, no text leads to a filter that the compiler finds too deep.

The bound is sharp.  `Criterion.nested n` is a filter of `n` groups whose text opens exactly
`2 * n + 2` brackets, and it is too deep for each limit below `n`.

* `Criterion.length_le_of_at?`: how many places lead to a group.
* `compile_ne_tooDeep`, `compile_nested`: filters that are not too deep for a limit, and that are.
* `compile_text_ne_tooDeep`: which limits no text can reach.
-/

namespace RecordFilter

namespace Criterion

/-! ## Brackets and groups -/

/-- The children of a criterion have two brackets less than the list that it stands in. -/
theorem exists_of_nesting_le {cs : List Criterion} {c : Criterion} {brackets : Nat}
    (h : (Json.array (toJsons cs)).nesting ≤ brackets) (hc : c ∈ cs) :
    ∃ n, brackets = n + 2 ∧
      ∀ ds, c.children = some ds → (Json.array (toJsons ds)).nesting ≤ n := by
  cases brackets with
  | zero => cases h
  | succ m =>
    rw [Json.nesting, Nat.add_le_add_iff_right, nestingItems_toJsons_le_iff] at h
    have hobject := h c hc
    cases m with
    | zero =>
      rw [toJson_eq] at hobject
      cases hobject
    | succ n => exact ⟨n, rfl, (nesting_toJson_le_iff.mp hobject).2⟩

/-- A path to a group takes two brackets for each of its places, and the group has members, which
take two more. -/
theorem length_le_of_at? {path : Path} {filter : List Criterion} {c : Criterion} {brackets : Nat}
    (h : (Json.array (toJsons filter)).nesting ≤ brackets) (hc : at? path filter = some c)
    (hgroup : c.isGroup = true) : 2 * path.length + 2 ≤ brackets := by
  induction path generalizing filter brackets with
  | nil => cases hc
  | cons i path ih =>
    obtain ⟨d, hd, hrest⟩ := at?_cons_eq_some_iff.mp hc
    obtain ⟨n, rfl, hchildren⟩ := exists_of_nesting_le h (List.mem_of_getElem? hd)
    rw [List.length_cons]
    rcases hrest with ⟨rfl, rfl⟩ | ⟨ds, hds, hc⟩
    · -- The path ends at the group, and the first of its members takes the last two brackets.
      obtain ⟨ds, hds⟩ := Option.isSome_iff_exists.mp hgroup
      obtain ⟨hds, hne⟩ := members?_eq_some_iff.mp hds
      obtain ⟨e, he⟩ := List.exists_mem_of_ne_nil ds hne
      obtain ⟨m, rfl, -⟩ := exists_of_nesting_le (hchildren ds hds) he
      simp
    · have hlength := ih (hchildren ds (members?_eq_some_iff.mp hds).1) hc
      omega

/-! ## Filters that nest as deep as wished -/

/-- A comparison in the given number of groups, each of which has one member. -/
def nested : Nat → List Criterion
  | 0 => [leaf "Age" .atLeast (.integer 18)]
  | n + 1 => [group (nested n)]

theorem members?_group_nested (n : Nat) : (group (nested n)).members? = some (nested n) := by
  cases n with
  | zero => rfl
  | succ n => rfl

theorem nesting_nested (n : Nat) : (Json.array (toJsons (nested n))).nesting = 2 * n + 2 := by
  induction n with
  | zero => decide
  | succ n ih =>
    rw [nested, toJsons, toJsons, Json.nesting, Json.nestingItems, Json.nestingItems, Nat.max_zero,
      toJson_eq, Json.nesting]
    simp only [written, group, Option.map_none, Option.toList_none, childrenToJson,
      List.append_nil, List.cons_append, List.nil_append, Json.nestingMembers, ih]
    simp only [Json.nesting]
    omega

theorem everywhere_nested (n : Nat) :
    Everywhere (fun c => ∀ v, c.value = some v → v = .integer 18) (nested n) := by
  induction n with
  | zero =>
    rw [nested, everywhere_cons]
    refine ⟨⟨fun v hv => ?_, fun ds hds => nomatch hds⟩, everywhere_nil⟩
    cases hv
    rfl
  | succ n ih =>
    rw [nested, everywhere_cons]
    refine ⟨⟨fun v hv => (nomatch hv), fun ds hds => ?_⟩, everywhere_nil⟩
    cases hds
    exact ih

theorem eq_of_carries_nested {n : Nat} {v : Value} (h : Carries (nested n) v) :
    v = .integer 18 := by
  obtain ⟨path, c, hc, hv⟩ := h
  exact everywhere_nested n path c hc v hv

/-- The text of a nested filter is read as the filter, unless it has more brackets than a text may. -/
theorem listOfText_listText_nested {n : Nat} (h : n ≤ 62) :
    listOfText (listText (nested n)) = .ok (nested n) := by
  cases htext : listOfText (listText (nested n)) with
  | error e =>
    exfalso
    rcases exists_error_iff_nesting.mp ⟨e, htext⟩ with hdeep | ⟨items, x, hitems, -⟩
    · rw [nesting_nested] at hdeep
      omega
    · cases eq_of_carries_nested hitems
  | ok ds =>
    refine congrArg _ ((eq_iff_of_listOfText htext).mpr ⟨fun x hx => ?_, fun v x hv hx => ?_⟩)
    · cases eq_of_carries_nested hx
    · cases eq_of_carries_nested hv
      cases hx

end Criterion

/-! ## Limits -/

variable {ρ : Type} {schema : Schema ρ} {settings : Settings}

/-- A filter that is too deep has a group at a path of more places than the limit. -/
theorem exists_group_of_tooDeep {filter : List Criterion} {limit : Nat}
    (h : compile schema settings filter = .error (.tooDeep limit)) :
    ∃ path c, Criterion.at? path filter = some c ∧ c.isGroup = true ∧
      settings.maxDepth < path.length := by
  obtain ⟨before, v, after, hvisits, -, hfault⟩ := compile_eq_error_iff_firstFault.mp h
  obtain ⟨path, c, hc, rfl⟩ := Criterion.mem_visits_iff.mp
    (hvisits ▸ List.mem_append_right before List.mem_cons_self)
  cases hfault with
  | tooDeep hgroup hdeep => exact ⟨path, c, hc, hgroup, hdeep⟩
  | leaf _ _ hleaf =>
    -- What is wrong with a leaf is never its depth.
    cases hleaf with
    | value _ _ hvalue => cases hvalue

theorem compile_ne_tooDeep {filter : List Criterion}
    (h : (Json.array (Criterion.toJsons filter)).nesting < 2 * settings.maxDepth + 4) (limit : Nat) :
    compile schema settings filter ≠ .error (.tooDeep limit) := by
  intro htooDeep
  obtain ⟨path, c, hc, hgroup, hdeep⟩ := exists_group_of_tooDeep htooDeep
  have hlength := Criterion.length_le_of_at? (Nat.le_refl _) hc hgroup
  omega

theorem siblings_nested {n depth : Nat} (hdepth : depth ≤ settings.maxDepth)
    (hdeep : settings.maxDepth < depth + n) (path : Path) (i : Nat) :
    Compile.siblings schema settings depth path i (Criterion.nested n) =
      .error (.tooDeep settings.maxDepth) := by
  induction n generalizing depth path i with
  | zero => omega
  | succ n ih =>
    rw [Criterion.nested, Compile.siblings_cons_eq_error_iff,
      Compile.criterion_group_eq_error_iff (Criterion.members?_group_nested n)]
    left
    rcases Nat.eq_or_lt_of_le hdepth with heq | hlt
    · exact Or.inl ⟨heq.ge, rfl⟩
    · exact Or.inr ⟨hlt, ih hlt (by omega) _ _⟩

theorem compile_nested {n : Nat} (h : settings.maxDepth < n) :
    compile schema settings (Criterion.nested n) = .error (.tooDeep settings.maxDepth) :=
  Compile.compile_eq_error_iff.mpr
    (siblings_nested (Nat.zero_le _) (by rwa [Nat.zero_add]) [] 0)

/-! ## Main results -/

/-- No filter of a text is too deep for a limit of 62 or more. -/
theorem compile_ne_tooDeep_of_listOfText {text : String} {filter : List Criterion}
    (h : Criterion.listOfText text = .ok filter) (hlimit : 62 ≤ settings.maxDepth) (limit : Nat) :
    compile schema settings filter ≠ .error (.tooDeep limit) := by
  have hnesting : (Json.array (Criterion.toJsons filter)).nesting ≤ 127 :=
    (Criterion.haveForm_of_listOfText h).nesting_le
  exact compile_ne_tooDeep (by omega) limit

/-- No filter that a command compiles is too deep for the default limit. -/
theorem Cli.Command.Compiles.ne_tooDeep {readFile : String → Id (Option String)}
    {command : Command} {filter : List Criterion} {settings' : Settings}
    (h : command.Compiles readFile filter settings')
    (hdefault : settings.maxDepth = ({} : Settings).maxDepth) (limit : Nat) :
    compile schema settings filter ≠ .error (.tooDeep limit) := by
  have hlimit : 62 ≤ settings.maxDepth := by
    rw [hdefault]
    decide
  cases h with
  | demo =>
    have hsample : (Json.array (Criterion.toJsons User.sampleFilter)).nesting ≤ 127 := by decide
    exact compile_ne_tooDeep (by omega) limit
  | run _ hfilter => exact compile_ne_tooDeep_of_listOfText hfilter hlimit limit
  | explain _ hfilter => exact compile_ne_tooDeep_of_listOfText hfilter hlimit limit

/-- **The limits that no text reaches.** The limits under which no filter that is read from a text
is too deep, whatever the text and the schema, are those from 62 on.  The default limit is one of
them: if no argument names the limit, then the program never reports that a filter is too deep. -/
theorem compile_text_ne_tooDeep (schema : Schema ρ) (settings : Settings) :
    ((∀ text filter, Criterion.listOfText text = .ok filter →
        ∀ limit, compile schema settings filter ≠ .error (.tooDeep limit)) ↔
      62 ≤ settings.maxDepth) ∧
    ∀ (readFile : String → Id (Option String)) (args : List String),
      (∀ arg ∈ args, ¬ Cli.Flag.maxDepth.IsNamedBy arg) → ∀ limit,
        Id.run (Cli.report readFile args) ≠ .failed (.uncompilable (.tooDeep limit)) := by
  refine ⟨⟨fun h => ?_, fun hlimit text filter h => compile_ne_tooDeep_of_listOfText h hlimit⟩, ?_⟩
  · by_contra hlimit
    exact h _ _ (Criterion.listOfText_listText_nested (Nat.le_refl 62)) _
      (compile_nested (Nat.lt_of_not_le hlimit))
  · intro readFile args hargs limit hreport
    obtain ⟨command, hcommand, hperform⟩ := Cli.report_eq_failed_iff.mp hreport
    obtain ⟨filter, settings', hcompiles, htooDeep⟩ := Cli.exists_compiles_of_perform hperform
    have hdefault := Cli.maxDepth_of_command? hargs hcommand hcompiles.settings?_eq
    exact hcompiles.ne_tooDeep hdefault limit htooDeep

theorem compile_text_ne_tooDeep_nested :
    (∀ arg ∈ ["explain", "--filter=nested.json"], ¬ Cli.Flag.maxDepth.IsNamedBy arg) ∧
    Criterion.listOfText (Criterion.listText (Criterion.nested 62)) = .ok (Criterion.nested 62) ∧
    (∀ limit, compile User.schema { maxDepth := 62 } (Criterion.nested 62) ≠
      .error (.tooDeep limit)) ∧
    ∀ limit, Id.run (Cli.report (fun _ => some (Criterion.listText (Criterion.nested 62)))
      ["explain", "--filter=nested.json"]) ≠ .failed (.uncompilable (.tooDeep limit)) := by
  have hargs : ∀ arg ∈ ["explain", "--filter=nested.json"],
      ¬ Cli.Flag.maxDepth.IsNamedBy arg := by decide
  have htext := Criterion.listOfText_listText_nested (Nat.le_refl 62)
  have h := compile_text_ne_tooDeep User.schema { maxDepth := 62 }
  exact ⟨hargs, htext, h.1.mpr (Nat.le_refl 62) _ _ htext, h.2 _ _ hargs⟩

end RecordFilter
