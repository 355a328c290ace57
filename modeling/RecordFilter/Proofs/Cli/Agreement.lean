import RecordFilter.Proofs.Cli.Stages
import RecordFilter.Proofs.Json.Reading

/-!
# The first stage that fails

`run` and `explain` go through stages that may all be at fault at once: files that cannot be read,
texts that are refused, a filter that does not compile.  Whether a stage fails, and how, is told by
the files alone (`Stage.Fails`), and a stage that has nothing to work on, because an earlier one
failed, does not fail itself.

A command is then a list of stages, and its failure is that of the first one to fail
(`FailsFirst`).  A list of stages splits along its composition (`failsFirst_append_iff`), as the
command does along its binds, so each part of a command is compared with its own stages.

* `FailsAs.bind`: one part of a command after another fails as the stages of both.
* `failsAs_run`, `failsAs_explain`: the failure of a command.
* `run_and_explain_agree`: what the two commands come to on the same files.
-/

namespace RecordFilter.Cli

open Compile (bind_eq_ok_iff bind_eq_error_iff map_eq_ok_iff map_eq_error_iff mapError_eq_ok_iff
  mapError_eq_error_iff)

/-! ## Stages -/

/-- The stages of `run` and `explain`. -/
inductive Stage where
  | readFilter
  | parseFilter
  | readRecords
  | parseRecords
  | compile

/-- The stages of `run`, in order. -/
def runStages : List Stage := [.readFilter, .parseFilter, .readRecords, .parseRecords, .compile]

/-- The stages of `explain`, in order. -/
def explainStages : List Stage := [.readFilter, .parseFilter, .compile]

section Failures

variable (readFile : String → Id (Option String)) (filter : String) (records : Option String)
  (settings : Settings)

/-- How a stage fails on the files that there are, if it comes to it and has something to work
on. -/
inductive Stage.Fails : Stage → Failure → Prop
  | readFilter : Id.run (readFile filter) = none → Fails .readFilter (.unreadable filter)
  | parseFilter {text : String} {e : Json.ReadError} : Id.run (readFile filter) = some text →
      Criterion.listOfText text = .error e → Fails .parseFilter (.filterRefused filter e)
  | readRecords {path : String} : records = some path → Id.run (readFile path) = none →
      Fails .readRecords (.unreadable path)
  | parseRecords {path text : String} {e : Json.ReadError} : records = some path →
      Id.run (readFile path) = some text → User.listOfText text = .error e →
      Fails .parseRecords (.recordsRefused path e)
  | compile {text : String} {criteria : List Criterion} {e : CompileError} :
      Id.run (readFile filter) = some text → Criterion.listOfText text = .ok criteria →
      RecordFilter.compile User.schema settings criteria = .error e →
      Fails .compile (.uncompilable e)

/-- The failure is that of the first stage to fail. -/
def FailsFirst (stages : List Stage) (failure : Failure) : Prop :=
  ∃ before stage after, stages = before ++ stage :: after ∧
    (∀ s ∈ before, ∀ f, ¬ s.Fails readFile filter records settings f) ∧
      stage.Fails readFile filter records settings failure

/-- The users of a file, or the sample users if there is none. -/
inductive Loads : List User → Prop
  | samples : records = none → Loads User.samples.records.toList
  | file {path text : String} {users : List User} : records = some path →
      Id.run (readFile path) = some text → User.listOfText text = .ok users → Loads users

end Failures

variable {readFile : String → Id (Option String)} {filter : String} {records : Option String}
  {settings : Settings} {failure : Failure}

/-! ## The first failure of several stages -/

theorem failsFirst_cons_iff {s : Stage} {ss : List Stage} :
    FailsFirst readFile filter records settings (s :: ss) failure ↔
      s.Fails readFile filter records settings failure ∨
        (∀ f, ¬ s.Fails readFile filter records settings f) ∧
          FailsFirst readFile filter records settings ss failure := by
  constructor
  · rintro ⟨before, t, after, hsplit, hbefore, ht⟩
    cases before with
    | nil =>
      obtain ⟨rfl, rfl⟩ := List.cons.inj hsplit
      exact Or.inl ht
    | cons u before =>
      obtain ⟨rfl, rfl⟩ := List.cons.inj hsplit
      rw [List.forall_mem_cons] at hbefore
      exact Or.inr ⟨hbefore.1, before, t, after, rfl, hbefore.2, ht⟩
  · rintro (hs | ⟨hs, before, t, after, rfl, hbefore, ht⟩)
    · exact ⟨[], s, ss, rfl, by simp, hs⟩
    · exact ⟨s :: before, t, after, rfl, List.forall_mem_cons.mpr ⟨hs, hbefore⟩, ht⟩

theorem not_failsFirst_nil : ¬ FailsFirst readFile filter records settings [] failure := by
  rintro ⟨before, t, after, h, -⟩
  exact absurd h.symm (by simp)

/-- A single stage fails as it does. -/
theorem failsFirst_singleton_iff {s : Stage} :
    FailsFirst readFile filter records settings [s] failure ↔
      s.Fails readFile filter records settings failure := by
  rw [failsFirst_cons_iff]
  exact ⟨fun h => h.resolve_right fun h => not_failsFirst_nil h.2, Or.inl⟩

/-- Stages fail first in a part, or in the next part if none of the first fails. -/
theorem failsFirst_append_iff {ss ts : List Stage} :
    FailsFirst readFile filter records settings (ss ++ ts) failure ↔
      FailsFirst readFile filter records settings ss failure ∨
        (∀ s ∈ ss, ∀ f, ¬ s.Fails readFile filter records settings f) ∧
          FailsFirst readFile filter records settings ts failure := by
  induction ss with
  | nil => simp [not_failsFirst_nil]
  | cons s ss ih =>
    rw [List.cons_append, failsFirst_cons_iff, failsFirst_cons_iff, ih, List.forall_mem_cons,
      and_or_left, or_assoc, and_assoc]

/-- No stage fails exactly when no failure is the first one. -/
theorem forall_not_fails_iff {ss : List Stage} :
    (∀ s ∈ ss, ∀ f, ¬ s.Fails readFile filter records settings f) ↔
      ∀ f, ¬ FailsFirst readFile filter records settings ss f := by
  induction ss with
  | nil => simp [not_failsFirst_nil]
  | cons s ss ih =>
    simp only [List.forall_mem_cons, ih, failsFirst_cons_iff, not_or, not_and, forall_and]
    exact and_congr_right fun hs => ⟨fun h f _ => h f, fun h f => h f hs⟩

/-! ## Parts of a command -/

section Parts

variable (readFile filter records settings)

/-- The part of a command fails as the first of the stages does. -/
def FailsAs {α : Type} (x : Except Failure α) (ss : List Stage) : Prop :=
  ∀ failure, x = .error failure ↔ FailsFirst readFile filter records settings ss failure

end Parts

variable {α β : Type} {x : Except Failure α} {ss ts : List Stage}

/-- A part succeeds exactly when none of its stages fails. -/
theorem FailsAs.exists_ok_iff (h : FailsAs readFile filter records settings x ss) :
    (∃ a, x = .ok a) ↔ ∀ s ∈ ss, ∀ f, ¬ s.Fails readFile filter records settings f := by
  rw [forall_not_fails_iff]
  cases x with
  | error e =>
    refine ⟨fun ⟨a, ha⟩ => (nomatch ha), fun hnone => absurd ((h e).mp rfl) (hnone e)⟩
  | ok a => exact ⟨fun _ f hf => (nomatch (h f).mpr hf), fun _ => ⟨a, rfl⟩⟩

/-- One part after another fails as the stages of both. -/
theorem FailsAs.bind (h : FailsAs readFile filter records settings x ss) {g : α → Except Failure β}
    (hg : ∀ a, x = .ok a → FailsAs readFile filter records settings (g a) ts) :
    FailsAs readFile filter records settings (x >>= g) (ss ++ ts) := by
  intro failure
  rw [bind_eq_error_iff, failsFirst_append_iff, ← h failure, ← h.exists_ok_iff]
  refine or_congr_right ⟨?_, ?_⟩
  · rintro ⟨a, ha, hfailure⟩
    exact ⟨⟨a, ha⟩, (hg a ha failure).mp hfailure⟩
  · rintro ⟨⟨a, ha⟩, hfailure⟩
    exact ⟨a, ha, (hg a ha failure).mpr hfailure⟩

/-- What is shown of a result cannot fail. -/
theorem FailsAs.map (h : FailsAs readFile filter records settings x ss) (g : α → β) :
    FailsAs readFile filter records settings (g <$> x) ss :=
  fun failure => map_eq_error_iff.trans (h failure)

/-- Loading the filter fails as the first of its two stages does. -/
theorem failsAs_loadFilter : FailsAs readFile filter records settings
    (Id.run (loadFilter readFile filter).run) [.readFilter, .parseFilter] := by
  intro failure
  rw [loadFilter_eq_error_iff, failsFirst_cons_iff, failsFirst_singleton_iff]
  constructor
  · rintro (⟨hread, rfl⟩ | ⟨text, hread, e, hparse, rfl⟩)
    · exact Or.inl (.readFilter hread)
    · refine Or.inr ⟨fun f hf => ?_, .parseFilter hread hparse⟩
      cases hf with
      | readFilter hnone =>
        rw [hread] at hnone
        cases hnone
  · rintro (hf | ⟨-, hf⟩)
    · cases hf with
      | readFilter hread => exact Or.inl ⟨hread, rfl⟩
    · cases hf with
      | parseFilter hread hparse => exact Or.inr ⟨_, hread, _, hparse, rfl⟩

/-- Loading the users fails as the first of its two stages does. -/
theorem failsAs_loadUsers : FailsAs readFile filter records settings
    (Id.run (loadUsers readFile records).run) [.readRecords, .parseRecords] := by
  intro failure
  rw [loadUsers_eq_error_iff, failsFirst_cons_iff, failsFirst_singleton_iff]
  constructor
  · rintro ⟨path, hpath, ⟨hread, rfl⟩ | ⟨text, hread, e, hparse, rfl⟩⟩
    · exact Or.inl (.readRecords hpath hread)
    · refine Or.inr ⟨fun f hf => ?_, .parseRecords hpath hread hparse⟩
      cases hf with
      | readRecords hpath' hnone =>
        rw [hpath, Option.some_inj] at hpath'
        subst hpath'
        rw [hread] at hnone
        cases hnone
  · rintro (hf | ⟨-, hf⟩)
    · cases hf with
      | readRecords hpath hread => exact ⟨_, hpath, Or.inl ⟨hread, rfl⟩⟩
    · cases hf with
      | parseRecords hpath hread hparse => exact ⟨_, hpath, Or.inr ⟨_, hread, _, hparse, rfl⟩⟩

/-- Compiling the filter that was loaded fails as its stage does. -/
theorem failsAs_predicate {criteria : List Criterion}
    (h : Id.run (loadFilter readFile filter).run = .ok criteria) :
    FailsAs readFile filter records settings (predicate criteria settings) [.compile] := by
  intro failure
  obtain ⟨text, hread, hparse⟩ := loadFilter_eq_ok_iff.mp h
  rw [predicate, mapError_eq_error_iff, failsFirst_singleton_iff]
  constructor
  · rintro ⟨e, he, rfl⟩
    exact .compile hread hparse he
  · intro hf
    cases hf with
    | compile hread' hparse' he =>
      rw [hread, Option.some_inj] at hread'
      subst hread'
      rw [hparse, Except.ok.injEq] at hparse'
      subst hparse'
      exact ⟨_, he, rfl⟩

/-- `run` fails as the first of its stages does. -/
theorem failsAs_run (asJson : Bool) : FailsAs readFile filter records settings
    (Id.run ((Command.run filter records asJson settings).perform readFile).run) runStages := by
  rw [perform_run]
  exact failsAs_loadFilter.bind fun criteria hcriteria => failsAs_loadUsers.bind fun users _ =>
    (failsAs_predicate hcriteria).map fun p => usersText users p asJson

/-- `explain` fails as the first of its stages does. -/
theorem failsAs_explain : FailsAs readFile filter records settings
    (Id.run ((Command.explain filter settings).perform readFile).run) explainStages := by
  rw [perform_explain]
  exact failsAs_loadFilter.bind fun criteria hcriteria =>
    (failsAs_predicate hcriteria).map Predicate.text

/-! ## What is shown -/

/-- Users that are loaded are those of the file, or the sample users. -/
theorem loadUsers_eq_ok_iff {users : Collection User} :
    Id.run (loadUsers readFile records).run = .ok users ↔
      ∃ us, Loads readFile records us ∧ .ofList us = users := by
  cases records with
  | none =>
    constructor
    · intro h
      cases h
      exact ⟨_, .samples rfl, rfl⟩
    · rintro ⟨us, hus, rfl⟩
      cases hus with
      | samples => rfl
      | file hpath => cases hpath
  | some path =>
    simp only [loadUsers_some_eq, bind_eq_ok_iff, map_eq_ok_iff, load_eq_ok_iff,
      mapError_eq_ok_iff]
    constructor
    · rintro ⟨text, hread, us, hus, rfl⟩
      exact ⟨us, .file rfl hread hus, rfl⟩
    · rintro ⟨us, hus, rfl⟩
      cases hus with
      | samples hnone => cases hnone
      | file hpath hread hparse =>
        cases hpath
        exact ⟨_, hread, us, hparse, rfl⟩

/-- The lines that list users: a file of them, or a line each. -/
def listing : List User → Bool → String
  | [], true => "[]"
  | [], false => "- No users found with the specified filters."
  | users, true => (Json.array (users.map User.toJson)).text .indented
  | users, false => String.intercalate "\n" (users.map User.line)

theorem usersText_ofList (users : List User) (p : Predicate User) (asJson : Bool) :
    usersText (.ofList users) p asJson = listing (users.filter p.accepts) asJson := by
  rw [usersText, Collection.matching, Collection.ofList, List.filter_toArray]
  cases asJson with
  | true =>
    cases users.filter p.accepts with
    | nil => rfl
    | cons u us => rfl
  | false =>
    cases users.filter p.accepts with
    | nil => rfl
    | cons u us => rfl

theorem predicate_eq_ok_iff {criteria : List Criterion} {p : Predicate User} :
    predicate criteria settings = .ok p ↔ compile User.schema settings criteria = .ok p :=
  mapError_eq_ok_iff

/-- `explain` shows the predicate that the filter of the file compiles to. -/
theorem perform_explain_eq_ok_iff {shown : String} :
    Id.run ((Command.explain filter settings).perform readFile).run = .ok shown ↔
      ∃ text criteria p, Id.run (readFile filter) = some text ∧
        Criterion.listOfText text = .ok criteria ∧
        compile User.schema settings criteria = .ok p ∧ p.text = shown := by
  rw [perform_explain, bind_eq_ok_iff]
  constructor
  · rintro ⟨criteria, hcriteria, h⟩
    obtain ⟨text, hread, hparse⟩ := loadFilter_eq_ok_iff.mp hcriteria
    obtain ⟨p, hp, hshown⟩ := bind_eq_ok_iff.mp h
    exact ⟨text, criteria, p, hread, hparse, predicate_eq_ok_iff.mp hp, Except.ok.inj hshown⟩
  · rintro ⟨text, criteria, p, hread, hparse, hp, rfl⟩
    refine ⟨criteria, loadFilter_eq_ok_iff.mpr ⟨text, hread, hparse⟩, ?_⟩
    exact bind_eq_ok_iff.mpr ⟨p, predicate_eq_ok_iff.mpr hp, rfl⟩

/-- `run` lists the users that the predicate of the filter accepts. -/
theorem perform_run_of_loads {text : String} {criteria : List Criterion} {p : Predicate User}
    {users : List User} (hread : Id.run (readFile filter) = some text)
    (hparse : Criterion.listOfText text = .ok criteria)
    (hp : compile User.schema settings criteria = .ok p) (husers : Loads readFile records users)
    (asJson : Bool) :
    Id.run ((Command.run filter records asJson settings).perform readFile).run =
      .ok (listing (users.filter p.accepts) asJson) := by
  have hloaded : Id.run (loadUsers readFile records).run = .ok (.ofList users) :=
    loadUsers_eq_ok_iff.mpr ⟨users, husers, rfl⟩
  rw [perform_run, ← usersText_ofList]
  refine bind_eq_ok_iff.mpr ⟨criteria, loadFilter_eq_ok_iff.mpr ⟨text, hread, hparse⟩, ?_⟩
  refine bind_eq_ok_iff.mpr ⟨.ofList users, hloaded, ?_⟩
  exact bind_eq_ok_iff.mpr ⟨p, predicate_eq_ok_iff.mpr hp, rfl⟩

/-! ## Reports -/

/-- The report of a command that the arguments ask for. -/
theorem report_eq {args : List String} {command : Command} (h : command? args = some command) :
    Id.run (report readFile args) = .ofExcept (Id.run (command.perform readFile).run) := by
  rw [report, h]
  rfl

theorem exists_ok_of_exitCode {x : Except Failure String}
    (h : (Report.ofExcept x).exitCode = 0) : ∃ text, x = .ok text := by
  cases x with
  | error failure => cases h
  | ok text => exact ⟨text, rfl⟩

/-- A command that fails as its stages do exits with 1 and shows nothing, and with 0 if no stage
fails. -/
theorem FailsAs.report {y : Except Failure String} {ss : List Stage}
    (h : FailsAs readFile filter records settings y ss) :
    (∀ failure, FailsFirst readFile filter records settings ss failure →
      Report.ofExcept y = .failed failure ∧ (Report.ofExcept y).exitCode = 1 ∧
        (Report.ofExcept y).output = "") ∧
    ((∀ s ∈ ss, ∀ f, ¬ s.Fails readFile filter records settings f) →
      (Report.ofExcept y).exitCode = 0) := by
  constructor
  · intro failure hfailure
    rw [(h failure).mpr hfailure]
    exact ⟨rfl, rfl, rfl⟩
  · intro hnone
    obtain ⟨text, htext⟩ := h.exists_ok_iff.mpr hnone
    rw [htext]
    rfl

/-- **The first stage that fails decides, and the two commands agree.**  Let two command lines ask
for `run` and for `explain` with the same filter and the same settings.

* `run` fails with the failure of the first of its five stages that fails, exits with 1 and shows
  nothing; if no stage fails, it exits with 0.
* `explain` does so with the three stages that do not look at records.
* If `explain` succeeds, it shows the predicate that the filter compiles to.  If the users are
  loaded as well, `run` succeeds and lists exactly those that this predicate accepts, in order: as a
  file of users or a line each, and as an empty file or a line that says so if there are none. -/
theorem run_and_explain_agree (readFile : String → Id (Option String))
    {runArgs explainArgs : List String} {filter : String} {records : Option String} {asJson : Bool}
    {settings : Settings} (hrun : command? runArgs = some (.run filter records asJson settings))
    (hexplain : command? explainArgs = some (.explain filter settings)) :
    ((∀ failure, FailsFirst readFile filter records settings runStages failure →
        Id.run (report readFile runArgs) = .failed failure ∧
          (Id.run (report readFile runArgs)).exitCode = 1 ∧
          (Id.run (report readFile runArgs)).output = "") ∧
      ((∀ stage ∈ runStages, ∀ f, ¬ stage.Fails readFile filter records settings f) →
        (Id.run (report readFile runArgs)).exitCode = 0)) ∧
    ((∀ failure, FailsFirst readFile filter records settings explainStages failure →
        Id.run (report readFile explainArgs) = .failed failure ∧
          (Id.run (report readFile explainArgs)).exitCode = 1 ∧
          (Id.run (report readFile explainArgs)).output = "") ∧
      ((∀ stage ∈ explainStages, ∀ f, ¬ stage.Fails readFile filter records settings f) →
        (Id.run (report readFile explainArgs)).exitCode = 0)) ∧
    ((Id.run (report readFile explainArgs)).exitCode = 0 →
      ∃ text criteria p, Id.run (readFile filter) = some text ∧
        Criterion.listOfText text = .ok criteria ∧
        compile User.schema settings criteria = .ok p ∧
        (Id.run (report readFile explainArgs)).output = p.text ++ "\n" ∧
        ∀ users, Loads readFile records users →
          (Id.run (report readFile runArgs)).exitCode = 0 ∧
          (Id.run (report readFile runArgs)).output =
            listing (users.filter p.accepts) asJson ++ "\n") := by
  rw [report_eq hrun, report_eq hexplain]
  refine ⟨(failsAs_run asJson).report, failsAs_explain.report, ?_⟩
  intro hexit
  obtain ⟨shown, hshown⟩ := exists_ok_of_exitCode hexit
  obtain ⟨text, criteria, p, hread, hparse, hp, rfl⟩ := perform_explain_eq_ok_iff.mp hshown
  refine ⟨text, criteria, p, hread, hparse, hp, by rw [hshown]; rfl, fun users husers => ?_⟩
  rw [perform_run_of_loads hread hparse hp husers asJson]
  exact ⟨rfl, rfl⟩

/-! ### An instance -/

/-- Two files: a filter on the age, and one that names no property. -/
def instanceFiles (path : String) : Id (Option String) :=
  if path = "age.json" then some "[[\"Age\",\"GreaterOrEqual\",28]]"
  else if path = "blank.json" then some "[[]]"
  else none

theorem listOfText_age : Criterion.listOfText "[[\"Age\",\"GreaterOrEqual\",28]]" =
    .ok [.leaf "Age" .atLeast (.integer 28)] :=
  Json.Reader.eq_ok_of_toOption (by decide +kernel)

theorem listOfText_blank : Criterion.listOfText "[[]]" = .ok [{}] :=
  Json.Reader.eq_ok_of_toOption (by decide +kernel)

theorem compile_age : compile User.schema {} [.leaf "Age" .atLeast (.integer 28)] =
    .ok ⟨.leaf ⟨"Age", .integer (fun u => u.age.toInt64) (.atLeast 28)⟩⟩ := by
  have hfield : User.schema.resolve "Age" true =
      some ⟨"Age", .integer fun u => u.age.toInt64⟩ := by
    simp [User.schema, Schema.ofList, Schema.resolve, Schema.find?_register]
  simp [compile, Criterion.leaf, Compile.siblings, Compile.criterion, Compile.leaf, hfield,
    Compile.test_integer, Compile.constraint, Compile.constant, Value.toInteger?,
    FieldType.isOrdered, Condition.ofSiblings, Functor.map, Except.map, bind, Except.bind, pure,
    Except.pure]

theorem compile_blank : compile User.schema {} [{}] = .error (.illFormed [0]) := rfl

/-- The first filter is shown and lists two of the sample users.  The second one does not compile,
as `explain` tells, but `run` fails before that if the users are missing. -/
theorem run_and_explain_agree_age :
    (Id.run (report instanceFiles ["explain", "--filter=age.json"])).output =
      "x => x.Age >= 28\n" ∧
    (Id.run (report instanceFiles ["run", "--filter", "age.json"])).output =
      "- Reza, 30, false\n- Mohammad, 35, true\n- Amin, 28, true\n" ∧
    Id.run (report instanceFiles ["explain", "--filter=blank.json"]) =
      .failed (.uncompilable (.illFormed [0])) ∧
    Id.run (report instanceFiles ["run", "--records=users.json", "--filter=blank.json"]) =
      .failed (.unreadable "users.json") := by
  have hrun : command? ["run", "--filter", "age.json"] = some (.run "age.json" none false {}) := by
    decide +kernel
  have hexplain : command? ["explain", "--filter=age.json"] = some (.explain "age.json" {}) := by
    decide +kernel
  have hrun' : command? ["run", "--records=users.json", "--filter=blank.json"] =
      some (.run "blank.json" (some "users.json") false {}) := by
    decide +kernel
  have hexplain' : command? ["explain", "--filter=blank.json"] =
      some (.explain "blank.json" {}) := by
    decide +kernel
  have hage := (run_and_explain_agree instanceFiles hrun hexplain).2
  have hblank := run_and_explain_agree instanceFiles hrun' hexplain'
  have hloads : ∀ {records}, ∀ s ∈ [Stage.readFilter, .parseFilter], ∀ f,
      ¬ s.Fails instanceFiles "blank.json" records {} f :=
    failsAs_loadFilter.exists_ok_iff.mp
      ⟨_, loadFilter_eq_ok_iff.mpr ⟨"[[]]", rfl, listOfText_blank⟩⟩
  have hsound : ∀ s ∈ explainStages, ∀ f, ¬ s.Fails instanceFiles "age.json" none {} f :=
    failsAs_explain.exists_ok_iff.mp
      ⟨_, perform_explain_eq_ok_iff.mpr ⟨_, _, _, rfl, listOfText_age, compile_age, rfl⟩⟩
  obtain ⟨text, criteria, p, hread, hparse, hp, hshown, husers⟩ := hage.2 (hage.1.2 hsound)
  cases hread
  cases listOfText_age.symm.trans hparse
  cases compile_age.symm.trans hp
  refine ⟨hshown.trans (by decide +kernel), ?_, ?_, ?_⟩
  · rw [(husers _ (.samples rfl)).2]
    decide +kernel
  · exact (hblank.2.1.1 _ ⟨_, .compile, [], rfl, hloads,
      .compile rfl listOfText_blank compile_blank⟩).1
  · exact (hblank.1.1 _ ⟨_, .readRecords, _, rfl, hloads, .readRecords rfl rfl⟩).1

end RecordFilter.Cli
