import RecordFilter.Cli.Run
import RecordFilter.Proofs.Compilation
import RecordFilter.Proofs.Cli.Options

/-!
# The stages of a command

A command reads its files and compiles its filter one after the other, and the first of these stages
to fail decides the error.  Here files are read by a function, so that what a command comes to is a
computation in `Except`, of which each stage can be told apart by its outcome.

* `loadFilter_eq_ok_iff`, `loadFilter_eq_error_iff`, `loadUsers_eq_error_iff`: the stages that read.
* `perform_demo`, `perform_run`, `perform_explain`: a command as the composition of its stages.
* `exists_compiles_of_perform`: which filter it is that a command fails to compile.
-/

namespace RecordFilter.Cli

open Compile (bind_eq_ok_iff bind_eq_error_iff map_eq_error_iff mapError_eq_ok_iff
  mapError_eq_error_iff)

theorem run_bind {ε α β : Type} (x : ExceptT ε Id α) (f : α → ExceptT ε Id β) :
    Id.run (x >>= f).run = Id.run x.run >>= fun a => Id.run (f a).run := by
  rw [ExceptT.run_bind, Id.run_bind]
  cases Id.run x.run with
  | error e => rfl
  | ok a => rfl

variable {readFile : String → Id (Option String)}

/-! ## Reading -/

theorem load_eq (path : String) :
    Id.run (load readFile path).run =
      match Id.run (readFile path) with
      | some text => .ok text
      | none => .error (.unreadable path) := by
  rw [load, run_bind]
  change (Except.ok (Id.run (readFile path)) >>= fun text? => _) = _
  cases Id.run (readFile path) with
  | none => rfl
  | some text => rfl

theorem load_eq_ok_iff {path text : String} :
    Id.run (load readFile path).run = .ok text ↔ Id.run (readFile path) = some text := by
  rw [load_eq]
  cases Id.run (readFile path) with
  | none => simp
  | some text => simp

theorem load_eq_error_iff {path : String} {failure : Failure} :
    Id.run (load readFile path).run = .error failure ↔
      Id.run (readFile path) = none ∧ .unreadable path = failure := by
  rw [load_eq]
  cases Id.run (readFile path) with
  | none => simp
  | some text => simp

theorem loadFilter_eq (path : String) :
    Id.run (loadFilter readFile path).run =
      Id.run (load readFile path).run >>= fun text =>
        (Criterion.listOfText text).mapError (.filterRefused path) := by
  rw [loadFilter, run_bind]
  refine bind_congr fun text => ?_
  cases Criterion.listOfText text with
  | error e => rfl
  | ok f => rfl

theorem loadFilter_eq_ok_iff {path : String} {filter : List Criterion} :
    Id.run (loadFilter readFile path).run = .ok filter ↔
      ∃ text, Id.run (readFile path) = some text ∧ Criterion.listOfText text = .ok filter := by
  simp only [loadFilter_eq, bind_eq_ok_iff, load_eq_ok_iff, mapError_eq_ok_iff]

theorem loadFilter_eq_error_iff {path : String} {failure : Failure} :
    Id.run (loadFilter readFile path).run = .error failure ↔
      (Id.run (readFile path) = none ∧ .unreadable path = failure) ∨
        ∃ text, Id.run (readFile path) = some text ∧
          ∃ e, Criterion.listOfText text = .error e ∧ .filterRefused path e = failure := by
  simp only [loadFilter_eq, bind_eq_error_iff, load_eq_ok_iff, load_eq_error_iff,
    mapError_eq_error_iff]

theorem loadUsers_some_eq (path : String) :
    Id.run (loadUsers readFile (some path)).run =
      Id.run (load readFile path).run >>= fun text =>
        Collection.ofList <$> (User.listOfText text).mapError (.recordsRefused path) := by
  rw [loadUsers, run_bind]
  refine bind_congr fun text => ?_
  cases User.listOfText text with
  | error e => rfl
  | ok f => rfl

/-- Users that are read from no file cannot fail to be read. -/
theorem loadUsers_eq_error_iff {records : Option String} {failure : Failure} :
    Id.run (loadUsers readFile records).run = .error failure ↔
      ∃ path, records = some path ∧
        ((Id.run (readFile path) = none ∧ .unreadable path = failure) ∨
          ∃ text, Id.run (readFile path) = some text ∧
            ∃ e, User.listOfText text = .error e ∧ .recordsRefused path e = failure) := by
  cases records with
  | none =>
    constructor
    · intro h
      cases h
    · rintro ⟨path, hpath, -⟩
      cases hpath
  | some path =>
    simp only [loadUsers_some_eq, bind_eq_error_iff, map_eq_error_iff, load_eq_ok_iff,
      load_eq_error_iff, mapError_eq_error_iff, Option.some_inj, exists_eq_left']

/-! ## Compiling

No stage that reads fails in the way of the last one, which compiles. -/

theorem loadFilter_ne_uncompilable {path : String} {e : CompileError} :
    Id.run (loadFilter readFile path).run ≠ .error (.uncompilable e) := by
  intro h
  rcases loadFilter_eq_error_iff.mp h with ⟨-, hfailure⟩ | ⟨text, -, error, -, hfailure⟩
  · cases hfailure
  · cases hfailure

theorem loadUsers_ne_uncompilable {records : Option String} {e : CompileError} :
    Id.run (loadUsers readFile records).run ≠ .error (.uncompilable e) := by
  intro h
  obtain ⟨path, -, ⟨-, hfailure⟩ | ⟨text, -, error, -, hfailure⟩⟩ := loadUsers_eq_error_iff.mp h
  · cases hfailure
  · cases hfailure

/-- The last stage fails when the filter does not compile; what it shows otherwise cannot fail. -/
theorem shown_eq_uncompilable_iff {filter : List Criterion} {settings : Settings}
    {shown : Predicate User → String} {e : CompileError} :
    (do let p ← predicate filter settings; return shown p) = Except.error (.uncompilable e) ↔
      compile User.schema settings filter = .error e := by
  simp only [bind_eq_error_iff, predicate, mapError_eq_error_iff, Failure.uncompilable.injEq,
    exists_eq_right, pure, Except.pure, reduceCtorEq, and_false, exists_false, or_false]

/-! ## Commands -/

theorem perform_demo (asJson : Bool) :
    Id.run ((Command.demo asJson).perform readFile).run = (do
      let p ← predicate User.sampleFilter {}
      return usersText User.samples p asJson) := by
  rw [Command.perform]
  simp only [run_bind]
  rfl

theorem perform_run (filter : String) (records : Option String) (asJson : Bool)
    (settings : Settings) :
    Id.run ((Command.run filter records asJson settings).perform readFile).run = (do
      let filter ← Id.run (loadFilter readFile filter).run
      let users ← Id.run (loadUsers readFile records).run
      let p ← predicate filter settings
      return usersText users p asJson) := by
  rw [Command.perform]
  simp only [run_bind]
  rfl

theorem perform_explain (filter : String) (settings : Settings) :
    Id.run ((Command.explain filter settings).perform readFile).run = (do
      let filter ← Id.run (loadFilter readFile filter).run
      let p ← predicate filter settings
      return p.text) := by
  rw [Command.perform]
  simp only [run_bind]
  rfl

/-- The filter that a command compiles if its files can be read, and the settings for it. -/
inductive Command.Compiles (readFile : String → Id (Option String)) :
    Command → List Criterion → Settings → Prop where
  | demo {asJson : Bool} : Compiles readFile (.demo asJson) User.sampleFilter {}
  | run {path text : String} {records : Option String} {asJson : Bool} {settings : Settings}
      {filter : List Criterion} : Id.run (readFile path) = some text →
      Criterion.listOfText text = .ok filter →
      Compiles readFile (.run path records asJson settings) filter settings
  | explain {path text : String} {settings : Settings} {filter : List Criterion} :
      Id.run (readFile path) = some text → Criterion.listOfText text = .ok filter →
      Compiles readFile (.explain path settings) filter settings

theorem Command.Compiles.settings?_eq {command : Command} {filter : List Criterion}
    {settings : Settings} (h : command.Compiles readFile filter settings) :
    command.settings? = some settings := by
  cases h with
  | demo => rfl
  | run => rfl
  | explain => rfl

/-- If a filter does not compile in a command, it is the one that the command was to compile: no
other stage fails in this way. -/
theorem exists_compiles_of_perform {command : Command} {e : CompileError}
    (h : Id.run (command.perform readFile).run = .error (.uncompilable e)) :
    ∃ filter settings, command.Compiles readFile filter settings ∧
      compile User.schema settings filter = .error e := by
  cases command with
  | demo asJson =>
    rw [perform_demo, shown_eq_uncompilable_iff] at h
    exact ⟨_, _, .demo, h⟩
  | run path records asJson settings =>
    rw [perform_run, bind_eq_error_iff] at h
    rcases h with hload | ⟨filter, hload, h⟩
    · exact absurd hload loadFilter_ne_uncompilable
    · obtain ⟨text, htext, hfilter⟩ := loadFilter_eq_ok_iff.mp hload
      rw [bind_eq_error_iff] at h
      rcases h with husers | ⟨users, -, h⟩
      · exact absurd husers loadUsers_ne_uncompilable
      · exact ⟨filter, settings, .run htext hfilter, shown_eq_uncompilable_iff.mp h⟩
  | explain path settings =>
    rw [perform_explain, bind_eq_error_iff] at h
    rcases h with hload | ⟨filter, hload, h⟩
    · exact absurd hload loadFilter_ne_uncompilable
    · obtain ⟨text, htext, hfilter⟩ := loadFilter_eq_ok_iff.mp hload
      exact ⟨filter, settings, .explain htext hfilter, shown_eq_uncompilable_iff.mp h⟩
  | version => cases h
  | help => cases h

theorem report_eq_failed_iff {args : List String} {failure : Failure} :
    Id.run (report readFile args) = .failed failure ↔
      ∃ command, command? args = some command ∧
        Id.run (command.perform readFile).run = .error failure := by
  rw [report]
  cases command? args with
  | none => simp
  | some command =>
    simp only [Option.some_inj, exists_eq_left', Id.run_bind, Id.run_pure]
    cases Id.run (command.perform readFile).run with
    | error e => simp [Report.ofExcept]
    | ok text => simp [Report.ofExcept]

end RecordFilter.Cli
