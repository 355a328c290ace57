import RecordFilter.Proofs.Cli.Agreement
import RecordFilter.Proofs.User.Document

/-!
# Running a command on its own output

`run --json` shows a file of users, so what it shows can be given to it again as the file of
records.  Two facts make this safe.  A file of users is read back as the users that it was written
for, also with the line break that ends the output.  And a predicate that has filtered users accepts
all that are left, as does the predicate of no criteria at all.  So running the same filter again,
or none, shows the same text.

* `perform_run_eq_ok_iff`: what `run` comes to if it succeeds.
* `accepts_of_again`: the filters that accept all users which were filtered before.
* `rerun_reproduces`: the output as a file of records.
-/

namespace RecordFilter.Cli

open Compile (bind_eq_ok_iff)

variable {readFile readFile' : String → Id (Option String)} {filter filter' : String}
  {records : Option String} {settings settings' : Settings}

/-! ## What is shown -/

/-- `run` succeeds when each of its stages does, and lists the users that the predicate accepts. -/
theorem perform_run_eq_ok_iff {asJson : Bool} {shown : String} :
    Id.run ((Command.run filter records asJson settings).perform readFile).run = .ok shown ↔
      ∃ text criteria p users, Id.run (readFile filter) = some text ∧
        Criterion.listOfText text = .ok criteria ∧
        compile User.schema settings criteria = .ok p ∧ Loads readFile records users ∧
        listing (users.filter p.accepts) asJson = shown := by
  constructor
  · intro h
    rw [perform_run] at h
    obtain ⟨criteria, hcriteria, h⟩ := bind_eq_ok_iff.mp h
    obtain ⟨loaded, hloaded, h⟩ := bind_eq_ok_iff.mp h
    obtain ⟨p, hp, h⟩ := bind_eq_ok_iff.mp h
    obtain ⟨text, hread, hparse⟩ := loadFilter_eq_ok_iff.mp hcriteria
    obtain ⟨users, husers, rfl⟩ := loadUsers_eq_ok_iff.mp hloaded
    refine ⟨text, criteria, p, users, hread, hparse, predicate_eq_ok_iff.mp hp, husers, ?_⟩
    rw [← usersText_ofList]
    exact Except.ok.inj h
  · rintro ⟨text, criteria, p, users, hread, hparse, hp, husers, rfl⟩
    exact perform_run_of_loads hread hparse hp husers asJson

theorem listing_json (users : List User) : listing users true = User.fileText users := by
  cases users with
  | nil => rfl
  | cons u users => rfl

theorem exists_output_of_exitCode {x : Except Failure String}
    (h : (Report.ofExcept x).exitCode = 0) :
    ∃ text, x = .ok text ∧ (Report.ofExcept x).output = text ++ "\n" := by
  obtain ⟨text, rfl⟩ := exists_ok_of_exitCode h
  exact ⟨text, rfl, rfl⟩

/-! ## Filtering again -/

/-- What a run filters by is what another run filtered by, or no criteria at all. -/
inductive FiltersAgain (readFile readFile' : String → Id (Option String))
    (filter filter' : String) (settings settings' : Settings) : Prop
  | same : Id.run (readFile' filter') = Id.run (readFile filter) → settings' = settings →
      FiltersAgain readFile readFile' filter filter' settings settings'
  | nothing {text : String} : Id.run (readFile' filter') = some text →
      Criterion.listOfText text = .ok [] →
      FiltersAgain readFile readFile' filter filter' settings settings'

/-- A filter that is used again, or that has no criteria, accepts all users that are left. -/
theorem accepts_of_again (h : FiltersAgain readFile readFile' filter filter' settings settings')
    {text : String} {criteria : List Criterion} {p : Predicate User}
    (hread : Id.run (readFile filter) = some text)
    (hparse : Criterion.listOfText text = .ok criteria)
    (hp : compile User.schema settings criteria = .ok p) :
    ∃ text' criteria' p', Id.run (readFile' filter') = some text' ∧
      Criterion.listOfText text' = .ok criteria' ∧
      compile User.schema settings' criteria' = .ok p' ∧
      ∀ users : List User,
        (users.filter p.accepts).filter p'.accepts = users.filter p.accepts := by
  cases h with
  | same hfile hsettings =>
    subst hsettings
    refine ⟨text, criteria, p, hfile.trans hread, hparse, hp, fun users => ?_⟩
    rw [List.filter_filter]
    simp only [Bool.and_self]
  | nothing hfile hempty =>
    exact ⟨_, [], .always, hfile, hempty, rfl, fun users => List.filter_eq_self.mpr fun _ _ => rfl⟩

/-- **The JSON that `run` shows is a file of records.**  The file of any users is read back as these
users, in order.  Hence, if `run --json` succeeds, a run that has its output as the file of records,
and the same filter with the same settings or a filter without criteria, succeeds as well and has
the same output. -/
theorem rerun_reproduces :
    (∀ users : List User, User.listOfText (User.fileText users) = .ok users) ∧
    ∀ (readFile readFile' : String → Id (Option String)) (args args' : List String)
      (filter filter' records' : String) (records : Option String) (settings settings' : Settings),
      command? args = some (.run filter records true settings) →
      (Id.run (report readFile args)).exitCode = 0 →
      command? args' = some (.run filter' (some records') true settings') →
      Id.run (readFile' records') = some (Id.run (report readFile args)).output →
      FiltersAgain readFile readFile' filter filter' settings settings' →
      (Id.run (report readFile' args')).exitCode = 0 ∧
        (Id.run (report readFile' args')).output = (Id.run (report readFile args)).output := by
  constructor
  · intro users
    have hread := User.listOfText_fileText_append users "" .none
    rwa [String.append_empty] at hread
  · intro readFile readFile' args args' filter filter' records' records settings settings'
      hargs hexit hargs' houtput hagain
    rw [report_eq hargs] at hexit houtput ⊢
    rw [report_eq hargs']
    obtain ⟨shown, hshown, htext⟩ := exists_output_of_exitCode hexit
    obtain ⟨text, criteria, p, users, hread, hparse, hp, -, rfl⟩ := perform_run_eq_ok_iff.mp hshown
    obtain ⟨text', criteria', p', hread', hparse', hp', hfilter⟩ :=
      accepts_of_again hagain hread hparse hp
    have hback : User.listOfText (listing (users.filter p.accepts) true ++ "\n") =
        .ok (users.filter p.accepts) := by
      rw [listing_json]
      exact User.listOfText_fileText_append _ "\n" (.cons rfl .none)
    rw [htext] at houtput
    rw [perform_run_of_loads hread' hparse' hp' (.file rfl houtput hback) true, hfilter, hshown]
    exact ⟨rfl, rfl⟩

/-! ### An instance -/

/-- What is shown of the only user in the file of users that is old enough. -/
def shownText : String :=
  "[\n  \x7b\n    \"id\": -9223372036854775808,\n    \"name\": \"\\\"\\n\\u0001😀\",\n" ++
    "    \"age\": 2147483647,\n    \"isActive\": true\n  \x7d\n]\n"

/-- A filter, an empty one, users, and those of them that are shown. -/
def rerunFiles (path : String) : Id (Option String) :=
  if path = "users.json" then
    some ("[[-9223372036854775808, \"\\u0022\\n\\u0001\\ud83d\\ude00\", 2147483647, true]," ++
      "[1, \"Ali\", 25, false]]")
  else if path = "shown.json" then some shownText
  else if path = "none.json" then some " [\n] "
  else instanceFiles path

theorem listOfText_users : User.listOfText
    ("[[-9223372036854775808, \"\\u0022\\n\\u0001\\ud83d\\ude00\", 2147483647, true]," ++
      "[1, \"Ali\", 25, false]]") =
    .ok [⟨Int64.minValue, "\"\n\x01😀", Int32.maxValue, true⟩, ⟨1, "Ali", 25, false⟩] :=
  Json.Reader.eq_ok_of_toOption (by decide +kernel)

theorem listOfText_none : Criterion.listOfText " [\n] " = .ok [] :=
  Json.Reader.eq_ok_of_toOption (by decide +kernel)

/-- The arguments of a run on two files. -/
def rerunArgs (filter records : String) : List String :=
  ["run", "--json", "--filter", filter, "--records", records]

/-- The oldest of two users, whose name needs escapes, is shown again from what was shown, by the
same filter and by an empty one. -/
theorem rerun_reproduces_age :
    (Id.run (report rerunFiles (rerunArgs "age.json" "users.json"))).output = shownText ∧
    (Id.run (report rerunFiles (rerunArgs "age.json" "shown.json"))).output = shownText ∧
    (Id.run (report rerunFiles (rerunArgs "none.json" "shown.json"))).output = shownText := by
  have hrun : command? (rerunArgs "age.json" "users.json") =
      some (.run "age.json" (some "users.json") true {}) := by
    decide +kernel
  have hsame : command? (rerunArgs "age.json" "shown.json") =
      some (.run "age.json" (some "shown.json") true {}) := by
    decide +kernel
  have hnone : command? (rerunArgs "none.json" "shown.json") =
      some (.run "none.json" (some "shown.json") true {}) := by
    decide +kernel
  have hshown : Id.run (report rerunFiles (rerunArgs "age.json" "users.json")) =
      .shown (listing [⟨Int64.minValue, "\"\n\x01😀", Int32.maxValue, true⟩] true) := by
    have hread : Id.run (rerunFiles "age.json") = some "[[\"Age\",\"GreaterOrEqual\",28]]" := rfl
    have husers : Loads rerunFiles (some "users.json") _ := .file rfl rfl listOfText_users
    rw [report_eq hrun, perform_run_of_loads hread listOfText_age compile_age husers true]
    decide +kernel
  have houtput : (Id.run (report rerunFiles (rerunArgs "age.json" "users.json"))).output =
      shownText := by
    rw [hshown]
    decide +kernel
  have hexit : (Id.run (report rerunFiles (rerunArgs "age.json" "users.json"))).exitCode = 0 := by
    rw [hshown]
    rfl
  have hfile : Id.run (rerunFiles "shown.json") =
      some (Id.run (report rerunFiles (rerunArgs "age.json" "users.json"))).output := by
    rw [houtput]
    rfl
  refine ⟨houtput, ?_, ?_⟩
  · rw [(rerun_reproduces.2 rerunFiles rerunFiles _ _ _ _ _ _ _ _ hrun hexit hsame hfile
      (.same rfl rfl)).2, houtput]
  · rw [(rerun_reproduces.2 rerunFiles rerunFiles _ _ _ _ _ _ _ _ hrun hexit hnone hfile
      (.nothing rfl listOfText_none)).2, houtput]

end RecordFilter.Cli
