import RecordFilter.Cli.Arguments

/-!
# Options that are not given

An option takes effect only where an argument names it.  A command that is called without one has
the setting that the option would change at its default, whatever else it is called with.
-/

namespace RecordFilter.Cli

/-- The argument names the option, with or without a value behind an equals sign. -/
def Flag.IsNamedBy (flag : Flag) (arg : String) : Prop :=
  (splitAtEquals arg.toList).1 = flag.name.toList

instance (flag : Flag) (arg : String) : Decidable (flag.IsNamedBy arg) :=
  inferInstanceAs (Decidable (_ = _))

/-- The settings under which a command compiles its filter, if it compiles one. -/
def Command.settings? : Command → Option Settings
  | demo _ => some {}
  | run _ _ _ settings => some settings
  | explain _ settings => some settings
  | version => none
  | help => none

theorem Given.maxDepth_of_set? {given g : Given} {value : String} {flag : Flag}
    (h : given.set? value flag = some g) (hflag : flag ≠ .maxDepth) :
    g.maxDepth = given.maxDepth := by
  cases flag with
  | maxDepth => exact absurd rfl hflag
  | _ =>
    cases h
    rfl

/-- An argument that names another option leaves the limit as it is. -/
theorem Given.maxDepth_of_named {allowed : List Flag} {given g : Given} {arg value : String}
    {name : List Char} {value? : Option (List Char)} {flag : Flag}
    (hsplit : splitAtEquals arg.toList = (name, value?))
    (hfind : allowed.find? (·.name.toList == name) = some flag)
    (hset : given.set? value flag = some g) (harg : ¬ Flag.maxDepth.IsNamedBy arg) :
    g.maxDepth = given.maxDepth := by
  refine maxDepth_of_set? hset ?_
  rintro rfl
  have hname := List.find?_some hfind
  exact harg (by rw [Flag.IsNamedBy, hsplit, eq_of_beq hname])

/-- Options among which the limit is not named leave it as it is. -/
theorem maxDepth_of_take {allowed : List Flag} {given g : Given} {args : List String}
    (hargs : ∀ arg ∈ args, ¬ Flag.maxDepth.IsNamedBy arg)
    (h : take allowed given args = .options g) : g.maxDepth = given.maxDepth := by
  fun_induction take allowed given args with
  | case1 given =>
    cases h
    rfl
  | case2 given =>
    cases h
    rfl
  | case6 given arg _ name flag hfind _ value args _ given' hset _ hsplit ih =>
    rw [List.forall_mem_cons] at hargs
    rw [ih hargs.2 h, Given.maxDepth_of_named hsplit hfind hset hargs.1]
  | case8 given arg _ name flag hfind _ value args _ _ given' hset _ hsplit ih =>
    rw [List.forall_mem_cons, List.forall_mem_cons] at hargs
    rw [ih hargs.2.2 h, Given.maxDepth_of_named hsplit hfind hset hargs.1]
  | case13 given arg _ name flag hfind _ args _ given' hset _ hsplit ih =>
    rw [List.forall_mem_cons] at hargs
    rw [ih hargs.2 h, Given.maxDepth_of_named hsplit hfind hset hargs.1]
  | _ => cases h

theorem finish_eq_some_iff {make : Given → Option Command} {taken : Taken} {command : Command} :
    finish make taken = some command ↔
      (∃ g, taken = .options g ∧ make g = some command) ∨ (taken = .help ∧ command = .help) := by
  cases taken with
  | options g => simp [finish]
  | help => simp [finish, eq_comm]
  | misuse => simp [finish]

theorem exists_options_of_finish {allowed : List Flag} {make : Given → Option Command}
    {args : List String} {command : Command} {settings : Settings}
    (h : finish make (take allowed {} args) = some command)
    (hsettings : command.settings? = some settings)
    (hmake : ∀ g, make g = some command → settings = {} ∨ settings = g.settings) :
    ∃ g, take allowed {} args = .options g ∧ (settings = {} ∨ settings = g.settings) := by
  rcases finish_eq_some_iff.mp h with ⟨g, hg, hcommand⟩ | ⟨-, rfl⟩
  · exact ⟨g, hg, hmake g hcommand⟩
  · cases hsettings

/-- A command compiles its filter under the default settings or under those that its options amount
to. -/
theorem exists_options_of_command? {args : List String} {command : Command} {settings : Settings}
    (h : command? args = some command) (hsettings : command.settings? = some settings) :
    ∃ name rest allowed g, args = name :: rest ∧ take allowed {} rest = .options g ∧
      (settings = {} ∨ settings = g.settings) := by
  unfold command? at h
  split at h
  · cases h
  · obtain ⟨g, hg⟩ := exists_options_of_finish h hsettings fun g hcommand => by
      cases hcommand
      cases hsettings
      exact Or.inl rfl
    exact ⟨_, _, _, g, rfl, hg⟩
  · obtain ⟨g, hg⟩ := exists_options_of_finish h hsettings fun g hcommand => by
      obtain ⟨f, -, rfl⟩ := Option.map_eq_some_iff.mp hcommand
      cases hsettings
      exact Or.inr rfl
    exact ⟨_, _, _, g, rfl, hg⟩
  · obtain ⟨g, hg⟩ := exists_options_of_finish h hsettings fun g hcommand => by
      obtain ⟨f, -, rfl⟩ := Option.map_eq_some_iff.mp hcommand
      cases hsettings
      exact Or.inr rfl
    exact ⟨_, _, _, g, rfl, hg⟩
  -- What is left asks for help or for the version, and compiles nothing.
  · cases h
    cases hsettings
  · split at h
    · cases h
      cases hsettings
    · cases h
  · split at h
    · cases h
      cases hsettings
    · split at h
      · cases h
        cases hsettings
      · cases h

/-- A command that is called without a limit compiles its filter under the default one. -/
theorem maxDepth_of_command? {args : List String} {command : Command} {settings : Settings}
    (hargs : ∀ arg ∈ args, ¬ Flag.maxDepth.IsNamedBy arg) (h : command? args = some command)
    (hsettings : command.settings? = some settings) :
    settings.maxDepth = ({} : Settings).maxDepth := by
  obtain ⟨name, rest, allowed, g, rfl, hg, rfl | rfl⟩ := exists_options_of_command? h hsettings
  · rfl
  · rw [List.forall_mem_cons] at hargs
    rw [Given.settings, maxDepth_of_take hargs.2 hg, Option.getD_none]

end RecordFilter.Cli
