import RecordFilter.Settings
import RecordFilter.Integer

/-!
# The arguments of the command line

The first argument names a command, and the others are options of that command.  An option with a
value has it behind an equals sign or as the next argument, which must not look like an option.  The
arguments are taken from left to right, and each option is given at most once.
-/

namespace RecordFilter.Cli

/-- What the program is asked to do. -/
inductive Command where
  /-- Apply the sample filter to the sample users. -/
  | demo (asJson : Bool)
  /-- Apply the filter of a file to the users of another file, or to the sample users. -/
  | run (filter : String) (records : Option String) (asJson : Bool) (settings : Settings)
  /-- Show the filter of a file as an expression. -/
  | explain (filter : String) (settings : Settings)
  /-- Show the version of the program. -/
  | version
  /-- Show how the program is used. -/
  | help
  deriving DecidableEq

/-- The options of the commands. -/
inductive Flag where
  | filter
  | records
  | json
  | maxDepth
  | caseSensitiveFields
  deriving DecidableEq

namespace Flag

/-- The option on the command line. -/
def name : Flag → String
  | filter => "--filter"
  | records => "--records"
  | json => "--json"
  | maxDepth => "--max-depth"
  | caseSensitiveFields => "--case-sensitive-fields"

/-- The option has a value. -/
def takesValue : Flag → Bool
  | filter | records | maxDepth => true
  | json | caseSensitiveFields => false

end Flag

/-- The options given to a command. -/
structure Given where
  filter : Option String := none
  records : Option String := none
  json : Bool := false
  maxDepth : Option Nat := none
  caseSensitiveFields : Bool := false

namespace Given

/-- The option has been given. -/
def has (g : Given) : Flag → Bool
  | .filter => g.filter.isSome
  | .records => g.records.isSome
  | .json => g.json
  | .maxDepth => g.maxDepth.isSome
  | .caseSensitiveFields => g.caseSensitiveFields

/-- The options with one more, if its value will do. -/
def set? (g : Given) (value : String) : Flag → Option Given
  | .filter => some { g with filter := some value }
  | .records => some { g with records := some value }
  | .json => some { g with json := true }
  | .maxDepth =>
    (Integer.countOfNumeral? value.toList).map fun n => { g with maxDepth := some n }
  | .caseSensitiveFields => some { g with caseSensitiveFields := true }

/-- The settings of the compiler that the options amount to. -/
def settings (g : Given) : Settings :=
  { maxDepth := g.maxDepth.getD ({} : Settings).maxDepth
    ignoresCase := !g.caseSensitiveFields }

end Given

/-- The characters before the first equals sign, and those behind it if there is one. -/
def splitAtEquals (s : List Char) : List Char × Option (List Char) :=
  (s.takeWhile (· ≠ '='), (s.dropWhile (· ≠ '=')).tail?)

/-- An argument that may be the value of an option: anything but an option, and a lone dash. -/
def isValue (arg : String) : Bool :=
  match arg.toList with
  | '-' :: _ :: _ => false
  | _ => true

/-- The argument asks for help. -/
def asksHelp (arg : String) : Bool :=
  arg == "--help" || ['-', 'h'].isPrefixOf arg.toList

/-- The outcome of taking the options of a command. -/
inductive Taken where
  | options (given : Given)
  | help
  | misuse

/-- Takes the options of a command that has the given ones, behind those taken so far. -/
def take (allowed : List Flag) (given : Given) : List String → Taken
  | [] => .options given
  | ["--"] => .options given
  | arg :: args =>
    if asksHelp arg then .help
    else
      let (name, value?) := splitAtEquals arg.toList
      match allowed.find? (·.name.toList == name) with
      | none => .misuse
      | some flag =>
        if given.has flag then .misuse
        else match flag.takesValue, value?, args with
          | true, some value, args =>
            match given.set? (String.ofList value) flag with
            | some given => take allowed given args
            | none => .misuse
          | true, none, value :: args =>
            if isValue value then
              match given.set? value flag with
              | some given => take allowed given args
              | none => .misuse
            else .misuse
          | true, none, [] => .misuse
          | false, some _, _ => .misuse
          | false, none, args =>
            match given.set? "" flag with
            | some given => take allowed given args
            | none => .misuse

/-- The command that the options amount to, if they are what the command needs. -/
def finish (command : Given → Option Command) : Taken → Option Command
  | .options given => command given
  | .help => some .help
  | .misuse => none

/-- The names of the commands. -/
def commandNames : List String := ["demo", "run", "explain", "help"]

/-- The command of the arguments, unless the program is misused. -/
def command? : List String → Option Command
  | [] => none
  | "demo" :: args => finish (fun g => some (.demo g.json)) (take [.json] {} args)
  | "run" :: args =>
    finish (fun g => g.filter.map fun f => .run f g.records g.json g.settings)
      (take [.filter, .records, .json, .maxDepth, .caseSensitiveFields] {} args)
  | "explain" :: args =>
    finish (fun g => g.filter.map fun f => .explain f g.settings)
      (take [.filter, .maxDepth, .caseSensitiveFields] {} args)
  | ["help"] => some .help
  | ["help", name] => if commandNames.contains name then some .help else none
  | arg :: _ =>
    if asksHelp arg then some .help
    else if arg == "--version" || ['-', 'V'].isPrefixOf arg.toList then some .version
    else none

end RecordFilter.Cli
