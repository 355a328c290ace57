import RecordFilter.Cli.Arguments
import RecordFilter.Criterion.Json
import RecordFilter.User.Json

/-!
# Running a command

A command reads its files, compiles the filter and shows the outcome; the first of these steps to
fail decides the error, and then nothing is shown.  Files are read through a function that is given
to the command, so that what a command does can be told without a file system.
-/

namespace RecordFilter.Cli

/-- Why a command fails. -/
inductive Failure where
  /-- A file cannot be read, or is not text. -/
  | unreadable (path : String)
  /-- A file does not hold a filter. -/
  | filterRefused (path : String) (error : Json.ReadError)
  /-- A file does not hold users. -/
  | recordsRefused (path : String) (error : Json.ReadError)
  /-- The filter does not compile. -/
  | uncompilable (error : CompileError)
  deriving DecidableEq

namespace Failure

/-- The name of the kind of a failure. -/
def kind : Failure → String
  | unreadable _ => "FileRead"
  | filterRefused _ _ => "FilterParse"
  | recordsRefused _ _ => "RecordsParse"
  | uncompilable _ => "Compile"

/-- What a failure says of a file that was refused for what it holds. -/
def refusal? : Json.ReadError → Option String
  | .mismatch m => some (Text.escapeAll m.message)
  | _ => none

/-- A failure as a term, with what it carries.  Left out are the cause that the system gives for a
file that cannot be read, and where in a text an error stands. -/
def termText (failure : Failure) : String :=
  let refusal (path : String) (error : Json.ReadError) :=
    CompileError.record failure.kind
      [("path", Text.quote path), ("source", "Error(" ++ Text.quote error.message ++ ")")]
  match failure with
  | unreadable _ => failure.kind
  | filterRefused path error => refusal path error
  | recordsRefused path error => refusal path error
  | uncompilable error => failure.kind ++ "(" ++ error.termText ++ ")"

/-- What a failure says beyond its kind. -/
def detail? (failure : Failure) : Option String :=
  match failure with
  | unreadable _ => none
  | filterRefused _ error => refusal? error
  | recordsRefused _ error => refusal? error
  | uncompilable _ => some failure.termText

end Failure

/-- What a run of the program comes to. -/
inductive Report where
  /-- It succeeds and shows a text. -/
  | shown (text : String)
  /-- It fails. -/
  | failed (failure : Failure)
  /-- It was called in the wrong way. -/
  | misused
  deriving DecidableEq

namespace Report

/-- The exit code of the program. -/
def exitCode : Report → Nat
  | shown _ => 0
  | failed _ => 1
  | misused => 2

/-- The text shown, which ends its last line. -/
def output : Report → String
  | shown text => text ++ "\n"
  | _ => ""

end Report

/-- The report of a command's result. -/
def Report.ofExcept : Except Failure String → Report
  | .ok text => .shown text
  | .error failure => .failed failure

/-- The users that a predicate accepts, as a list or as a file of users. -/
def usersText (users : Collection User) (p : Predicate User) (asJson : Bool) : String :=
  let accepted := (users.matching p).toList
  if asJson then User.fileText accepted else User.listText accepted

/-- The predicate of a filter on users. -/
def predicate (filter : List Criterion) (settings : Settings) : Except Failure (Predicate User) :=
  (compile User.schema settings filter).mapError .uncompilable

/-- How the program is used. -/
def usageText : String := String.intercalate "\n"
  [ "Compile data-described filters into record predicates",
    "",
    "Usage: sieve <COMMAND>",
    "",
    "Commands:",
    "  demo     Run the nested sample filter against the sample users",
    "  run      Compile a JSON filter file and apply it to users",
    "  explain  Compile a JSON filter file and print the resulting expression",
    "  help     Print this message or the help of the given subcommand(s)" ]

/-- The program and its version. -/
def versionText : String := "sieve 0.0.1"

section Files

variable {m : Type → Type} [Monad m] (readFile : String → m (Option String))

/-- The text of a file. -/
def load (path : String) : ExceptT Failure m String := do
  match ← readFile path with
  | some text => return text
  | none => throw (.unreadable path)

/-- The filter in a file. -/
def loadFilter (path : String) : ExceptT Failure m (List Criterion) := do
  let text ← load readFile path
  match Criterion.listOfText text with
  | .ok filter => return filter
  | .error e => throw (.filterRefused path e)

/-- The users in a file, or the sample users if there is none. -/
def loadUsers : Option String → ExceptT Failure m (Collection User)
  | none => return User.samples
  | some path => do
    let text ← load readFile path
    match User.listOfText text with
    | .ok users => return .ofList users
    | .error e => throw (.recordsRefused path e)

/-- The text that a command shows. -/
def Command.perform : Command → ExceptT Failure m String
  | .demo asJson => do
    let p ← liftExcept (predicate User.sampleFilter {})
    return usersText User.samples p asJson
  | .run filter records asJson settings => do
    let filter ← loadFilter readFile filter
    let users ← loadUsers readFile records
    let p ← liftExcept (predicate filter settings)
    return usersText users p asJson
  | .explain filter settings => do
    let filter ← loadFilter readFile filter
    let p ← liftExcept (predicate filter settings)
    return p.text
  | .version => return versionText
  | .help => return usageText
where
  /-- A result as a command that reads nothing. -/
  liftExcept {α : Type} (result : Except Failure α) : ExceptT Failure m α :=
    ExceptT.mk (pure result)

end Files

/-- The report of the program for the given arguments. -/
def report {m : Type → Type} [Monad m] (readFile : String → m (Option String))
    (args : List String) : m Report :=
  match command? args with
  | none => return .misused
  | some command => return .ofExcept (← (command.perform readFile).run)

end RecordFilter.Cli
