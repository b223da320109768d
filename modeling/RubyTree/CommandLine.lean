import RubyTree.Suite.Report

/-!
# The command line

Three commands: print the tree of a stream, check it against an expected dump, run the suites below
a directory. A command names the paths it reads, and what it does is a function of the files there.
-/

namespace RubyTree

/-- What to do. -/
inductive Command where
  | print (events : String)
  | check (events expected : String)
  | test (root : String) (filter : Option String)
  deriving DecidableEq

/-- What a command line asks for. -/
inductive Request where
  | run (command : Command)
  | version
  | help
  /-- The command line makes no sense. -/
  | rejected
  deriving DecidableEq

/-- What a run leaves behind. -/
structure Output where
  status : Nat
  out : String := ""
  errors : String := ""
  deriving DecidableEq

namespace CommandLine

/-! ## Reading a command line -/

/-- The commands by name. -/
inductive CommandName where
  | print
  | check
  | test
  deriving DecidableEq

/-- The command of a given name. -/
def CommandName.ofString? : String → Option CommandName
  | "print" => some print
  | "check" => some check
  | "test" => some test
  | _ => none

/-- The number of paths a command takes at most. -/
def CommandName.mostPaths : CommandName → Nat
  | print => 1
  | check => 2
  | test => 1

/-- Where suites are looked for if no directory is given. -/
def defaultRoot : String := "tests/suites"

/-- What has been read of a command line. Options that are not in `filter` only ask to be given once
    on each side of the command. -/
structure Given where
  noColor : Bool := false
  logLevel : Bool := false
  filter : Option String := none
  paths : List String := []

/-- The command that was given, if its paths are complete. -/
def CommandName.complete (name : CommandName) (given : Given) : Request :=
  match name, given.paths with
  | print, [events] => .run (.print events)
  | check, [events, expected] => .run (.check events expected)
  | test, [] => .run (.test defaultRoot given.filter)
  | test, [root] => .run (.test root given.filter)
  | _, _ => .rejected

/-- An argument that is written as an option. A single dash is a path. -/
def isOption (argument : String) : Bool := argument.startsWith "-" && argument != "-"

/-- The value of an option that is written together with it: `--name=value`. -/
def joinedValue? (name argument : String) : Option String :=
  let start := (name ++ "=").toList
  if start.isPrefixOf argument.toList then some (String.ofList (argument.toList.drop start.length))
  else none

/-- Adds a path, if the command takes one more and the path is not empty. -/
def addPath? (name : CommandName) (given : Given) (path : String) : Option Given :=
  if path.isEmpty ∨ name.mostPaths ≤ given.paths.length then none
  else some { given with paths := given.paths ++ [path] }

/-- Sets an option that takes a value, if it is not set already. -/
def setValue? (name : CommandName) (given : Given) (option value : String) : Option Given :=
  if option = "--log-level" then
    if given.logLevel then none else some { given with logLevel := true }
  else if option = "--filter" ∧ name = .test then
    if given.filter.isSome then none else some { given with filter := some value }
  else none

/-- An option of a command whose value is written together with it. -/
def setJoined? (name : CommandName) (given : Given) (argument : String) : Option Given :=
  match joinedValue? "--log-level" argument, joinedValue? "--filter" argument with
  | some value, _ => setValue? name given "--log-level" value
  | none, some value => setValue? name given "--filter" value
  | none, none => none

/-- Reads what follows the name of a command. After `--` everything is a path. -/
def readCommand (name : CommandName) (given : Given) (pathsOnly : Bool) : List String → Request
  | [] => name.complete given
  | argument :: arguments =>
    if pathsOnly ∨ ¬ isOption argument then
      match addPath? name given argument with
      | some given => readCommand name given pathsOnly arguments
      | none => .rejected
    else if argument = "--" then readCommand name given true arguments
    else if argument = "--help" ∨ argument.startsWith "-h" then .help
    else if argument = "--no-color" then
      if given.noColor then .rejected
      else readCommand name { given with noColor := true } false arguments
    else if argument = "--log-level" ∨ argument = "--filter" then
      match arguments with
      | [] => .rejected
      | value :: arguments =>
        if isOption value then .rejected
        else match setValue? name given argument value with
          | some given => readCommand name given false arguments
          | none => .rejected
    else
      match setJoined? name given argument with
      | some given => readCommand name given false arguments
      | none => .rejected

/-- Reads what follows `help`: nothing, or the name of one command. -/
def readHelp : List String → Request
  | [] => .help
  | [name] => if (CommandName.ofString? name).isSome ∨ name = "help" then .help else .rejected
  | _ => .rejected

/-- Reads a command line up to the name of the command. -/
def readFrom (given : Given) : List String → Request
  | [] => .rejected
  | argument :: arguments =>
    if ¬ isOption argument then
      match CommandName.ofString? argument with
      | some name => readCommand name {} false arguments
      | none => if argument = "help" then readHelp arguments else .rejected
    else if argument = "--version" ∨ argument.startsWith "-V" then .version
    else if argument = "--help" ∨ argument.startsWith "-h" then .help
    else if argument = "--no-color" then
      if given.noColor then .rejected else readFrom { given with noColor := true } arguments
    else if argument = "--log-level" then
      match arguments with
      | [] => .rejected
      | value :: arguments =>
        if isOption value ∨ given.logLevel then .rejected
        else readFrom { given with logLevel := true } arguments
    else if (joinedValue? "--log-level" argument).isSome ∧ ¬ given.logLevel then
      readFrom { given with logLevel := true } arguments
    else .rejected

/-- Reads a command line. -/
def read (arguments : List String) : Request := readFrom {} arguments

/-! ## Running a command -/

/-- The paths a command reads. -/
def pathsOf : Command → List String
  | .print events => [events]
  | .check events expected => [events, expected]
  | .test root _ => [root]

/-- Reads a stream from a file and replays it (`read_events`, `normalize_events`). -/
def normalizeFile (files : Files) (path : String) : Except Error Normalized :=
  match files.text? path with
  | none => .error (.unreadable path)
  | some text => normalize text

/-- The lines for diagnostics. -/
def diagnosticLines (normalized : Normalized) : String :=
  String.join (normalized.diagnostics.map fun diagnostic => diagnostic.text ++ "\n")

/-- Checks a stream against an expected dump. Diagnostics are printed and decide nothing
    (`handle_check`). -/
def check (files : Files) (events expected : String) : Except Error Output := do
  let normalized ← normalizeFile files events
  match files.text? expected with
  | none => .error (.unreadable expected)
  | some text =>
    let printed := diagnosticLines normalized
    match Diff.mismatch? text normalized.render with
    | some difference => return { status := 1, out := printed ++ difference }
    | none => return { status := 0, out := printed ++ "ok\n" }

/-- What a command does with files, or the error that keeps it from it (`handle_print`,
    `handle_check`, `handle_test`). -/
def perform (files : Files) (colors : Bool) : Command → Except Error Output
  | .print events => do
    let normalized ← normalizeFile files events
    return { status := 0, out := normalized.report }
  | .check events expected => check files events expected
  | .test root filter => do
    let results ← Suite.run files root filter
    return {
      status := if (Suite.summary results).failed = 0 then 0 else 1
      out := Suite.output colors results
      errors := Suite.errors colors results }

/-- The messages of an error and of what caused it. -/
def errorLines : Error → String
  | .event index name line column cause =>
    (Error.event index name line column cause).message ++ "\n" ++ errorLines cause
  | error => error.message ++ "\n"

/-- Runs a command (`run`). -/
def run (files : Files) (colors : Bool) (command : Command) : Output :=
  match perform files colors command with
  | .ok output => output
  | .error error => { status := 1, errors := errorLines error }

/-- The name and the version of the program. -/
def versionLine : String := "rbcst 0.1.0\n"

/-- The forms of a command line, shown to who asks for help or writes another one. -/
def usage : String :=
  "usage: rbcst print EVENTS | rbcst check EVENTS EXPECTED | rbcst test [DIR] [--filter TEXT]\n"

/-- Answers a command line. -/
def answer (files : Files) (colors : Bool) : Request → Output
  | .run command => run files colors command
  | .version => { status := 0, out := versionLine }
  | .help => { status := 0, out := usage }
  | .rejected => { status := 2, errors := usage }

end CommandLine

end RubyTree
