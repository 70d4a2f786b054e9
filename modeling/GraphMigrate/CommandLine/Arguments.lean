/-
Arguments of the command line.

Some options may stand in front of the command and behind it; behind it
they count more.  Options with a value take it from behind an equals
sign, from the rest of their argument if they are single letters, or
from the next argument, which then must not look like an option.

* `Request`: a command and its options;
* `Invocation.parse`: what arguments ask for.
-/
import GraphMigrate.Migration.Registry

namespace GraphMigrate.CommandLine

/-- How reports are written. -/
inductive OutputFormat where
  | human
  | json
  deriving DecidableEq, Repr, Inhabited

/-- The options there are. -/
inductive Flag where
  | config
  | format
  | quiet
  | color
  | noColor
  | help
  | version
  | dryRun
  | ignorePattern
  | schema
  deriving DecidableEq, Repr

namespace Flag

/-- Whether an option has a value. -/
def takesValue : Flag → Bool
  | config | format | ignorePattern | schema => true
  | _ => false

/-- An option by its long name. -/
def ofLong? : String → Option Flag
  | "config" => some config
  | "format" => some format
  | "quiet" => some quiet
  | "color" => some color
  | "no-color" => some noColor
  | "help" => some help
  | "version" => some version
  | "dry-run" => some dryRun
  | "ignore-pattern" => some ignorePattern
  | "schema" => some schema
  | _ => none

/-- An option by its letter. -/
def ofShort? : Char → Option Flag
  | 'c' => some config
  | 'f' => some format
  | 'q' => some quiet
  | 'h' => some help
  | 'V' => some version
  | _ => none

end Flag

/-- Where arguments stand: in front of the command, or behind it. -/
inductive Level where
  | top
  | list
  | migrate (migration : Migration)
  deriving DecidableEq, Repr

namespace Level

/-- Whether an option may stand at a level. -/
def allows (level : Level) : Flag → Bool
  | .config | .format | .quiet | .color | .noColor | .help => true
  | .version => level == .top
  | .dryRun | .ignorePattern =>
    match level with
    | .migrate _ => true
    | _ => false
  | .schema => level == .migrate .identity

/-- The level behind a command. -/
def ofCommand? (name : String) : Option Level :=
  if name == "list" then some .list else (Migration.ofName? name).map .migrate

end Level

/-- The options and paths that were given at a level. -/
structure Given where
  config : Option String := none
  format : Option OutputFormat := none
  quiet : Bool := false
  color : Bool := false
  noColor : Bool := false
  dryRun : Bool := false
  ignorePatterns : List String := []
  schema : Option String := none
  paths : List String := []
  deriving DecidableEq, Repr, Inhabited

/-- Why reading arguments stops. -/
inductive Stop where
  | misuse
  | help
  | version
  deriving DecidableEq, Repr

namespace Given

/-- A format by its name. -/
def format? : String → Option OutputFormat
  | "human" => some .human
  | "json" => some .json
  | _ => none

/-- A value for something that may be given once. -/
def once {α : Type} (before : Option α) (value : α) : Except Stop (Option α) :=
  if before.isSome then .error .misuse else .ok (some value)

/-- A switch that may be given once. -/
def switch (before : Bool) : Except Stop Bool := if before then .error .misuse else .ok true

/-- A path, which is not empty. -/
def path (value : String) : Except Stop String :=
  if value == "" then .error .misuse else .ok value

/-- Adds an option. -/
def add (given : Given) (flag : Flag) (value : String) : Except Stop Given := do
  match flag with
  | .config => return { given with config := ← once given.config (← path value) }
  | .format =>
    match format? value with
    | some format => return { given with format := ← once given.format format }
    | none => .error .misuse
  | .quiet => return { given with quiet := ← switch given.quiet }
  | .color => return { given with color := ← switch given.color }
  | .noColor => return { given with noColor := ← switch given.noColor }
  | .help => .error .help
  | .version => .error .version
  | .dryRun => return { given with dryRun := ← switch given.dryRun }
  | .ignorePattern =>
    return { given with ignorePatterns := given.ignorePatterns ++ [value] }
  | .schema => return { given with schema := ← once given.schema (← path value) }

/-- Adds a path. -/
def addPath (given : Given) (value : String) : Except Stop Given := do
  return { given with paths := given.paths ++ [← path value] }

/-- Whether options exclude each other. -/
def isContradictory (given : Given) : Bool := given.color && given.noColor

end Given

/-- Whether an argument looks like an option. -/
def looksLikeOption (argument : String) : Bool :=
  match argument.toList with
  | '-' :: _ :: _ => true
  | _ => false

/-- The value in the next argument, and the arguments behind it. -/
def nextValue : List String → Except Stop (String × List String)
  | [] => .error .misuse
  | value :: later => if looksLikeOption value then .error .misuse else .ok (value, later)

/-- An option that may stand at a level. -/
def allowed (level : Level) (flag : Option Flag) : Except Stop Flag :=
  match flag with
  | some flag => if level.allows flag then .ok flag else .error .misuse
  | none => .error .misuse

/-- Reads an option by its long name, from behind its dashes. -/
def longOption (level : Level) (given : Given) (text : List Char) (later : List String) :
    Except Stop (Given × List String) := do
  let name := text.takeWhile (· != '=')
  let flag ← allowed level (Flag.ofLong? (String.ofList name))
  match text.drop name.length, flag.takesValue with
  | _ :: value, true => return (← given.add flag (String.ofList value), later)
  | _ :: _, false => .error .misuse
  | [], true =>
    let (value, later) ← nextValue later
    return (← given.add flag value, later)
  | [], false => return (← given.add flag "", later)

/-- Reads options by their letters, from behind the dash. -/
def shortOptions (level : Level) (given : Given) :
    List Char → List String → Except Stop (Given × List String)
  | [], later => .ok (given, later)
  | c :: cs, later => do
    let flag ← allowed level (Flag.ofShort? c)
    if flag.takesValue then
      match cs with
      | [] =>
        let (value, later) ← nextValue later
        return (← given.add flag value, later)
      | '=' :: value => return (← given.add flag (String.ofList value), later)
      | value => return (← given.add flag (String.ofList value), later)
    else
      shortOptions level (← given.add flag "") cs later

/-- Reads an argument that looks like an option, with the arguments behind
it. -/
def option (level : Level) (given : Given) (argument : String) (later : List String) :
    Except Stop (Given × List String) :=
  match argument.toList with
  | '-' :: '-' :: text => longOption level given text later
  | '-' :: text => shortOptions level given text later
  | _ => .error .misuse

/-- Reads the arguments behind a command, at most `bound` of them. -/
def commandArguments (level : Level) (given : Given) :
    Nat → List String → Except Stop Given
  | 0, _ => .error .misuse
  | _ + 1, [] => if given.isContradictory then .error .misuse else .ok given
  | bound + 1, argument :: later =>
    let takesPaths := level != .list
    if argument == "--" then
      if later.isEmpty || takesPaths then do
        let given ← later.foldlM Given.addPath given
        if given.isContradictory then .error .misuse else .ok given
      else .error .misuse
    else if looksLikeOption argument then do
      let (given, later) ← option level given argument later
      commandArguments level given bound later
    else if takesPaths then do
      commandArguments level (← given.addPath argument) bound later
    else .error .misuse

/-- Options behind a command with those in front of it, which count less. -/
def Given.over (inner outer : Given) : Given :=
  { inner with
    config := inner.config <|> outer.config
    format := inner.format <|> outer.format
    quiet := inner.quiet || outer.quiet
    color := inner.color || outer.color
    noColor := inner.noColor || outer.noColor }

/-- Reads arguments up to the command and those behind it, at most
`bound` of them. -/
def topArguments (given : Given) : Nat → List String → Except Stop (Level × Given)
  | 0, _ => .error .misuse
  | _ + 1, [] => .error .misuse
  | bound + 1, argument :: later =>
    if argument == "--" then .error .misuse
    else if looksLikeOption argument then do
      let (given, later) ← option .top given argument later
      topArguments given bound later
    else if argument == "help" then .error .help
    else
      match Level.ofCommand? argument with
      | none => .error .misuse
      | some level => do
        let inner ← commandArguments level {} (later.length + 1) later
        if given.isContradictory then .error .misuse else .ok (level, inner.over given)

/-- What can be asked for. -/
inductive Command where
  | list
  | migrate (migration : Migration)
  deriving DecidableEq, Repr

/-- A command and its options. -/
structure Request where
  command : Command
  given : Given
  deriving DecidableEq, Repr

/-- What arguments ask for. -/
inductive Invocation where
  | run (request : Request)
  | showVersion
  | showHelp
  | misuse
  deriving DecidableEq, Repr

/-- What arguments ask for. -/
def Invocation.parse (arguments : List String) : Invocation :=
  match topArguments {} (arguments.length + 1) arguments with
  | .ok (.list, given) => .run ⟨.list, given⟩
  | .ok (.migrate migration, given) => .run ⟨.migrate migration, given⟩
  | .ok (.top, _) => .misuse
  | .error .misuse => .misuse
  | .error .help => .showHelp
  | .error .version => .showVersion

/-- The name and the version of the program. -/
def versionLine : String := "graphql-codemod 0.1.0"

/-- How the program is used. -/
def usageLines : List String :=
  ["Usage: graphql-codemod [OPTIONS] <COMMAND>", "", "Commands:"]
    ++ Migration.all.map (fun migration => "  " ++ migration.name)
    ++ ["  list", "", "Options:", "  -c, --config <FILE>", "  -f, --format <human|json>",
      "  -q, --quiet", "      --color", "      --no-color", "      --dry-run",
      "      --ignore-pattern <GLOB>", "      --schema <FILE>", "  -h, --help", "  -V, --version"]

end GraphMigrate.CommandLine
