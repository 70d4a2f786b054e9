/-
What a run works on.

The settings are those that the command line names, or the nearest ones
from the working directory upwards, or the default ones; paths in them
start at their directory.  Files that are named are taken as they are;
below directories that are named, files are taken that the settings
admit.

* `Failure`: why a run stops before its first file;
* `nearestSettings?`: the settings that count in a directory;
* `Workspace.load`: the settings and their directory;
* `Workspace.readSchema`: the schema;
* `Workspace.collect`: the files.
-/
import GraphMigrate.CommandLine.Arguments
import GraphMigrate.Disk
import GraphMigrate.Settings.Load

namespace GraphMigrate.CommandLine

/-- Why a run stops before its first file. -/
inductive Failure where
  | unreadableSettings (path : String)
  | badSettings (path : String) (cause : SettingsError)
  | badPattern (pattern : String) (cause : GlobError)
  | unreadableSchema (path : String)
  | badSchema (path : String)
  | missingPath (path : String)
  deriving DecidableEq, Repr

namespace Failure

/-- The wording of a failure. -/
def message : Failure → String
  | unreadableSettings path => "Failed to load config " ++ path ++ ": cannot be read"
  | badSettings path cause => "Failed to load config " ++ path ++ ": " ++ cause.message
  | badPattern pattern cause => "Invalid ignore pattern '" ++ pattern ++ "': " ++ cause.message
  | unreadableSchema path => "Failed to read schema " ++ path ++ ": cannot be read"
  | badSchema path => "Invalid schema " ++ path ++ ": not a schema"
  | missingPath path => "Cannot access " ++ path ++ ": no such file or directory"

end Failure

/-- The names of files with settings, the first one counting most. -/
def settingsNames : List String :=
  [".graphql-codemodrc.yml", ".graphql-codemodrc.yaml", ".graphql-codemodrc.json",
    "graphql-codemod.config.yml"]

/-- The places where the settings of a directory may stand, the nearest
first. -/
def settingsPlaces (directory : List String) : List (List String) :=
  (Disk.ancestors directory).flatMap fun place => settingsNames.map fun name => place ++ [name]

/-- Whether a file stands at a place. -/
def isFileAt (disk : Disk) (place : List String) : Bool :=
  match disk.at? place with
  | some (.file _) => true
  | _ => false

/-- The place of the settings that count in a directory. -/
def nearestSettings? (disk : Disk) (directory : List String) : Option (List String) :=
  (settingsPlaces directory).find? (isFileAt disk)

/-- Settings and the directory at which the paths in them start. -/
structure Workspace where
  settings : Settings := {}
  base : String
  deriving DecidableEq, Repr

namespace Workspace

/-- The directory of a file with settings. -/
def directoryOf (disk : Disk) (path : String) : String :=
  match Path.parent? path with
  | some parent => if parent == "" then Disk.absolute disk.cwd else parent
  | none => Disk.absolute disk.cwd

/-- The settings in a file. -/
def ofFile (disk : Disk) (path : String) : Except Failure Workspace :=
  match disk.read? path with
  | none => .error (.unreadableSettings path)
  | some text =>
    match Settings.load path text with
    | .error cause => .error (.badSettings path cause)
    | .ok settings => .ok { settings, base := directoryOf disk path }

/-- The settings that the command line names, or else the nearest ones. -/
def load (disk : Disk) (named : Option String) : Except Failure Workspace :=
  match named <|> (nearestSettings? disk disk.cwd).map Disk.absolute with
  | some path => ofFile disk path
  | none => .ok { base := Disk.absolute disk.cwd }

/-- Adds a pattern of files that are left alone. -/
def ignore (workspace : Workspace) (pattern : String) : Except Failure Workspace :=
  match Glob.parse pattern with
  | .error cause => .error (.badPattern pattern cause)
  | .ok _ =>
    let settings := workspace.settings
    .ok { workspace with settings := { settings with ignore := settings.ignore ++ [pattern] } }

/-- The workspace of a request. -/
def ofGiven (disk : Disk) (given : Given) : Except Failure Workspace := do
  given.ignorePatterns.foldlM ignore (← load disk given.config)

/-- The path of the schema, from the command line, from the surroundings
or from the settings. -/
def schemaPath (workspace : Workspace) (surrounding explicit : Option String) : String :=
  workspace.settings.schemaPath workspace.base surrounding explicit

/-- The schema in a file. -/
def readSchema (disk : Disk) (path : String) : Except Failure Document.Schema :=
  match disk.read? path with
  | none => .error (.unreadableSchema path)
  | some text =>
    match Document.Schema.parse? text with
    | none => .error (.badSchema path)
    | some schema => .ok schema

/-! ### Files -/

/-- Whether a file below a directory is taken, by its path from the
directory. -/
def admits (settings : Settings) (directory : String) (names : List String) : Bool :=
  let below := String.intercalate "/" names
  let walked := Path.join directory below
  settings.isSupported walked && !settings.isIgnored walked && !settings.isIgnored below

/-- The files that a path stands for. -/
def filesOf (disk : Disk) (settings : Settings) (path : String) : Except Failure (List String) :=
  match disk.entry? path with
  | none => .error (.missingPath path)
  | some (.file _) => .ok [path]
  | some (.directory entries) =>
    let found := (Entry.directory entries).files.filter (admits settings path)
    .ok (found.map fun names => Path.join path (String.intercalate "/" names))

/-- A list without the paths that are the same as those right in front of
them. -/
def withoutRepeats : List String → List String
  | [] => []
  | path :: paths =>
    path :: withoutRepeatsAfter path paths
where
  /-- The same behind a path. -/
  withoutRepeatsAfter (before : String) : List String → List String
    | [] => []
    | path :: paths =>
      if Path.components path == Path.components before then withoutRepeatsAfter before paths
      else path :: withoutRepeatsAfter path paths

/-- The paths that a run starts from.  Without paths this is the working
directory. -/
def startingPaths (paths : List String) : List String := if paths.isEmpty then ["."] else paths

/-- The files that paths stand for. -/
def collect (disk : Disk) (settings : Settings) (paths : List String) :
    Except Failure (List String) := do
  return withoutRepeats (← (startingPaths paths).mapM (filesOf disk settings)).flatten

end Workspace

end GraphMigrate.CommandLine
