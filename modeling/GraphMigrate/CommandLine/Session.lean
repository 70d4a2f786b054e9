/-
A run of the command line.

A run works on a tree and ends with an exit status, lines of output and
the tree as it leaves it.  Files are migrated one after another, each as
the ones before it have left the tree; a file that fails is left alone
and the run goes on.

* `Surroundings`: what a run sees besides its arguments and the tree;
* `migrateFile`, `migrateFiles`: what happens to files;
* `Ending`: how a run ends; `run`: a whole run.
-/
import GraphMigrate.CommandLine.Report
import GraphMigrate.CommandLine.Workspace

namespace GraphMigrate.CommandLine

/-- What a run sees besides its arguments and the tree. -/
structure Surroundings where
  /-- A path of the schema. -/
  schemaPath : Option String := none
  /-- A wish for no colours. -/
  noColor : Option String := none
  /-- A wish for colours, unless it is empty or zero. -/
  forceColor : Option String := none
  /-- Whether the output goes to a terminal. -/
  terminal : Bool := false
  deriving DecidableEq, Repr, Inhabited

namespace Surroundings

/-- Whether colours are on. -/
def colored (surroundings : Surroundings) (given : Given) : Bool :=
  if given.color then true
  else if given.noColor || surroundings.noColor.isSome then false
  else
    match surroundings.forceColor with
    | none => surroundings.terminal
    | some wish => if wish == "" || wish == "0" then surroundings.terminal else true

/-- How a run with some options reports. -/
def reporter (surroundings : Surroundings) (given : Given) : Reporter :=
  { format := given.format.getD .human, quiet := given.quiet,
    colored := surroundings.colored given }

end Surroundings

/-! ### Files -/

/-- What a migration does to a file of the tree. -/
def migrateFile (migration : Migration) (context : Context) (dryRun : Bool) (disk : Disk)
    (path : String) : FileReport × Disk :=
  match disk.read? path with
  | none =>
    (.failed path "" "Failed to read file: stream did not contain valid UTF-8" none, disk)
  | some text =>
    match Language.ofPath? path with
    | none => (.failed path text "Unsupported file type" none, disk)
    | some language =>
      match migration.run context ⟨text, language⟩ with
      | .error e => (.failed path text e.message e.offset?, disk)
      | .ok outcome =>
        let report := FileReport.migrated path text outcome
        if outcome.changed && !dryRun then
          match disk.write? path outcome.text with
          | some after => (report, after)
          | none => (.failed path text "Failed to write file: permission denied" none, disk)
        else (report, disk)

/-- What a migration does to files, one after another. -/
def migrateFiles (migration : Migration) (context : Context) (dryRun : Bool) :
    Disk → List String → List FileReport × Disk
  | disk, [] => ([], disk)
  | disk, path :: paths =>
    let (report, disk) := migrateFile migration context dryRun disk path
    let (reports, disk) := migrateFiles migration context dryRun disk paths
    (report :: reports, disk)

/-! ### Runs -/

/-- How well a run went. -/
inductive ExitStatus where
  | done
  | someFailed
  | settingsFailed
  | schemaFailed
  | pathMissing
  | misused
  deriving DecidableEq, Repr, Inhabited

namespace ExitStatus

/-- The number that stands for a status. -/
def code : ExitStatus → Nat
  | done => 0
  | someFailed => 1
  | settingsFailed | misused => 2
  | schemaFailed => 3
  | pathMissing => 4

/-- The status of a run that stops before its first file. -/
def ofFailure : Failure → ExitStatus
  | .unreadableSettings _ | .badSettings _ _ | .badPattern _ _ => settingsFailed
  | .unreadableSchema _ | .badSchema _ => schemaFailed
  | .missingPath _ => pathMissing

/-- The status of a run that came to its end. -/
def ofReports (reports : List FileReport) : ExitStatus :=
  if reports.any (·.status == .failed) then someFailed else done

end ExitStatus

/-- How a run ends. -/
structure Ending where
  status : ExitStatus := .done
  output : List String := []
  /-- Lines about why the run stopped before its first file. -/
  errors : List String := []
  /-- The files with another text than before. -/
  written : List String := []
  disk : Disk
  deriving Repr

/-- What the files of a request are migrated with. -/
structure Plan where
  context : Context
  files : List String
  deriving Inhabited

/-- Finds out what the files of a request are migrated with. -/
def prepare (surroundings : Surroundings) (disk : Disk) (migration : Migration) (given : Given) :
    Except Failure Plan := do
  let workspace ← Workspace.ofGiven disk given
  let schema ←
    if migration.requiresSchema then
      let path := workspace.schemaPath surroundings.schemaPath given.schema
      some <$> Workspace.readSchema disk path
    else pure none
  let files ← Workspace.collect disk workspace.settings given.paths
  return ⟨workspace.settings.context schema, files⟩

/-- Migrates the files of a plan. -/
def carryOut (reporter : Reporter) (disk : Disk) (migration : Migration) (dryRun : Bool)
    (plan : Plan) : Ending :=
  let (reports, after) := migrateFiles migration plan.context dryRun disk plan.files
  let changed := reports.filter (·.status == .changed)
  { status := .ofReports reports
    output := reporter.lines dryRun reports
    written := if dryRun then [] else changed.map (·.file)
    disk := after }

/-- Runs a migration. -/
def runMigration (surroundings : Surroundings) (disk : Disk) (migration : Migration)
    (given : Given) : Ending :=
  let reporter := surroundings.reporter given
  match prepare surroundings disk migration given with
  | .error failure =>
    { status := .ofFailure failure, errors := [reporter.failureLine failure.message], disk }
  | .ok plan => carryOut reporter disk migration given.dryRun plan

/-- Does what a request asks for. -/
def perform (surroundings : Surroundings) (disk : Disk) (request : Request) : Ending :=
  match request.command with
  | .list => { output := (surroundings.reporter request.given).listLines, disk }
  | .migrate migration => runMigration surroundings disk migration request.given

/-- A whole run with its arguments. -/
def run (surroundings : Surroundings) (disk : Disk) (arguments : List String) : Ending :=
  match Invocation.parse arguments with
  | .run request => perform surroundings disk request
  | .showVersion => { output := [versionLine], disk }
  | .showHelp => { output := usageLines, disk }
  | .misuse => { status := .misused, errors := usageLines, disk }

end GraphMigrate.CommandLine
