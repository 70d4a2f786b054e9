/-
Reports of what happened to files.

Every file gets a report with its notes, and a run ends with a summary.
Reports are lines for people to read, with or without colours, or one
object a line.  A quiet run leaves out the files that did not fail, and
for people also a summary without failures.

* `FileReport`, `Summary`: what is reported;
* `Reporter.fileLines`, `Reporter.summaryLines`: the lines of both;
* `Reporter.listLines`: the migrations that can be run;
* `Reporter.failureLine`: an error that stops a run before its first file.
-/
import GraphMigrate.CommandLine.Arguments
import GraphMigrate.Data.Json
import GraphMigrate.Text.Position

namespace GraphMigrate.CommandLine

/-! ### What is reported -/

/-- What happened to a file. -/
inductive FileStatus where
  | changed
  | unchanged
  | failed
  deriving DecidableEq, Repr, Inhabited

/-- How much attention a remark asks for. -/
inductive Urgency where
  | info
  | warning
  | error
  deriving DecidableEq, Repr, Inhabited

/-- A remark on a place in a file, line and column counted from one. -/
structure Remark where
  urgency : Urgency
  message : String
  line : Nat
  column : Nat
  deriving DecidableEq, Repr, Inhabited

/-- What happened to a file and why. -/
structure FileReport where
  file : String
  status : FileStatus
  remarks : List Remark
  deriving DecidableEq, Repr, Inhabited

/-- The totals of a run. -/
structure Summary where
  changed : Nat := 0
  unchanged : Nat := 0
  failed : Nat := 0
  dryRun : Bool := false
  deriving DecidableEq, Repr, Inhabited

namespace FileStatus

/-- The name of a status. -/
def display : FileStatus → String
  | changed => "changed"
  | unchanged => "unchanged"
  | failed => "failed"

end FileStatus

namespace Urgency

/-- The name of an urgency. -/
def display : Urgency → String
  | info => "info"
  | warning => "warning"
  | error => "error"

/-- The urgency of a note. -/
def ofSeverity : Severity → Urgency
  | .info => info
  | .warning => warning

end Urgency

namespace Remark

/-- A remark on the place of an offset. -/
def ofOffset (index : LineIndex) (urgency : Urgency) (message : String) (offset : Nat) : Remark :=
  let position := index.position offset
  ⟨urgency, message, position.line + 1, position.column + 1⟩

end Remark

namespace FileReport

/-- The report of a file that was migrated, from the text before. -/
def migrated (file text : String) (outcome : Outcome) : FileReport :=
  let index := LineIndex.ofText text.toList
  { file
    status := if outcome.changed then .changed else .unchanged
    remarks := outcome.diagnostics.map fun note =>
      .ofOffset index (.ofSeverity note.severity) note.message note.span.start }

/-- The report of a file that was left alone.  An error without a place
is put at the start of the file. -/
def failed (file text message : String) (offset : Option Nat) : FileReport :=
  { file
    status := .failed
    remarks := [.ofOffset (LineIndex.ofText text.toList) .error message (offset.getD 0)] }

end FileReport

namespace Summary

/-- Counts a file. -/
def add (summary : Summary) : FileStatus → Summary
  | .changed => { summary with changed := summary.changed + 1 }
  | .unchanged => { summary with unchanged := summary.unchanged + 1 }
  | .failed => { summary with failed := summary.failed + 1 }

/-- The totals of reports. -/
def ofReports (dryRun : Bool) (reports : List FileReport) : Summary :=
  reports.foldl (fun summary report => summary.add report.status) { dryRun }

end Summary

/-! ### Colours -/

/-- The ways in which words stand out. -/
inductive Emphasis where
  | red
  | green
  | cyan
  | bold
  | dimmed
  | boldRed
  | boldYellow
  deriving DecidableEq, Repr

namespace Emphasis

/-- The number of an emphasis in an escape sequence. -/
def code : Emphasis → String
  | red => "31"
  | green => "32"
  | cyan => "36"
  | bold => "1"
  | dimmed => "2"
  | boldRed => "1;31"
  | boldYellow => "1;33"

end Emphasis

/-- The character that starts an escape sequence. -/
def escapeStart : String := String.singleton (Char.ofNat 27)

/-- How a run reports. -/
structure Reporter where
  format : OutputFormat := .human
  quiet : Bool := false
  colored : Bool := false
  deriving DecidableEq, Repr, Inhabited

namespace Reporter

/-- Words that stand out where colours are on. -/
def paint (reporter : Reporter) (emphasis : Emphasis) (words : String) : String :=
  if reporter.colored then
    escapeStart ++ "[" ++ emphasis.code ++ "m" ++ words ++ escapeStart ++ "[0m"
  else words

/-! ### Lines for people -/

/-- The word in front of a remark. -/
def label (reporter : Reporter) : Urgency → String
  | .error => reporter.paint .boldRed "error:"
  | .warning => reporter.paint .boldYellow "warning:"
  | .info => reporter.paint .cyan "info:"

/-- The line of a remark. -/
def remarkLine (reporter : Reporter) (file : String) (remark : Remark) : String :=
  "  " ++ file ++ ":" ++ toString remark.line ++ ":" ++ toString remark.column ++ ": "
    ++ reporter.label remark.urgency ++ " " ++ remark.message

/-- The line that says what happened to a file. -/
def statusLine (reporter : Reporter) (report : FileReport) : String :=
  match report.status with
  | .failed => reporter.paint .red "✗" ++ " " ++ reporter.paint .bold report.file
  | .changed => reporter.paint .green "✓" ++ " " ++ report.file
  | .unchanged => reporter.paint .dimmed "·" ++ " " ++ reporter.paint .dimmed report.file

/-- The line of totals. -/
def totalsLine (reporter : Reporter) (summary : Summary) : String :=
  let failed := toString summary.failed ++ " failed"
  reporter.paint .green (toString summary.changed) ++ " changed, "
    ++ toString summary.unchanged ++ " unchanged, "
    ++ (if summary.failed == 0 then failed else reporter.paint .boldRed failed)
    ++ (if summary.dryRun then reporter.paint .dimmed " (dry run, no files written)" else "")

/-! ### Objects -/

/-- A remark as plain data. -/
def remarkData (remark : Remark) : Data :=
  .object
    [("column", .nat remark.column), ("line", .nat remark.line),
      ("message", .string remark.message), ("severity", .string remark.urgency.display)]

/-- A report as plain data. -/
def reportData (report : FileReport) : Data :=
  .object
    [("diagnostics", .list (report.remarks.map remarkData)), ("file", .string report.file),
      ("status", .string report.status.display)]

/-- A summary as plain data. -/
def summaryData (summary : Summary) : Data :=
  .object
    [("summary", .object
      [("changed", .nat summary.changed), ("dry_run", .bool summary.dryRun),
        ("failed", .nat summary.failed), ("unchanged", .nat summary.unchanged)])]

/-- A migration as plain data. -/
def migrationData (migration : Migration) : Data :=
  .object
    [("description", .string migration.description), ("name", .string migration.name),
      ("requires_schema", .bool migration.requiresSchema)]

/-! ### Reporting -/

/-- The lines about a file. -/
def fileLines (reporter : Reporter) (report : FileReport) : List String :=
  if reporter.quiet && report.status != .failed then []
  else
    match reporter.format with
    | .human =>
      reporter.statusLine report :: report.remarks.map (reporter.remarkLine report.file)
    | .json => [Json.written (reportData report)]

/-- The lines about a whole run. -/
def summaryLines (reporter : Reporter) (summary : Summary) : List String :=
  match reporter.format with
  | .human =>
    if reporter.quiet && summary.failed == 0 then [] else ["", reporter.totalsLine summary]
  | .json => [Json.written (summaryData summary)]

/-- The lines about a run: its files in order, and its summary. -/
def lines (reporter : Reporter) (dryRun : Bool) (reports : List FileReport) : List String :=
  reports.flatMap reporter.fileLines ++ reporter.summaryLines (.ofReports dryRun reports)

/-- A text filled up with blanks to a width. -/
def padded (width : Nat) (text : String) : String :=
  text ++ String.ofList (List.replicate (width - text.length) ' ')

/-- The migrations in the order of their names. -/
def listed : List Migration := Migration.all.mergeSort fun a b => decide (a.name ≤ b.name)

/-- The line of a migration. -/
def migrationLine (reporter : Reporter) (migration : Migration) : String :=
  let width := (Migration.all.map (·.name.length)).foldl max 0
  match reporter.format with
  | .human =>
    reporter.paint .bold (padded width migration.name) ++ "  " ++ migration.description
      ++ (if migration.requiresSchema then reporter.paint .dimmed " (needs schema)" else "")
  | .json => Json.written (migrationData migration)

/-- The lines about all migrations. -/
def listLines (reporter : Reporter) : List String := listed.map reporter.migrationLine

/-- The line about an error that stops a run before its first file. -/
def failureLine (reporter : Reporter) (message : String) : String :=
  match reporter.format with
  | .human => reporter.paint .boldRed "✗" ++ " " ++ reporter.paint .red message
  | .json => Json.written (.object [("error", .string message)])

end Reporter

end GraphMigrate.CommandLine
