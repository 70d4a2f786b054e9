/-
Quiet runs.

A quiet run does the same to the files and writes out less of it.  Of the
lines about files those about failures are left, in both formats.  The summary
is left out of lines for people where nothing failed; as an object it is
written in any case, so that such a run is never silent.

* `Reporter.hushed`, `Reporter.outspoken`: a reporter that is quiet, and one
  that is not;
* `Reporter.failureReport`: the lines of an outspoken reporter about files that
  failed, with the summary if there are any;
* `lines_hushed`: what a quiet reporter writes out;
* `runMigration_hushed`, `runMigration_outspoken`: a quiet run and one that is
  not carry out the same plan;
* `quiet_output_is_filtered_iff`: **quiet output is the full output without the
  files that did not fail, and without the summary if none did, exactly if it
  is for people or a file failed**.
-/
import GraphMigrate.Proofs.CommandLine.Runs

namespace GraphMigrate.CommandLine

/-- The same options in a quiet run. -/
def Given.hushed (given : Given) : Given := { given with quiet := true }

/-- The same options in a run that is not quiet. -/
def Given.outspoken (given : Given) : Given := { given with quiet := false }

/-! ### Lines of quiet reporters -/

namespace Reporter

/-- The same reporter in a quiet run. -/
def hushed (reporter : Reporter) : Reporter := { reporter with quiet := true }

/-- The same reporter in a run that is not quiet. -/
def outspoken (reporter : Reporter) : Reporter := { reporter with quiet := false }

/-- What is left of the full output of a run when everything about files that
did not fail is left out, and the summary too if no file failed. -/
def failureReport (reporter : Reporter) (dryRun : Bool) (reports : List FileReport) :
    List String :=
  (reports.filter (·.status == .failed)).flatMap reporter.outspoken.fileLines ++
    if reports.any (·.status == .failed) then
      reporter.outspoken.summaryLines (.ofReports dryRun reports)
    else []

variable (reporter : Reporter)

lemma fileLines_hushed (report : FileReport) :
    reporter.hushed.fileLines report =
      if report.status == .failed then reporter.outspoken.fileLines report else [] := by
  rw [fileLines, fileLines, bne]
  cases report.status == .failed <;> rfl

/-- Both formats say the same about files. -/
lemma flatMap_fileLines_hushed (reports : List FileReport) :
    reports.flatMap reporter.hushed.fileLines =
      (reports.filter (·.status == .failed)).flatMap reporter.outspoken.fileLines := by
  induction reports with
  | nil => rfl
  | cons report reports ih =>
      rw [List.flatMap_cons, fileLines_hushed, ih, List.filter_cons]
      split_ifs
      · rw [List.flatMap_cons]
      · rfl

/-- The formats differ in the summary of a run in which nothing failed. -/
lemma summaryLines_hushed (summary : Summary) :
    reporter.hushed.summaryLines summary =
      if reporter.format == .human && summary.failed == 0 then []
      else reporter.outspoken.summaryLines summary := by
  obtain ⟨format, quiet, colored⟩ := reporter
  cases format with
  | human =>
      cases hfailed : summary.failed == 0 <;>
        simp only [summaryLines, hushed, outspoken, hfailed] <;> rfl
  | json => rfl

lemma summaryLines_outspoken_ne_nil (summary : Summary) :
    reporter.outspoken.summaryLines summary ≠ [] := by
  rw [summaryLines]
  split <;> simp [outspoken]

lemma failed_ofReports_beq_zero (dryRun : Bool) (reports : List FileReport) :
    ((Summary.ofReports dryRun reports).failed == 0) = !reports.any (·.status == .failed) := by
  rw [Summary.ofReports_eq, Bool.eq_iff_iff]
  simp [countStatus]

/-- A quiet reporter writes out what the other one does about failures, and
ends with the summary as an object also where there are none. -/
lemma lines_hushed (dryRun : Bool) (reports : List FileReport) :
    reporter.hushed.lines dryRun reports =
      reporter.failureReport dryRun reports ++
        if reporter.format == .json && !reports.any (·.status == .failed) then
          reporter.outspoken.summaryLines (.ofReports dryRun reports)
        else [] := by
  rw [lines, failureReport, flatMap_fileLines_hushed, summaryLines_hushed,
    failed_ofReports_beq_zero, List.append_assoc]
  congr 1
  cases reporter.format <;> cases reports.any (·.status == .failed) <;> simp

lemma failureReport_of_none {reports : List FileReport}
    (h : reports.any (·.status == .failed) = false) (dryRun : Bool) :
    reporter.failureReport dryRun reports = [] := by
  have hnone : reports.filter (·.status == .failed) = [] := by
    rw [List.filter_eq_nil_iff]
    exact List.any_eq_false.mp h
  rw [failureReport, hnone, h]
  rfl

lemma failureReport_ne_nil {reports : List FileReport}
    (h : reports.any (·.status == .failed) = true) (dryRun : Bool) :
    reporter.failureReport dryRun reports ≠ [] := by
  rw [failureReport, if_pos h, Ne, List.append_eq_nil_iff, not_and]
  exact fun _ => reporter.summaryLines_outspoken_ne_nil _

/-- Quiet lines are filtered as they should unless the summary of a run in
which nothing failed is an object. -/
lemma lines_hushed_eq_failureReport_iff {dryRun : Bool} {reports : List FileReport} :
    reporter.hushed.lines dryRun reports = reporter.failureReport dryRun reports ↔
      reporter.format = .human ∨ reports.any (·.status == .failed) = true := by
  rw [lines_hushed, List.append_right_eq_self, ite_eq_right_iff]
  cases reporter.format <;> cases reports.any (·.status == .failed) <;>
    simp [summaryLines_outspoken_ne_nil]

lemma lines_hushed_eq_nil_iff {dryRun : Bool} {reports : List FileReport} :
    reporter.hushed.lines dryRun reports = [] ↔
      reporter.format = .human ∧ reports.any (·.status == .failed) = false := by
  rw [lines_hushed, List.append_eq_nil_iff]
  cases hfailed : reports.any (·.status == .failed) with
  | true => simp [reporter.failureReport_ne_nil hfailed dryRun]
  | false =>
      rw [reporter.failureReport_of_none hfailed dryRun]
      cases reporter.format <;> simp [summaryLines_outspoken_ne_nil]

end Reporter

/-! ### Quiet runs -/

section Runs

variable {surroundings : Surroundings} {disk : Disk} {migration : Migration} {given : Given}
  {plan : Plan}

lemma runMigration_hushed (h : prepare surroundings disk migration given = .ok plan) :
    runMigration surroundings disk migration given.hushed =
      carryOut (surroundings.reporter given).hushed disk migration given.dryRun plan := by
  have hsame : prepare surroundings disk migration given.hushed = .ok plan := h
  rw [runMigration, hsame]
  rfl

lemma runMigration_outspoken (h : prepare surroundings disk migration given = .ok plan) :
    runMigration surroundings disk migration given.outspoken =
      carryOut (surroundings.reporter given).outspoken disk migration given.dryRun plan := by
  have hsame : prepare surroundings disk migration given.outspoken = .ok plan := h
  rw [runMigration, hsame]
  rfl

lemma ofReports_eq_done_iff {reports : List FileReport} :
    ExitStatus.ofReports reports = .done ↔ reports.any (·.status == .failed) = false := by
  rw [ExitStatus.ofReports]
  split_ifs with hfailed <;> simp [hfailed]

end Runs

/-- **Quiet output is the full output without the files that did not fail, and
without the summary if none did, exactly if it is for people or a file
failed.**  It is empty exactly if it is for people and no file failed.  These
are the outputs of runs with the same options, and such runs end in the same
way, with the same files written. -/
theorem quiet_output_is_filtered_iff (reporter : Reporter) (dryRun : Bool)
    (reports : List FileReport) :
    (reporter.hushed.lines dryRun reports = reporter.failureReport dryRun reports ↔
      reporter.format = .human ∨ ∃ report ∈ reports, report.status = .failed) ∧
    (reporter.hushed.lines dryRun reports = [] ↔
      reporter.format = .human ∧ ∀ report ∈ reports, report.status ≠ .failed) ∧
    ∀ surroundings disk migration given plan,
      prepare surroundings disk migration given = .ok plan →
      reporter = surroundings.reporter given → dryRun = given.dryRun →
      reports = (migrateFiles migration plan.context dryRun disk plan.files).1 →
        let quiet := runMigration surroundings disk migration given.hushed
        let full := runMigration surroundings disk migration given.outspoken
        full.output = reporter.outspoken.lines dryRun reports ∧
        quiet.output = reporter.hushed.lines dryRun reports ∧
        quiet.status = full.status ∧ quiet.disk = full.disk ∧ quiet.written = full.written ∧
        (quiet.output = [] ↔ reporter.format = .human ∧ quiet.status = .done) := by
  refine ⟨?_, ?_, ?_⟩
  · rw [reporter.lines_hushed_eq_failureReport_iff]
    simp
  · rw [reporter.lines_hushed_eq_nil_iff]
    simp
  · rintro surroundings disk migration given plan hprepare rfl rfl rfl
    dsimp only
    rw [runMigration_hushed hprepare, runMigration_outspoken hprepare]
    refine ⟨rfl, rfl, rfl, rfl, rfl, ?_⟩
    exact (Reporter.lines_hushed_eq_nil_iff _).trans (and_congr_right' ofReports_eq_done_iff.symm)

/-- A tree with a file whose bytes are no text. -/
def atticDisk : Disk where
  root := .directory [("raw.ts", .file { text := none })]

theorem quiet_output_of_attic :
    let given : Given := { format := some .json, paths := ["raw.ts"] }
    let quiet := runMigration {} atticDisk .clientNames given.hushed
    (prepare {} atticDisk .clientNames given).toOption.isSome ∧
    quiet.status = .someFailed ∧
    (runMigration {} atticDisk .clientNames given.outspoken).status = .someFailed ∧
    quiet.output ≠ [] ∧
    let reporter : Reporter := { format := .json }
    let reports := [⟨"a.ts", .changed, []⟩, ⟨"raw.ts", .failed, []⟩, ⟨"b.ts", .unchanged, []⟩]
    reporter.hushed.lines false reports = reporter.failureReport false reports := by
  have hsome : (prepare {} atticDisk .clientNames
      { format := some .json, paths := ["raw.ts"] }).toOption.isSome = true := by
    decide +kernel
  have hstatus : (runMigration {} atticDisk .clientNames
      (Given.hushed { format := some .json, paths := ["raw.ts"] })).status = .someFailed := by
    decide +kernel
  obtain ⟨plan, hplan⟩ := Option.isSome_iff_exists.mp hsome
  obtain ⟨-, -, hruns⟩ := quiet_output_is_filtered_iff _ _ _
  obtain ⟨-, -, hsame, -, -, hsilent⟩ := hruns _ _ _ _ _ (eq_ok_of_toOption hplan) rfl rfl rfl
  refine ⟨hsome, hstatus, hsame.symm.trans hstatus, fun hnil => ?_, ?_⟩
  · exact absurd (hsilent.mp hnil).1 (by decide)
  · exact (quiet_output_is_filtered_iff _ _ _).1.mpr (.inr ⟨⟨"raw.ts", .failed, []⟩, by simp, rfl⟩)

/-- A file that stays as it is, in a quiet run whose output consists of
objects: the summary is written out though nothing failed. -/
theorem quiet_run_sums_up_unchanged_file :
    let reporter : Reporter := { format := .json }
    let reports : List FileReport := [⟨"a.ts", .unchanged, []⟩]
    reporter.hushed.lines false reports =
      ["\x7b\"summary\":\x7b\"changed\":0,\"dry_run\":false,\"failed\":0,\"unchanged\":1\x7d\x7d"] ∧
    reporter.failureReport false reports = [] ∧
    reporter.hushed.lines false reports ≠ reporter.failureReport false reports := by
  decide +kernel

end GraphMigrate.CommandLine
