/-
Whole runs.

A run that stops before its first file changes nothing.  Any other run deals
with each of its files on its own: the files that change are those that are
reported as changed, unless the run writes nothing, and the totals and the
exit status follow from the reports.

* `Summary.ofReports_eq`: totals count the reports of each status;
* `Plan.reports`: the reports of the files of a plan;
* `CarriesOut`: what is said of a run that deals with its files;
* `run_touches_files_reported_as_changed`: **a run touches exactly the files
  that it reports as changed, and each gets what the migration makes of its
  own old content**.
-/
import GraphMigrate.Proofs.CommandLine.Isolation
import GraphMigrate.Proofs.Text.Recorded

namespace GraphMigrate.CommandLine

/-! ### Totals -/

/-- How many reports have a status. -/
def countStatus (status : FileStatus) (reports : List FileReport) : ℕ :=
  reports.countP (·.status == status)

/-- Totals count the reports of each status. -/
lemma Summary.ofReports_eq (dryRun : Bool) (reports : List FileReport) :
    Summary.ofReports dryRun reports =
      ⟨countStatus .changed reports, countStatus .unchanged reports, countStatus .failed reports,
        dryRun⟩ := by
  have hfold (summary : Summary) :
      reports.foldl (fun summary report => summary.add report.status) summary =
        ⟨summary.changed + countStatus .changed reports,
          summary.unchanged + countStatus .unchanged reports,
          summary.failed + countStatus .failed reports, summary.dryRun⟩ := by
    induction reports generalizing summary with
    | nil => rfl
    | cons report reports ih =>
        rw [List.foldl_cons, ih]
        cases hstatus : report.status <;>
          simp [Summary.add, countStatus, hstatus] <;> omega
  rw [Summary.ofReports, hfold]
  simp

lemma countStatus_total (reports : List FileReport) :
    countStatus .changed reports + countStatus .unchanged reports + countStatus .failed reports =
      reports.length := by
  induction reports with
  | nil => rfl
  | cons report reports ih =>
      rw [List.length_cons, ← ih]
      cases hstatus : report.status <;> simp [countStatus, hstatus] <;> omega

/-- The status of a run says whether a report is counted as failed. -/
lemma ExitStatus.ofReports_eq (reports : List FileReport) :
    ExitStatus.ofReports reports =
      if 0 < countStatus .failed reports then .someFailed else .done := by
  simp only [ExitStatus.ofReports, countStatus, List.countP_pos_iff, List.any_eq_true]

/-- Whether a run with a status stopped before its first file, for reasons
of its settings, its schema or a path. -/
def ExitStatus.isFatal : ExitStatus → Bool
  | settingsFailed | schemaFailed | pathMissing => true
  | _ => false

lemma ExitStatus.isFatal_ofFailure (failure : Failure) : (ofFailure failure).isFatal = true := by
  cases failure <;> rfl

lemma ExitStatus.isFatal_ofReports (reports : List FileReport) :
    (ofReports reports).isFatal = false := by
  rw [ofReports]
  split <;> rfl

/-! ### Runs that deal with their files -/

/-- The reports of the files of a plan, each by the path and the content of
its file. -/
def Plan.reports (plan : Plan) (migration : Migration) (dryRun : Bool) (disk : Disk) :
    List FileReport :=
  plan.files.map fun path => reportOn migration plan.context dryRun path (disk.file? path)

/-- A run of a migration over the files of a plan, from one tree to another. -/
structure CarriesOut (migration : Migration) (plan : Plan) (dryRun : Bool) (before : Disk)
    (reporter : Reporter) (ending : Ending) : Prop where
  /-- Each report follows from the path and the content of its own file. -/
  output : ending.output = reporter.lines dryRun (plan.reports migration dryRun before)
  /-- Every file is counted once. -/
  total : let totals := Summary.ofReports dryRun (plan.reports migration dryRun before)
    totals.changed + totals.unchanged + totals.failed = plan.files.length
  status : ending.status =
    if 0 < (Summary.ofReports dryRun (plan.reports migration dryRun before)).failed then .someFailed
    else .done
  /-- What is written is what the migration makes of the old content. -/
  written : ∀ path ∈ plan.files, ∀ place content text, before.resolve? path = some place →
    before.view place = some (some content) →
    newText? migration plan.context path content = some text → dryRun = false →
    content.writable = true →
    ending.disk.view place = some (some { content with text := some text })
  /-- A place changes exactly if a file of the plan stands there that gets
  another text, and writing it is wanted and succeeds. -/
  written_iff : ∀ place, ending.disk.view place ≠ before.view place ↔
    ∃ path ∈ plan.files, before.resolve? path = some place ∧
      ∃ content, before.view place = some (some content) ∧
        (newText? migration plan.context path content).isSome ∧ dryRun = false ∧
        content.writable = true
  /-- A place changes exactly if the run writes and the file there is reported
  as changed. -/
  reported_iff : ∀ place, ending.disk.view place ≠ before.view place ↔
    dryRun = false ∧ ∃ path ∈ plan.files, before.resolve? path = some place ∧
      (reportOn migration plan.context dryRun path (before.file? path)).status = .changed
  /-- Files that failed and everything that is no file of the plan stay. -/
  kept : ∀ place, (∀ path ∈ plan.files, before.resolve? path = some place →
      (reportOn migration plan.context dryRun path (before.file? path)).status = .failed) →
    ending.disk.view place = before.view place

lemma carriesOut_carryOut (migration : Migration) {plan : Plan} (dryRun : Bool) {disk : Disk}
    (reporter : Reporter) (hdistinct : (plan.files.map disk.resolve?).Nodup) :
    CarriesOut migration plan dryRun disk reporter
      (carryOut reporter disk migration dryRun plan) := by
  obtain ⟨hreports, hrewrites⟩ := migrateFiles_spec migration plan.context dryRun hdistinct
  have hchanges (place : List String) :
      (migrateFiles migration plan.context dryRun disk plan.files).2.view place ≠ disk.view place ↔
        ∃ path ∈ plan.files, disk.resolve? path = some place ∧
          ∃ content, disk.view place = some (some content) ∧
            contentAfter migration plan.context dryRun path content ≠ content := by
    rw [hrewrites.view_ne_iff]
    constructor
    · rintro ⟨content, hview, hne⟩
      obtain ⟨path, hpath, hplace, hne⟩ := (contentAfterAll_ne_iff hdistinct).mp hne
      exact ⟨path, hpath, hplace, content, hview, hne⟩
    · rintro ⟨path, hpath, hplace, content, hview, hne⟩
      exact ⟨content, hview, (contentAfterAll_ne_iff hdistinct).mpr ⟨path, hpath, hplace, hne⟩⟩
  constructor
  case output =>
    rw [Plan.reports, ← hreports]
    rfl
  case total =>
    rw [Summary.ofReports_eq]
    exact (countStatus_total _).trans (List.length_map _)
  case status =>
    rw [Summary.ofReports_eq, ← ExitStatus.ofReports_eq, Plan.reports, ← hreports]
    rfl
  case written =>
    intro path hpath place content text hplace hview hnew hdry hwritable
    subst hdry
    have hafter := hrewrites.view place
    rwa [hview, Option.map_some, Option.map_some, contentAfterAll_of_mem hdistinct hpath hplace,
      contentAfter_of_newText? hnew hwritable] at hafter
  case written_iff =>
    intro place
    simp only [← contentAfter_ne_iff]
    exact hchanges place
  case reported_iff =>
    intro place
    refine (hchanges place).trans ⟨?_, ?_⟩
    · rintro ⟨path, hpath, hplace, content, hview, hne⟩
      obtain ⟨hdry, hstatus⟩ := contentAfter_ne_iff_status.mp hne
      rw [← Disk.file?_eq_some_iff.mpr ⟨place, hplace, hview⟩] at hstatus
      exact ⟨hdry, path, hpath, hplace, hstatus⟩
    · rintro ⟨hdry, path, hpath, hplace, hstatus⟩
      obtain ⟨content, hfile⟩ := exists_file_of_status_eq_changed hstatus
      rw [hfile] at hstatus
      obtain ⟨other, hother, hview⟩ := Disk.file?_eq_some_iff.mp hfile
      obtain rfl := Option.some.inj (hother.symm.trans hplace)
      exact ⟨path, hpath, hplace, content, hview, contentAfter_ne_iff_status.mpr ⟨hdry, hstatus⟩⟩
  case kept =>
    intro place hfailed
    by_contra hne
    obtain ⟨path, hpath, hplace, content, hview, hne⟩ := (hchanges place).mp hne
    have hstatus := (contentAfter_ne_iff_status.mp hne).2
    rw [← Disk.file?_eq_some_iff.mpr ⟨place, hplace, hview⟩, hfailed path hpath hplace] at hstatus
    cases hstatus

/-! ### Whole runs -/

/-- **A run touches exactly the files that it reports as changed.**  A run that
ends because of its settings, its schema or a missing path leaves the tree as
it is.  Any other run deals with every file that it collected on its own, if
no two of them are the same file: the files that change are those for which
the migration succeeds with another text, unless nothing is to be written; they
get the text that the migration makes of their own old content; files that
failed and files that were not collected stay; reports follow from the path
and content of their own file; and totals and exit status follow from the
reports. -/
theorem run_touches_files_reported_as_changed {surroundings : Surroundings} {disk : Disk}
    {arguments : List String} {migration : Migration} {given : Given}
    (harguments : Invocation.parse arguments = .run ⟨.migrate migration, given⟩)
    (hdistinct : ∀ plan, prepare surroundings disk migration given = .ok plan →
      (plan.files.map disk.resolve?).Nodup) :
    let ending := run surroundings disk arguments
    (ending.status.isFatal = true → ending.disk = disk) ∧
    (ending.status.isFatal = false →
      ∃ plan, prepare surroundings disk migration given = .ok plan ∧
        CarriesOut migration plan given.dryRun disk (surroundings.reporter given) ending) := by
  have hrun : run surroundings disk arguments = runMigration surroundings disk migration given := by
    rw [run, harguments]
    rfl
  rw [hrun, runMigration]
  cases hprepare : prepare surroundings disk migration given with
  | error failure =>
      refine ⟨fun _ => rfl, fun hstatus => ?_⟩
      rw [ExitStatus.isFatal_ofFailure] at hstatus
      cases hstatus
  | ok plan =>
      have hcarries := carriesOut_carryOut migration given.dryRun (surroundings.reporter given)
        (hdistinct plan hprepare)
      refine ⟨fun hstatus => ?_, fun _ => ⟨plan, rfl, hcarries⟩⟩
      have hcalm := ExitStatus.isFatal_ofReports
        (migrateFiles migration plan.context given.dryRun disk plan.files).1
      exact absurd (hstatus.symm.trans hcalm) (by decide)

/-- A tree with a file that changes, one that cannot be written, one that is
no script, one whose bytes are no text and one that stays. -/
def studioDisk : Disk where
  root := .directory
    [("page.ts", .file { text := some "graphql`\x7b a_b \x7d`" }),
      ("locked.ts", .file { text := some "graphql`\x7b c_d \x7d`", writable := false }),
      ("broken.ts", .file { text := some "const = 1" }),
      ("raw.ts", .file { text := none }),
      ("plain.ts", .file { text := some "run()" })]

/-- A run over these files. -/
def studioArguments : List String :=
  ["rename-client-fields", "page.ts", "locked.ts", "broken.ts", "raw.ts", "plain.ts"]

/-- The text that the first file gets. -/
def studioText : String := "graphql`\x7b\n  a_b: aB\n\x7d\n`"

/-- What the migration makes of the text of the first file. -/
lemma newText?_studio {context : Context} (htags : context.tags = ["graphql"]) :
    newText? .clientNames context "page.ts" { text := some "graphql`\x7b a_b \x7d`" } =
      some studioText := by
  let file : SourceFile := ⟨"graphql`\x7b a_b \x7d`", .typeScript⟩
  have hcheck : (file.parse >>= fun source =>
      migrateTemplates clientRenamer (advisoryEdits file.chars)
        (Script.templates ["graphql"] source)).toOption.any (fun draft =>
      let accepted := acceptedEdits file.chars draft.edits
      decide (accepted.Pairwise fun a b => a.precedes b = true) &&
        String.ofList (splice 0 file.chars accepted) == studioText) = true := by
    decide +kernel
  obtain ⟨draft, hok, hholds⟩ := Option.any_eq_true _ _ |>.mp hcheck
  rw [Bool.and_eq_true, decide_eq_true_eq, beq_iff_eq] at hholds
  obtain ⟨source, hsource, hdraft⟩ := exists_ok_of_bind (eq_ok_of_toOption hok)
  have htext : (draft.finish file.text).text = studioText :=
    (applyEdits_text_of_pairwise hholds.1).trans hholds.2
  have hrun : Migration.run .clientNames context file = .ok (draft.finish file.text) := by
    simp only [Migration.run, renameClientFields, htags, hsource, hdraft, bind, Except.bind, pure,
      Except.pure]
  have hlanguage : Language.ofPath? "page.ts" = some .typeScript := by decide +kernel
  refine newText?_eq_some_iff.mpr ⟨_, draft.finish file.text, rfl, ?_, ?_, htext⟩
  · rw [migratedText, hlanguage]
    simp only [file] at hrun
    simp only [hrun, file]
  · rw [changed_of_finish, htext]
    decide +kernel

theorem run_touches_files_of_studio :
    let given : Given := { paths := studioArguments.tail }
    let ending := run {} studioDisk studioArguments
    Invocation.parse studioArguments = .run ⟨.migrate .clientNames, given⟩ ∧
    (∀ plan, prepare {} studioDisk .clientNames given = .ok plan →
      (plan.files.map studioDisk.resolve?).Nodup) ∧
    ∃ plan, prepare {} studioDisk .clientNames given = .ok plan ∧
      plan.files = studioArguments.tail ∧
      CarriesOut .clientNames plan false studioDisk {} ending ∧
      ending.disk.view ["page.ts"] = some (some { text := some studioText }) := by
  have harguments : Invocation.parse studioArguments =
      .run ⟨.migrate .clientNames, { paths := studioArguments.tail }⟩ := by decide +kernel
  have hcheck : (prepare {} studioDisk .clientNames { paths := studioArguments.tail }).toOption.any
      (fun plan => plan.files == studioArguments.tail && plan.context.tags == ["graphql"]) =
      true := by
    decide +kernel
  obtain ⟨plan, hok, hplan⟩ := Option.any_eq_true _ _ |>.mp hcheck
  rw [Bool.and_eq_true, beq_iff_eq, beq_iff_eq] at hplan
  have hprepare := eq_ok_of_toOption hok
  have hdistinct : ∀ plan, prepare {} studioDisk .clientNames { paths := studioArguments.tail } =
      .ok plan → (plan.files.map studioDisk.resolve?).Nodup := by
    intro other hother
    obtain rfl : plan = other := Except.ok.inj (hprepare.symm.trans hother)
    rw [hplan.1]
    decide +kernel
  have hcalm : (run {} studioDisk studioArguments).status.isFatal = false := by
    rw [run, harguments]
    simp only [perform, runMigration, hprepare]
    exact ExitStatus.isFatal_ofReports _
  obtain ⟨other, hother, hcarries⟩ :=
    (run_touches_files_reported_as_changed harguments hdistinct).2 hcalm
  obtain rfl : plan = other := Except.ok.inj (hprepare.symm.trans hother)
  refine ⟨harguments, hdistinct, plan, hprepare, hplan.1, hcarries, ?_⟩
  exact hcarries.written "page.ts" (by rw [hplan.1]; decide) ["page.ts"] _ _ (by decide +kernel)
    rfl (newText?_studio hplan.2) rfl rfl

end GraphMigrate.CommandLine
