/-
Dry runs.

Asking for a dry run changes nothing else about what is asked for, and such a run
deals with the same files by the same contents.  Since files of a run have nothing
to do with each other, it does not matter to a file whether those before it have
been written; so a dry run says what the run itself would do, as long as every
file can be written that would be.

* `Given.dry`: the same options, with a wish for a dry run;
* `parse_insert_dryRun`: the wish may be added behind the command;
* `migrateFiles_dry`, `reports_dry`: a dry run leaves the tree as it is, and reports
  the same of each file;
* `ReportAlike`: what is written out by two runs that report the same;
* `dry_run_foretells_run`: **a dry run reports what the run itself does, and
  writes nothing**.
-/
import GraphMigrate.Proofs.CommandLine.Collected
import GraphMigrate.Proofs.CommandLine.Runs

namespace GraphMigrate.CommandLine

/-! ### Asking for a dry run -/

/-- The same options and paths, with a wish for a dry run. -/
def Given.dry (given : Given) : Given := { given with dryRun := true }

section Options

variable {level : Level} {given given' : Given} {later later' : List String}

/-- An option is added as before when a dry run was asked for, unless it asks for
one itself. -/
lemma Given.add_dry {flag : Flag} {value : String} (h : given.add flag value = .ok given')
    (hreal : given'.dryRun = false) :
    given.dryRun = false ∧ given.dry.add flag value = .ok given'.dry := by
  unfold add at h ⊢
  cases flag with
  | config =>
      obtain ⟨path, hpath, h⟩ := exists_ok_of_bind h
      obtain ⟨config, hconfig, h⟩ := exists_ok_of_bind h
      cases h
      exact ⟨hreal, by simp only [hpath, dry, hconfig, bind, Except.bind]; rfl⟩
  | format =>
      dsimp only at h ⊢
      split at h
      next format hformat =>
        obtain ⟨format, honce, h⟩ := exists_ok_of_bind h
        cases h
        exact ⟨hreal, by simp only [dry, honce, bind, Except.bind]; rfl⟩
      next => cases h
  | quiet =>
      obtain ⟨quiet, hquiet, h⟩ := exists_ok_of_bind h
      cases h
      exact ⟨hreal, by simp only [dry, hquiet, bind, Except.bind]; rfl⟩
  | color =>
      obtain ⟨color, hcolor, h⟩ := exists_ok_of_bind h
      cases h
      exact ⟨hreal, by simp only [dry, hcolor, bind, Except.bind]; rfl⟩
  | noColor =>
      obtain ⟨noColor, hnoColor, h⟩ := exists_ok_of_bind h
      cases h
      exact ⟨hreal, by simp only [dry, hnoColor, bind, Except.bind]; rfl⟩
  | help => cases h
  | version => cases h
  | dryRun =>
      obtain ⟨dryRun, hdryRun, h⟩ := exists_ok_of_bind h
      cases h
      rw [switch] at hdryRun
      split at hdryRun
      · cases hdryRun
      · cases hdryRun
        cases hreal
  | ignorePattern =>
      cases h
      exact ⟨hreal, rfl⟩
  | schema =>
      obtain ⟨path, hpath, h⟩ := exists_ok_of_bind h
      obtain ⟨schema, hschema, h⟩ := exists_ok_of_bind h
      cases h
      exact ⟨hreal, by simp only [hpath, dry, hschema, bind, Except.bind]; rfl⟩

lemma Given.addPath_dry {value : String} (h : given.addPath value = .ok given') :
    given'.dryRun = given.dryRun ∧ given.dry.addPath value = .ok given'.dry := by
  obtain ⟨path, hpath, h⟩ := exists_ok_of_bind h
  cases h
  exact ⟨rfl, by simp only [addPath, hpath, dry, bind, Except.bind]; rfl⟩

lemma Given.foldlM_addPath_dry {paths : List String} (h : paths.foldlM addPath given = .ok given') :
    given'.dryRun = given.dryRun ∧ paths.foldlM addPath given.dry = .ok given'.dry := by
  induction paths generalizing given with
  | nil =>
      cases h
      exact ⟨rfl, rfl⟩
  | cons path paths ih =>
      rw [List.foldlM_cons] at h
      obtain ⟨given₁, hpath, h⟩ := exists_ok_of_bind h
      obtain ⟨heq, hdry⟩ := addPath_dry hpath
      obtain ⟨heq', hdry'⟩ := ih h
      rw [List.foldlM_cons, hdry]
      exact ⟨heq'.trans heq, hdry'⟩

lemma nextValue_eq {value : String} (h : nextValue later = .ok (value, later')) :
    later = value :: later' ∧ ∀ rest, nextValue (value :: rest) = .ok (value, rest) := by
  cases later with
  | nil => cases h
  | cons first later =>
      rw [nextValue] at h
      split_ifs at h with hoption
      cases h
      exact ⟨rfl, fun rest => if_neg hoption⟩

/-- A way of reading options reads as before when a dry run was asked for, and
leaves what comes behind the options. -/
structure ReadsOptions (read : Given → List String → Except Stop (Given × List String)) :
    Prop where
  dry : ∀ given later given' later', read given later = .ok (given', later') →
    given'.dryRun = false →
      given.dryRun = false ∧ read given.dry later = .ok (given'.dry, later')
  ahead : ∀ given later given' later', read given later = .ok (given', later') →
    ∃ ahead, later = ahead ++ later' ∧ ∀ rest, read given (ahead ++ rest) = .ok (given', rest)

namespace ReadsOptions

protected lemma stop (stop : Stop) : ReadsOptions fun _ _ => .error stop where
  dry _ _ _ _ h := by cases h
  ahead _ _ _ _ h := by cases h

protected lemma done : ReadsOptions fun given later => .ok (given, later) where
  dry _ _ _ _ h hreal := by
    cases h
    exact ⟨hreal, rfl⟩
  ahead _ _ _ _ h := by
    cases h
    exact ⟨[], rfl, fun _ => rfl⟩

protected lemma bind {α : Type} {result : Except Stop α}
    {read : α → Given → List String → Except Stop (Given × List String)}
    (h : ∀ a, ReadsOptions (read a)) :
    ReadsOptions fun given later => result >>= fun a => read a given later := by
  cases result with
  | error stop => exact .stop stop
  | ok a => exact h a

/-- An option before others. -/
protected lemma add (flag : Flag) (value : String)
    {read : Given → List String → Except Stop (Given × List String)} (h : ReadsOptions read) :
    ReadsOptions fun given later => given.add flag value >>= fun given => read given later where
  dry given later given' later' hrun hreal := by
    obtain ⟨added, hadd, hrun⟩ := exists_ok_of_bind hrun
    obtain ⟨hold, hread⟩ := h.dry _ _ _ _ hrun hreal
    obtain ⟨hold, hdry⟩ := Given.add_dry hadd hold
    exact ⟨hold, by rw [hdry]; exact hread⟩
  ahead given later given' later' hrun := by
    obtain ⟨added, hadd, hrun⟩ := exists_ok_of_bind hrun
    obtain ⟨ahead, hlater, hread⟩ := h.ahead _ _ _ _ hrun
    exact ⟨ahead, hlater, fun rest => by rw [hadd]; exact hread rest⟩

/-- An option with the next argument as its value. -/
protected lemma addNext (flag : Flag) :
    ReadsOptions fun given later => nextValue later >>= fun next =>
      given.add flag next.1 >>= fun given => .ok (given, next.2) where
  dry given later given' later' hrun hreal := by
    obtain ⟨⟨value, rest⟩, hnext, hrun⟩ := exists_ok_of_bind hrun
    obtain ⟨hold, hread⟩ := (ReadsOptions.done.add flag value).dry _ _ _ _ hrun hreal
    exact ⟨hold, by rw [hnext]; exact hread⟩
  ahead given later given' later' hrun := by
    obtain ⟨⟨value, rest⟩, hnext, hrun⟩ := exists_ok_of_bind hrun
    obtain ⟨added, hadd, hrun⟩ := exists_ok_of_bind hrun
    cases hrun
    obtain ⟨rfl, hvalue⟩ := nextValue_eq hnext
    refine ⟨[value], rfl, fun rest => ?_⟩
    rw [List.singleton_append, hvalue rest]
    change (given.add flag value >>= _) = _
    rw [hadd]
    rfl

end ReadsOptions

lemma readsOptions_longOption (level : Level) (text : List Char) :
    ReadsOptions fun given later => longOption level given text later := by
  refine .bind fun flag => ?_
  generalize text.drop (text.takeWhile (· != '=')).length = value
  cases value <;> cases flag.takesValue
  · exact .add flag "" .done
  · exact .addNext flag
  · exact .stop .misuse
  · exact .add flag _ .done

lemma readsOptions_shortOptions (level : Level) (letters : List Char) :
    ReadsOptions fun given later => shortOptions level given letters later := by
  induction letters with
  | nil => exact .done
  | cons c cs ih =>
      unfold shortOptions
      refine .bind fun flag => ?_
      cases flag.takesValue with
      | false => exact .add flag "" ih
      | true =>
          cases cs with
          | nil => exact .addNext flag
          | cons c cs =>
              by_cases hc : c = '='
              · subst hc
                exact .add flag _ .done
              · -- the rest of the letters is the value
                refine (congrArg ReadsOptions (funext₂ fun given later => ?_)).mpr
                  (.add flag (String.ofList (c :: cs)) .done)
                rw [if_pos rfl]
                split
                next h => cases h
                next h => exact absurd (List.cons.inj h).1 hc
                next => rfl

lemma readsOptions_option (level : Level) (argument : String) :
    ReadsOptions fun given later => option level given argument later := by
  unfold option
  split
  · exact readsOptions_longOption level _
  · exact readsOptions_shortOptions level _
  · exact .stop .misuse

/-- Arguments behind a command are read as before when a dry run was asked for. -/
lemma commandArguments_dry {bound : ℕ} (h : commandArguments level given bound later = .ok given')
    (hreal : given'.dryRun = false) :
    given.dryRun = false ∧ commandArguments level given.dry bound later = .ok given'.dry := by
  induction bound generalizing given later with
  | zero => cases h
  | succ bound ih =>
      cases later with
      | nil =>
          rw [commandArguments] at h ⊢
          have hsame : given.dry.isContradictory = given.isContradictory := rfl
          rw [hsame]
          split_ifs at h ⊢
          cases h
          exact ⟨hreal, rfl⟩
      | cons argument later =>
          rw [commandArguments] at h ⊢
          dsimp only at h ⊢
          split_ifs at h ⊢
          · obtain ⟨final, hpaths, h⟩ := exists_ok_of_bind h
            obtain ⟨heq, hdry⟩ := Given.foldlM_addPath_dry hpaths
            split_ifs at h with hfinal
            cases h
            refine ⟨heq ▸ hreal, ?_⟩
            rw [hdry]
            exact if_neg hfinal
          · obtain ⟨⟨next, rest⟩, hoption, h⟩ := exists_ok_of_bind h
            obtain ⟨hold, hnext⟩ := ih h
            obtain ⟨hold, hdry⟩ := (readsOptions_option level argument).dry _ _ _ _ hoption hold
            refine ⟨hold, ?_⟩
            rw [hdry]
            exact hnext
          · obtain ⟨next, hpath, h⟩ := exists_ok_of_bind h
            obtain ⟨hold, hnext⟩ := ih h
            obtain ⟨heq, hdry⟩ := Given.addPath_dry hpath
            refine ⟨heq ▸ hold, ?_⟩
            rw [hdry]
            exact hnext

lemma option_dryRun (migration : Migration) :
    option (.migrate migration) {} "--dry-run" later = .ok (Given.dry {}, later) := by
  have htext : "--dry-run".toList = '-' :: '-' :: "dry-run".toList := by decide +kernel
  have hname : "dry-run".toList.takeWhile (· != '=') = "dry-run".toList := by decide +kernel
  have hflag : Flag.ofLong? "dry-run" = some .dryRun := by decide +kernel
  rw [option, htext]
  change longOption (.migrate migration) {} "dry-run".toList later = _
  rw [longOption, hname, String.ofList_toList, hflag, List.drop_length]
  rfl

/-- A wish for a dry run may stand behind the command. -/
lemma topArguments_insert {bound : ℕ} {arguments : List String} {migration : Migration}
    (h : topArguments given bound arguments = .ok (.migrate migration, given'))
    (hreal : given'.dryRun = false) :
    ∃ outer command inner, arguments = outer ++ command :: inner ∧
      topArguments given (bound + 1) (outer ++ command :: "--dry-run" :: inner) =
        .ok (.migrate migration, given'.dry) := by
  induction bound generalizing given arguments with
  | zero => cases h
  | succ bound ih =>
      cases arguments with
      | nil => cases h
      | cons argument later =>
          rw [topArguments] at h
          split_ifs at h with hdashes hoption hhelp hcontradiction
          · obtain ⟨⟨next, rest⟩, hread, h⟩ := exists_ok_of_bind h
            obtain ⟨outer, command, inner, rfl, hinsert⟩ := ih h
            obtain ⟨ahead, rfl, hahead⟩ := (readsOptions_option .top argument).ahead _ _ _ _ hread
            refine ⟨argument :: (ahead ++ outer), command, inner, by simp, ?_⟩
            rw [List.cons_append, topArguments, if_neg hdashes, if_pos hoption, List.append_assoc,
              hahead]
            exact hinsert
          · exfalso
            split at h
            next => cases h
            next =>
              obtain ⟨own, -, h⟩ := exists_ok_of_bind h
              cases h
          · split at h
            next => cases h
            next level hlevel =>
              obtain ⟨own, hown, h⟩ := exists_ok_of_bind h
              cases h
              have hinner := (commandArguments_dry hown hreal).2
              refine ⟨[], argument, later, rfl, ?_⟩
              rw [List.nil_append, topArguments, if_neg hdashes, if_neg hoption, if_neg hhelp,
                hlevel]
              dsimp only
              rw [commandArguments, if_neg (by decide), if_pos (by decide), option_dryRun]
              change (commandArguments (.migrate migration) (Given.dry {}) (later.length + 1) later
                >>= _) = _
              rw [hinner]
              exact if_neg hcontradiction

/-- **A wish for a dry run changes nothing else about what is asked for.**  It may
stand right behind the command. -/
theorem parse_insert_dryRun {arguments : List String} {migration : Migration}
    (h : Invocation.parse arguments = .run ⟨.migrate migration, given⟩)
    (hreal : given.dryRun = false) :
    ∃ outer command inner, arguments = outer ++ command :: inner ∧
      Invocation.parse (outer ++ command :: "--dry-run" :: inner) =
        .run ⟨.migrate migration, given.dry⟩ := by
  rw [Invocation.parse] at h
  split at h
  next => cases h
  next htop =>
    cases h
    obtain ⟨outer, command, inner, rfl, hinsert⟩ := topArguments_insert htop hreal
    refine ⟨outer, command, inner, rfl, ?_⟩
    have hlength : (outer ++ command :: "--dry-run" :: inner).length =
        (outer ++ command :: inner).length + 1 := by
      simp only [List.length_append, List.length_cons]
      omega
    rw [Invocation.parse, hlength, hinsert]
  next => cases h
  next => cases h
  next => cases h
  next => cases h

end Options

/-! ### What happens to files -/

section Files

variable {migration : Migration} {context : Context}

lemma migrateFile_dry (migration : Migration) (context : Context) (disk : Disk) (path : String) :
    (migrateFile migration context true disk path).2 = disk := by
  rw [migrateFile_eq]
  cases disk.read? path with
  | none => rfl
  | some text =>
      dsimp only
      cases migratedText migration context path text with
      | error e => rfl
      | ok outcome => simp only [Bool.not_true, Bool.and_false, Bool.false_eq_true, if_false]

/-- A dry run leaves the tree as it is, file by file. -/
lemma migrateFiles_dry (migration : Migration) (context : Context) (disk : Disk)
    (files : List String) : (migrateFiles migration context true disk files).2 = disk := by
  induction files with
  | nil => rfl
  | cons path files ih =>
      change (migrateFiles migration context true
        (migrateFile migration context true disk path).2 files).2 = disk
      rw [migrateFile_dry]
      exact ih

/-- Where a file can be written if it has to be, its report does not depend on
whether it is. -/
lemma reportOn_dry {path : String} {content : Option FileEntry}
    (hwritable : ∀ file, content = some file →
      (newText? migration context path file).isSome → file.writable = true) :
    reportOn migration context true path content =
      reportOn migration context false path content := by
  cases content with
  | none => rfl
  | some file =>
      rw [reportOn, reportOn, Option.bind_some]
      cases htext : file.text with
      | none => rfl
      | some text =>
          dsimp only
          cases hmigrated : migratedText migration context path text with
          | error e => rfl
          | ok outcome =>
              cases hchanged : outcome.changed with
              | false => simp only [hchanged, Bool.false_and]
              | true =>
                  have hnew : newText? migration context path file = some outcome.text :=
                    newText?_eq_some_iff.mpr ⟨text, outcome, htext, hmigrated, hchanged, rfl⟩
                  have hfile := hwritable file rfl (by rw [hnew]; rfl)
                  simp only [Option.any_some, hfile, Bool.not_true, Bool.and_false]

end Files

/-! ### Whole runs -/

/-- A run and a dry run that report the same of each file, in the same order, and
count the same.  Their summaries say which of them wrote. -/
structure ReportAlike (reporter : Reporter) (reports : List FileReport) (real trial : Ending) :
    Prop where
  real_output : real.output = reports.flatMap reporter.fileLines ++ reporter.summaryLines
    ⟨countStatus .changed reports, countStatus .unchanged reports, countStatus .failed reports,
      false⟩
  trial_output : trial.output = reports.flatMap reporter.fileLines ++ reporter.summaryLines
    ⟨countStatus .changed reports, countStatus .unchanged reports, countStatus .failed reports,
      true⟩

section Runs

variable {surroundings : Surroundings} {disk : Disk} {migration : Migration} {given : Given}
  {plan : Plan}

/-- What is written out about the files of a plan. -/
lemma output_carryOut (reporter : Reporter) (disk : Disk) (migration : Migration) (dryRun : Bool)
    (plan : Plan) :
    let reports := (migrateFiles migration plan.context dryRun disk plan.files).1
    (carryOut reporter disk migration dryRun plan).output =
      reports.flatMap reporter.fileLines ++ reporter.summaryLines
        ⟨countStatus .changed reports, countStatus .unchanged reports,
          countStatus .failed reports, dryRun⟩ := by
  intro reports
  rw [← Summary.ofReports_eq]
  rfl

/-- Where no file comes twice and all that change can be written, the reports of the
files do not depend on whether they are written. -/
lemma reports_dry (hdistinct : (plan.files.map disk.resolve?).Nodup)
    (hwritable : ∀ path ∈ plan.files, ∀ file, disk.file? path = some file →
      (newText? migration plan.context path file).isSome → file.writable = true) :
    (migrateFiles migration plan.context true disk plan.files).1 =
      (migrateFiles migration plan.context false disk plan.files).1 := by
  rw [(migrateFiles_spec migration plan.context true hdistinct).1,
    (migrateFiles_spec migration plan.context false hdistinct).1]
  exact List.map_congr_left fun path hpath => reportOn_dry (hwritable path hpath)

lemma run_of_parse {arguments : List String}
    (h : Invocation.parse arguments = .run ⟨.migrate migration, given⟩) :
    run surroundings disk arguments = runMigration surroundings disk migration given := by
  rw [run, h]
  rfl

lemma runMigration_of_error {failure : Failure}
    (h : prepare surroundings disk migration given = .error failure) :
    runMigration surroundings disk migration given =
      { status := .ofFailure failure
        errors := [(surroundings.reporter given).failureLine failure.message], disk } := by
  rw [runMigration, h]

lemma runMigration_of_ok (h : prepare surroundings disk migration given = .ok plan) :
    runMigration surroundings disk migration given =
      carryOut (surroundings.reporter given) disk migration given.dryRun plan := by
  rw [runMigration, h]

end Runs

/-- **A dry run reports what the run itself does, and writes nothing.**  Whoever asks
for a run may ask for a dry run with the same settings, by one more argument.  No two
of the files are the same one, and every file can be written that gets another text.

Both end with the same status, for the same reason if they stop before their first
file.  Otherwise they report the same of each file, in the same order, and count the
same.  The dry run leaves the tree as it is. -/
theorem dry_run_foretells_run {surroundings : Surroundings} {disk : Disk}
    {arguments : List String} {migration : Migration} {given : Given}
    (harguments : Invocation.parse arguments = .run ⟨.migrate migration, given⟩)
    (hreal : given.dryRun = false)
    (hdistinct : ∀ plan, prepare surroundings disk migration given = .ok plan →
      (plan.files.map disk.resolve?).Nodup)
    (hwritable : ∀ plan, prepare surroundings disk migration given = .ok plan →
      ∀ path ∈ plan.files, ∀ file, disk.file? path = some file →
        (newText? migration plan.context path file).isSome → file.writable = true) :
    (∃ outer command inner, arguments = outer ++ command :: inner ∧
      Invocation.parse (outer ++ command :: "--dry-run" :: inner) =
        .run ⟨.migrate migration, given.dry⟩) ∧
    ∀ dryArguments, Invocation.parse dryArguments = .run ⟨.migrate migration, given.dry⟩ →
      let real := run surroundings disk arguments
      let trial := run surroundings disk dryArguments
      trial.disk = disk ∧ trial.written = [] ∧ trial.status = real.status ∧
        trial.errors = real.errors ∧
        (∀ failure, prepare surroundings disk migration given = .error failure →
          trial.output = real.output) ∧
        ∀ plan, prepare surroundings disk migration given = .ok plan → ∃ reports,
          (migrateFiles migration plan.context false disk plan.files).1 = reports ∧
          (migrateFiles migration plan.context true disk plan.files).1 = reports ∧
          ReportAlike (surroundings.reporter given) reports real trial := by
  refine ⟨parse_insert_dryRun harguments hreal, fun dryArguments hdryArguments => ?_⟩
  rw [run_of_parse harguments, run_of_parse hdryArguments]
  -- what a run finds out before its first file does not depend on the wish
  have hsame : prepare surroundings disk migration given.dry =
      prepare surroundings disk migration given := rfl
  cases hprepare : prepare surroundings disk migration given with
  | error failure =>
      rw [runMigration_of_error hprepare, runMigration_of_error (hsame.trans hprepare)]
      exact ⟨rfl, rfl, rfl, rfl, fun _ _ => rfl, fun _ h => by cases h⟩
  | ok plan =>
      have hreports := reports_dry (hdistinct plan hprepare) (hwritable plan hprepare)
      rw [runMigration_of_ok hprepare, runMigration_of_ok (hsame.trans hprepare), hreal]
      refine ⟨migrateFiles_dry migration plan.context disk plan.files, rfl, ?_, rfl,
        fun _ h => (by cases h), ?_⟩
      · exact congrArg ExitStatus.ofReports hreports
      · rintro _ ⟨⟩
        refine ⟨_, rfl, hreports, output_carryOut _ _ _ _ _, ?_⟩
        rw [← hreports]
        exact output_carryOut _ _ _ _ _

/-- Files of the studio that can be written: one that changes, one that is no script,
one whose bytes are no text and one that stays. -/
def openFiles : List String := ["page.ts", "broken.ts", "raw.ts", "plain.ts"]

theorem dry_run_foretells_run_of_studio :
    let arguments := "rename-client-fields" :: openFiles
    let real := run {} studioDisk arguments
    let trial := run {} studioDisk ("rename-client-fields" :: "--dry-run" :: openFiles)
    Invocation.parse arguments = .run ⟨.migrate .clientNames, { paths := openFiles }⟩ ∧
      trial.disk = studioDisk ∧ trial.status = real.status ∧
      real.disk.view ["page.ts"] = some (some { text := some studioText }) ∧
      ∃ reports : List FileReport, reports.map (·.file) = openFiles ∧
        ReportAlike {} reports real trial := by
  intro arguments real trial
  let given : Given := { paths := openFiles }
  have harguments : Invocation.parse arguments = .run ⟨.migrate .clientNames, given⟩ := by
    decide +kernel
  have hdryArguments : Invocation.parse ("rename-client-fields" :: "--dry-run" :: openFiles) =
      .run ⟨.migrate .clientNames, given.dry⟩ := by
    decide +kernel
  have hcheck : (prepare {} studioDisk .clientNames given).toOption.any
      (fun plan => plan.files == openFiles && plan.context.tags == ["graphql"]) = true := by
    decide +kernel
  obtain ⟨plan, hok, hplan⟩ := Option.any_eq_true _ _ |>.mp hcheck
  rw [Bool.and_eq_true, beq_iff_eq, beq_iff_eq] at hplan
  have hprepare := eq_ok_of_toOption hok
  have hunique {other : Plan} (hother : prepare {} studioDisk .clientNames given = .ok other) :
      other = plan := Except.ok.inj (hother.symm.trans hprepare)
  have hdistinct : (plan.files.map studioDisk.resolve?).Nodup := by
    rw [hplan.1]
    decide +kernel
  have hwritable : ∀ path ∈ openFiles, (studioDisk.file? path).all (·.writable) = true := by
    decide +kernel
  obtain ⟨-, hforetells⟩ := dry_run_foretells_run harguments rfl
    (fun other hother => hunique hother ▸ hdistinct) (by
      intro other hother path hpath file hfile _
      rw [hunique hother, hplan.1] at hpath
      have hall := hwritable path hpath
      rwa [hfile] at hall)
  obtain ⟨hdisk, -, hstatus, -, -, hreports⟩ := hforetells _ hdryArguments
  obtain ⟨reports, hwet, -, halike⟩ := hreports plan hprepare
  have hcarries := carriesOut_carryOut .clientNames false ({} : Reporter) hdistinct
  have hrun : real = carryOut {} studioDisk .clientNames false plan :=
    (run_of_parse harguments).trans (runMigration_of_ok hprepare)
  refine ⟨harguments, hdisk, hstatus, ?_, reports, ?_, halike⟩
  · rw [hrun]
    exact hcarries.written "page.ts" (by rw [hplan.1]; decide) ["page.ts"] _ _ (by decide +kernel)
      rfl (newText?_studio hplan.2) rfl rfl
  · rw [← hwet, migrateFiles_file, hplan.1]

end GraphMigrate.CommandLine
