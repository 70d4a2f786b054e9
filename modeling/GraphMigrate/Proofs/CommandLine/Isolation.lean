/-
Files of a run have nothing to do with each other.

A run deals with its files one after another on a tree that it changes.
If no two of its paths lead to the same file, each file is dealt with as
if it were the only one: its report and its new content follow from its
own path and content, and no other file is touched.

* `migratedText`, `newText?`: what a migration makes of the text of a file;
* `reportOn`, `contentAfter`: the report of a file, and its content after
  the run;
* `migrateFile_of_file`: one file of a tree;
* `migrateFiles_spec`: one file after another.
-/
import GraphMigrate.CommandLine.Session
import GraphMigrate.Proofs.Control.Ensures
import GraphMigrate.Proofs.Disk.Writing

namespace GraphMigrate

/-! ### Outcomes that say whether they change anything -/

lemma changed_of_finish (text : String) (draft : Draft) :
    (draft.finish text).changed = ((draft.finish text).text != text) := rfl

/-- An outcome is called changed exactly if its text is another one. -/
lemma Migration.changed_eq {migration : Migration} {context : Context} {file : SourceFile}
    {outcome : Outcome} (h : migration.run context file = .ok outcome) :
    outcome.changed = (outcome.text != file.text) := by
  cases migration with
  | definitionNames =>
      obtain ⟨definitions, -, h⟩ := exists_ok_of_bind h
      obtain ⟨draft, -, h⟩ := exists_ok_of_bind h
      cases h
      exact changed_of_finish file.text draft
  | clientNames =>
      obtain ⟨source, -, h⟩ := exists_ok_of_bind h
      obtain ⟨draft, -, h⟩ := exists_ok_of_bind h
      cases h
      exact changed_of_finish file.text draft
  | deprecation =>
      obtain ⟨definitions, -, h⟩ := exists_ok_of_bind h
      obtain ⟨draft, -, h⟩ := exists_ok_of_bind h
      cases h
      exact changed_of_finish file.text draft
  | pagination =>
      obtain ⟨definitions, -, h⟩ := exists_ok_of_bind h
      cases h
      exact changed_of_finish file.text _
  | identity =>
      rw [run, migrateIds] at h
      split at h
      · cases h
      · split at h
        · obtain ⟨source, -, h⟩ := exists_ok_of_bind h
          obtain ⟨draft, -, h⟩ := exists_ok_of_bind h
          cases h
          exact changed_of_finish file.text draft
        · cases h
          exact (bne_self_eq_false file.text).symm
  | rawResponse =>
      obtain ⟨source, -, h⟩ := exists_ok_of_bind h
      obtain ⟨typings, -, h⟩ := exists_ok_of_bind h
      cases h
      exact changed_of_finish file.text _

namespace CommandLine

/-! ### One file on its own -/

section OneFile

variable (migration : Migration) (context : Context) (dryRun : Bool) (path : String)

/-- What a migration makes of the text of a file, or what went wrong and
where. -/
def migratedText (text : String) : Except (String × Option Nat) Outcome :=
  match Language.ofPath? path with
  | none => .error ("Unsupported file type", none)
  | some language =>
    match migration.run context ⟨text, language⟩ with
    | .error e => .error (e.message, e.offset?)
    | .ok outcome => .ok outcome

/-- The text that a migration gives a file, if it succeeds and changes the
text. -/
def newText? (content : FileEntry) : Option String :=
  match content.text.map (migratedText migration context path) with
  | some (.ok outcome) => if outcome.changed then some outcome.text else none
  | _ => none

/-- The report of a file, which is not there if it has no content.  A file
that would get a new text but cannot be written has failed. -/
def reportOn (content : Option FileEntry) : FileReport :=
  match content.bind (·.text) with
  | none => .failed path "" "Failed to read file: stream did not contain valid UTF-8" none
  | some text =>
    match migratedText migration context path text with
    | .error (message, offset) => .failed path text message offset
    | .ok outcome =>
      if outcome.changed && !dryRun && !content.any (·.writable) then
        .failed path text "Failed to write file: permission denied" none
      else .migrated path text outcome

/-- The content of a file after a run that deals with it. -/
def contentAfter (content : FileEntry) : FileEntry :=
  match newText? migration context path content with
  | some text =>
    if dryRun then content else if content.writable then { content with text := some text }
    else content
  | none => content

end OneFile

variable {migration : Migration} {context : Context} {dryRun : Bool} {path : String}
  {content : FileEntry}

lemma newText?_eq_some_iff {new : String} : newText? migration context path content = some new ↔
    ∃ text outcome, content.text = some text ∧
      migratedText migration context path text = .ok outcome ∧ outcome.changed = true ∧
      outcome.text = new := by
  rw [newText?]
  cases htext : content.text with
  | none => simp
  | some text =>
      rw [Option.map_some]
      cases hmigrated : migratedText migration context path text with
      | error e => simp [hmigrated]
      | ok outcome => simp [hmigrated]

/-- A new text is another text. -/
lemma text_ne_of_newText? {new : String}
    (h : newText? migration context path content = some new) : content.text ≠ some new := by
  obtain ⟨text, outcome, htext, hmigrated, hchanged, rfl⟩ := newText?_eq_some_iff.mp h
  rw [htext]
  rw [migratedText] at hmigrated
  split at hmigrated
  · cases hmigrated
  · split at hmigrated
    · cases hmigrated
    · rename_i hrun
      cases hmigrated
      rw [Migration.changed_eq hrun, bne_iff_ne] at hchanged
      exact fun h => hchanged (Option.some.inj h).symm

/-- The content of a file changes exactly if it gets a new text and can be
written, and the run writes at all. -/
lemma contentAfter_ne_iff : contentAfter migration context dryRun path content ≠ content ↔
    (newText? migration context path content).isSome ∧ dryRun = false ∧
      content.writable = true := by
  rw [contentAfter]
  cases hnew : newText? migration context path content with
  | none => simp
  | some new =>
      have hne : { content with text := some new } ≠ content := fun h =>
        text_ne_of_newText? hnew (congrArg FileEntry.text h).symm
      cases dryRun with
      | true => simp
      | false =>
          cases hwritable : content.writable with
          | true => simpa [hwritable] using hne
          | false => simp

lemma contentAfter_of_newText? {new : String}
    (hnew : newText? migration context path content = some new)
    (hwritable : content.writable = true) :
    contentAfter migration context false path content = { content with text := some new } := by
  rw [contentAfter, hnew]
  exact if_pos hwritable

/-- A file is reported as changed exactly if it gets a new text, and can be
written unless the run writes nothing. -/
lemma status_reportOn_eq_changed_iff :
    (reportOn migration context dryRun path (some content)).status = .changed ↔
      (newText? migration context path content).isSome ∧
        (dryRun = true ∨ content.writable = true) := by
  rw [reportOn, newText?, Option.bind_some]
  cases htext : content.text with
  | none => simp [FileReport.failed]
  | some text =>
      simp only [Option.map_some]
      cases hmigrated : migratedText migration context path text with
      | error e => simp [FileReport.failed]
      | ok outcome =>
          cases hchanged : outcome.changed <;> cases dryRun <;>
            cases hwritable : content.writable <;>
            simp [FileReport.failed, FileReport.migrated, hchanged, hwritable]

/-- Only a file that is there is reported as changed. -/
lemma exists_file_of_status_eq_changed {content : Option FileEntry}
    (h : (reportOn migration context dryRun path content).status = .changed) :
    ∃ file, content = some file := by
  cases content with
  | none => cases h
  | some file => exact ⟨file, rfl⟩

/-- In a run that writes, the content of a file changes exactly if the file
is reported as changed. -/
lemma contentAfter_ne_iff_status : contentAfter migration context dryRun path content ≠ content ↔
    dryRun = false ∧ (reportOn migration context dryRun path (some content)).status = .changed := by
  rw [contentAfter_ne_iff, status_reportOn_eq_changed_iff]
  cases dryRun <;> simp

/-! ### One file of a tree -/

lemma migrateFile_eq (migration : Migration) (context : Context) (dryRun : Bool) (disk : Disk)
    (path : String) : migrateFile migration context dryRun disk path =
      match disk.read? path with
      | none =>
        (.failed path "" "Failed to read file: stream did not contain valid UTF-8" none, disk)
      | some text =>
        match migratedText migration context path text with
        | .error (message, offset) => (.failed path text message offset, disk)
        | .ok outcome =>
          if outcome.changed && !dryRun then
            match disk.write? path outcome.text with
            | some after => (.migrated path text outcome, after)
            | none => (.failed path text "Failed to write file: permission denied" none, disk)
          else (.migrated path text outcome, disk) := by
  rw [migrateFile]
  cases disk.read? path with
  | none => rfl
  | some text =>
      dsimp only
      rw [migratedText]
      cases Language.ofPath? path with
      | none => rfl
      | some language =>
          dsimp only
          cases migration.run context ⟨text, language⟩ <;> rfl

/-- Where no file is, nothing happens. -/
lemma migrateFile_of_missing {disk : Disk} (hfile : disk.file? path = none) :
    migrateFile migration context dryRun disk path =
      (reportOn migration context dryRun path none, disk) := by
  rw [migrateFile_eq, Disk.read?, hfile]
  rfl

section File

variable {disk : Disk} {place : List String}

/-- Nothing is written where the content stays as it is. -/
lemma rewrites_of_contentAfter_eq (hcontent : disk.view place = some (some content))
    (hkept : contentAfter migration context dryRun path content = content) :
    disk.Rewrites (fun other old =>
      if other = place then contentAfter migration context dryRun path old else old) disk :=
  Disk.Rewrites.congr_at ((Disk.Rewrites.refl disk).congr fun _ _ _ => (ite_self _).symm)
    hcontent hkept.symm

/-- A file whose migration succeeds. -/
lemma migrateFile_of_outcome (hplace : disk.resolve? path = some place)
    (hcontent : disk.view place = some (some content)) {text : String} {outcome : Outcome}
    (htext : content.text = some text)
    (hmigrated : migratedText migration context path text = .ok outcome) :
    ∃ after, migrateFile migration context dryRun disk path =
        (reportOn migration context dryRun path (some content), after) ∧
      disk.Rewrites (fun other old =>
        if other = place then contentAfter migration context dryRun path old else old) after := by
  have hread : disk.read? path = some text := by
    rw [Disk.read?, Disk.file?_eq_some_iff.mpr ⟨place, hplace, hcontent⟩]
    exact htext
  have hnew : newText? migration context path content =
      if outcome.changed then some outcome.text else none := by
    rw [newText?, htext, Option.map_some, hmigrated]
  have hreport : reportOn migration context dryRun path (some content) =
      if outcome.changed && !dryRun && !content.writable then
        .failed path text "Failed to write file: permission denied" none
      else .migrated path text outcome := by
    rw [reportOn, Option.bind_some, htext]
    simp only [hmigrated, Option.any_some]
  have hwrite := Disk.rewrites_of_write? outcome.text hplace hcontent
  rw [migrateFile_eq, hread, hreport]
  simp only [hmigrated]
  by_cases hdone : outcome.changed = true ∧ dryRun = false
  · -- the new text has to be written
    obtain ⟨hchanged, rfl⟩ := hdone
    rw [if_pos hchanged] at hnew
    cases hwritable : content.writable with
    | true =>
        rw [hwritable] at hwrite
        obtain ⟨after, hafter, hrewrites⟩ := hwrite
        exact ⟨after, by simp [hchanged, hafter], hrewrites.congr_at hcontent
          (contentAfter_of_newText? hnew hwritable).symm⟩
    | false =>
        rw [hwritable] at hwrite
        have hfails : disk.write? path outcome.text = none := hwrite
        refine ⟨disk, by simp [hchanged, hfails], rewrites_of_contentAfter_eq hcontent ?_⟩
        rw [contentAfter, hnew, hwritable]
        rfl
  · have hnothing : (outcome.changed && !dryRun) = false := by
      simpa using hdone
    rw [hnothing]
    refine ⟨disk, rfl, rewrites_of_contentAfter_eq hcontent (not_not.mp fun hne => hdone ?_)⟩
    obtain ⟨hsome, hdry, -⟩ := contentAfter_ne_iff.mp hne
    rw [hnew] at hsome
    exact ⟨by simpa using hsome, hdry⟩

variable (migration context dryRun) in
/-- A file that is there is dealt with by its content, and no other file is
touched. -/
lemma migrateFile_of_file (hplace : disk.resolve? path = some place)
    (hcontent : disk.view place = some (some content)) :
    ∃ after, migrateFile migration context dryRun disk path =
        (reportOn migration context dryRun path (some content), after) ∧
      disk.Rewrites (fun other old =>
        if other = place then contentAfter migration context dryRun path old else old) after := by
  have hread : disk.read? path = content.text := by
    rw [Disk.read?, Disk.file?_eq_some_iff.mpr ⟨place, hplace, hcontent⟩, Option.bind_some]
  cases htext : content.text with
  | none =>
      refine ⟨disk, ?_, rewrites_of_contentAfter_eq hcontent ?_⟩
      · rw [migrateFile_eq, hread, reportOn, Option.bind_some, htext]
      · rw [contentAfter, newText?, htext]
        rfl
  | some text =>
      cases hmigrated : migratedText migration context path text with
      | error e =>
          refine ⟨disk, ?_, rewrites_of_contentAfter_eq hcontent ?_⟩
          · rw [migrateFile_eq, hread, reportOn, Option.bind_some, htext]
            simp only [hmigrated]
          · rw [contentAfter, newText?, htext, Option.map_some, hmigrated]
      | ok outcome => exact migrateFile_of_outcome hplace hcontent htext hmigrated

end File

/-! ### One file after another -/

/-- The content of a file after a run over paths. -/
def contentAfterAll (migration : Migration) (context : Context) (dryRun : Bool) (disk : Disk)
    (files : List String) (place : List String) (content : FileEntry) : FileEntry :=
  match files.find? fun path => decide (disk.resolve? path = some place) with
  | some path => contentAfter migration context dryRun path content
  | none => content

section Files

variable {disk : Disk} {files : List String} {place : List String}

lemma contentAfterAll_cons_of_eq (h : disk.resolve? path = some place) :
    contentAfterAll migration context dryRun disk (path :: files) place content =
      contentAfter migration context dryRun path content := by
  rw [contentAfterAll, List.find?_cons_of_pos (by simpa using h)]

lemma contentAfterAll_cons_of_ne (h : disk.resolve? path ≠ some place) :
    contentAfterAll migration context dryRun disk (path :: files) place content =
      contentAfterAll migration context dryRun disk files place content := by
  rw [contentAfterAll, List.find?_cons_of_neg (by simpa using h), contentAfterAll]

lemma contentAfterAll_of_forall_ne (h : ∀ path ∈ files, disk.resolve? path ≠ some place) :
    contentAfterAll migration context dryRun disk files place content = content := by
  rw [contentAfterAll, List.find?_eq_none.mpr fun path hpath => by simpa using h path hpath]

lemma contentAfterAll_of_mem (hdistinct : (files.map disk.resolve?).Nodup) (hpath : path ∈ files)
    (h : disk.resolve? path = some place) :
    contentAfterAll migration context dryRun disk files place content =
      contentAfter migration context dryRun path content := by
  have hfound : files.find? (fun path => decide (disk.resolve? path = some place)) = some path := by
    cases hfind : files.find? fun path => decide (disk.resolve? path = some place) with
    | none => simpa [h] using List.find?_eq_none.mp hfind path hpath
    | some other =>
        have hother : disk.resolve? other = some place := by simpa using List.find?_some hfind
        rw [List.inj_on_of_nodup_map hdistinct (List.mem_of_find?_eq_some hfind) hpath
          (hother.trans h.symm)]
  rw [contentAfterAll, hfound]

/-- A content changes exactly if a path to its file changes it. -/
lemma contentAfterAll_ne_iff (hdistinct : (files.map disk.resolve?).Nodup) :
    contentAfterAll migration context dryRun disk files place content ≠ content ↔
      ∃ path ∈ files, disk.resolve? path = some place ∧
        contentAfter migration context dryRun path content ≠ content := by
  constructor
  · intro hne
    by_contra hnone
    cases hfind : files.find? fun path => decide (disk.resolve? path = some place) with
    | none => exact hne (by rw [contentAfterAll, hfind])
    | some path =>
        have hpath : disk.resolve? path = some place := by simpa using List.find?_some hfind
        rw [contentAfterAll, hfind] at hne
        exact hnone ⟨path, List.mem_of_find?_eq_some hfind, hpath, hne⟩
  · rintro ⟨path, hpath, hplace, hne⟩
    rwa [contentAfterAll_of_mem hdistinct hpath hplace]

lemma contentAfterAll_congr {after : Disk} (h : ∀ path, after.resolve? path = disk.resolve? path) :
    contentAfterAll migration context dryRun after files =
      contentAfterAll migration context dryRun disk files := by
  funext place content
  simp only [contentAfterAll, h]

/-- Files to which no path leads look the same after a file was dealt with. -/
lemma file?_of_rewrites {after : Disk} {change : FileEntry → FileEntry}
    (h : disk.Rewrites (fun other old => if other = place then change old else old) after)
    {other : String} (hother : disk.resolve? other ≠ some place) :
    after.file? other = disk.file? other := by
  rw [Disk.file?_eq, Disk.file?_eq, h.resolve?]
  cases hresolve : disk.resolve? other with
  | none => rfl
  | some found =>
      have hne : found ≠ place := fun heq => hother (by rw [hresolve, heq])
      have hview : after.view found = disk.view found := h.view_eq fun _ _ => if_neg hne
      rw [Option.bind_some, Option.bind_some, hview]

end Files

/-- What a migration does to files, if no two paths lead to the same one. -/
lemma migrateFiles_spec (migration : Migration) (context : Context) (dryRun : Bool) {disk : Disk}
    {files : List String} (hdistinct : (files.map disk.resolve?).Nodup) :
    (migrateFiles migration context dryRun disk files).1 =
      files.map (fun path => reportOn migration context dryRun path (disk.file? path)) ∧
    disk.Rewrites (contentAfterAll migration context dryRun disk files)
      (migrateFiles migration context dryRun disk files).2 := by
  induction files generalizing disk with
  | nil => exact ⟨rfl, Disk.Rewrites.refl disk⟩
  | cons path files ih =>
      rw [List.map_cons, List.nodup_cons] at hdistinct
      obtain ⟨hpath, hfiles⟩ := hdistinct
      rw [migrateFiles, List.map_cons]
      cases hfile : disk.file? path with
      | none =>
          obtain ⟨hreports, hrewrites⟩ := ih hfiles
          rw [migrateFile_of_missing hfile]
          refine ⟨congrArg _ hreports, hrewrites.congr fun place content hview => ?_⟩
          rw [contentAfterAll_cons_of_ne]
          intro hplace
          rw [Disk.file?_eq_some_iff.mpr ⟨place, hplace, hview⟩] at hfile
          cases hfile
      | some content =>
          obtain ⟨place, hplace, hcontent⟩ := Disk.file?_eq_some_iff.mp hfile
          obtain ⟨middle, hmigrate, hfirst⟩ :=
            migrateFile_of_file migration context dryRun hplace hcontent
          have hresolve : middle.resolve? = disk.resolve? := funext hfirst.resolve?
          obtain ⟨hreports, hlater⟩ := ih (hresolve.symm ▸ hfiles)
          have hothers : ∀ other ∈ files, disk.resolve? other ≠ some place := fun other hother h =>
            hpath (List.mem_map.mpr ⟨other, hother, h.trans hplace.symm⟩)
          rw [hmigrate]
          refine ⟨congrArg _ (hreports.trans (List.map_congr_left fun other hother => ?_)),
            (hfirst.trans hlater).congr fun found old _ => ?_⟩
          · rw [file?_of_rewrites hfirst (hothers other hother)]
          · rw [contentAfterAll_congr hfirst.resolve?]
            by_cases hfound : found = place
            · subst hfound
              rw [if_pos rfl, contentAfterAll_cons_of_eq hplace,
                contentAfterAll_of_forall_ne hothers]
            · rw [if_neg hfound, contentAfterAll_cons_of_ne]
              rw [hplace]
              exact fun h => hfound (Option.some.inj h).symm

end CommandLine

end GraphMigrate
