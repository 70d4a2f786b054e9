/-
Files that are found below directories.

A run looks for files by walking directories, and it leaves out directories
while it walks.  What it finds is told by each file on its own: by its path,
by the settings and by the names of the directories on the way to it.

* `Workspace.IsTaken`: whether the file at a place below a directory counts;
* `Workspace.withoutRepeats_eq`: paths that are the same as those right in
  front of them are left out;
* `Workspace.collect_singleton`: what a single path stands for;
* `collect_is_filtered_listing`: **the files of a directory are those that
  count, each once and in the order of the bytes of the names that lead to
  them, and several paths stand for what each of them stands for**.
-/
import GraphMigrate.Proofs.CommandLine.Collected
import GraphMigrate.Proofs.Disk.Walking

namespace GraphMigrate.CommandLine

namespace Workspace

/-! ### Files that count -/

/-- The path under which a place below a directory is walked. -/
def walkedPath (root : String) (names : List String) : String :=
  Path.join root (String.intercalate "/" names)

/-- What a place below a directory must be like to be taken: a file with one of
the extensions, which no pattern matches by the path from the directory or by
the path with the directory in front, and none of the directories on the way
to it is hidden or holds what is generated or installed. -/
structure IsTaken (settings : Settings) (root : String) (entry : Entry) (names : List String) :
    Prop where
  isFile : ∃ content, entry.lookup? names = some (.file content)
  isSupported : ∃ extension ∈ settings.extensions,
    Path.extension? (walkedPath root names) = some extension
  isKept : ∀ pattern ∈ settings.ignore, ∀ glob, Glob.parse pattern = .ok glob →
    glob.isMatch (walkedPath root names) = false ∧
      glob.isMatch (String.intercalate "/" names) = false
  isEntered : ∀ name ∈ names.dropLast,
    name.toList.head? ≠ some '.' ∧ name ≠ "node_modules" ∧ name ≠ "__generated__"

lemma isSupported_iff {settings : Settings} {path : String} :
    settings.isSupported path ↔
      ∃ extension ∈ settings.extensions, Path.extension? path = some extension := by
  rw [Settings.isSupported]
  cases Path.extension? path <;> simp

lemma isIgnored_eq_false_iff {settings : Settings} {path : String} :
    settings.isIgnored path = false ↔
      ∀ pattern ∈ settings.ignore, ∀ glob, Glob.parse pattern = .ok glob →
        glob.isMatch path = false := by
  rw [Settings.isIgnored, List.any_eq_false]
  refine forall₂_congr fun pattern _ => ?_
  cases Glob.parse pattern <;> simp

lemma isSkippedName_eq_false_iff {name : String} :
    Entry.isSkippedName name = false ↔
      name.toList.head? ≠ some '.' ∧ name ≠ "node_modules" ∧ name ≠ "__generated__" := by
  simp [Entry.isSkippedName, and_assoc]

lemma admits_iff {settings : Settings} {root : String} {names : List String} :
    admits settings root names ↔
      (∃ extension ∈ settings.extensions,
        Path.extension? (walkedPath root names) = some extension) ∧
      ∀ pattern ∈ settings.ignore, ∀ glob, Glob.parse pattern = .ok glob →
        glob.isMatch (walkedPath root names) = false ∧
          glob.isMatch (String.intercalate "/" names) = false := by
  simp only [admits, Bool.and_eq_true, Bool.not_eq_true', isSupported_iff, isIgnored_eq_false_iff,
    walkedPath, and_assoc]
  refine and_congr_right fun _ => ?_
  simp only [← forall_and]

/-- What is listed and admitted is what is taken. -/
lemma mem_filter_admits_iff {settings : Settings} {root : String} {entry : Entry}
    (hwell : entry.isWellFormed) {names : List String} :
    names ∈ entry.files.filter (admits settings root) ↔ IsTaken settings root entry names := by
  rw [List.mem_filter, Entry.mem_files_iff hwell, admits_iff]
  simp only [isSkippedName_eq_false_iff]
  constructor
  · rintro ⟨⟨hfile, hentered⟩, hsupported, hkept⟩
    exact ⟨hfile, hsupported, hkept, hentered⟩
  · rintro ⟨hfile, hsupported, hkept, hentered⟩
    exact ⟨⟨hfile, hentered⟩, hsupported, hkept⟩

/-! ### Repeated paths -/

lemma withoutRepeatsAfter_eq (before : String) (paths : List String) :
    before :: withoutRepeats.withoutRepeatsAfter before paths =
      paths.destutter' (fun a b => Path.components a ≠ Path.components b) before := by
  induction paths generalizing before with
  | nil => rfl
  | cons path paths ih =>
      rw [withoutRepeats.withoutRepeatsAfter, List.destutter']
      by_cases heq : Path.components path = Path.components before
      · rw [if_pos (by simpa using heq), if_neg (not_not_intro heq.symm), ih]
      · rw [if_neg (by simpa using heq), if_pos (Ne.symm heq), ih]

/-- Paths that are the same as those right in front of them are left out. -/
lemma withoutRepeats_eq (paths : List String) :
    withoutRepeats paths =
      paths.destutter fun a b => Path.components a ≠ Path.components b := by
  cases paths with
  | nil => rfl
  | cons path paths => exact withoutRepeatsAfter_eq path paths

/-- Nothing is left out of different paths. -/
lemma withoutRepeats_of_nodup {paths : List String} (h : (paths.map Path.components).Nodup) :
    withoutRepeats paths = paths := by
  rw [withoutRepeats_eq]
  exact List.destutter_of_isChain _ _ (List.pairwise_map.mp h).isChain

/-! ### Paths to start from -/

lemma collect_eq (disk : Disk) (settings : Settings) {paths : List String} (h : paths ≠ []) :
    collect disk settings paths =
      (paths.mapM (filesOf disk settings)).map fun listings => withoutRepeats listings.flatten := by
  rw [collect, startingPaths, if_neg (by simpa using h)]
  cases paths.mapM (filesOf disk settings) <;> rfl

/-- A single path stands for what it lists. -/
lemma collect_singleton {disk : Disk} (settings : Settings) (hwell : disk.root.isWellFormed)
    (path : String) : collect disk settings [path] = filesOf disk settings path := by
  rw [collect_eq disk settings (List.cons_ne_nil _ _), List.mapM_cons, List.mapM_nil]
  cases hfiles : filesOf disk settings path with
  | error failure => rfl
  | ok files =>
      have hall : [files].flatten = files := List.append_nil files
      refine congrArg Except.ok ?_
      rw [← hall] at hfiles
      simpa only [hall] using withoutRepeats_of_nodup (nodup_filesOf hwell hfiles)

lemma filesOf_of_missing {disk : Disk} (settings : Settings) {path : String}
    (h : disk.entry? path = none) : filesOf disk settings path = .error (.missingPath path) := by
  rw [filesOf, h]

lemma exists_filesOf {disk : Disk} (settings : Settings) {path : String}
    (h : disk.entry? path ≠ none) : ∃ files, filesOf disk settings path = .ok files := by
  rw [filesOf]
  split
  · exact absurd ‹_› h
  · exact ⟨_, rfl⟩
  · exact ⟨_, rfl⟩

/-- Several paths stand for what each of them stands for. -/
lemma collect_of_found {disk : Disk} (settings : Settings) (hwell : disk.root.isWellFormed)
    {paths : List String} (hne : paths ≠ []) (h : ∀ path ∈ paths, disk.entry? path ≠ none) :
    ∃ listings, paths.mapM (fun path => collect disk settings [path]) = .ok listings ∧
      collect disk settings paths = .ok (withoutRepeats listings.flatten) := by
  simp only [collect_singleton settings hwell]
  obtain ⟨listings, hlistings⟩ := exists_mapM_eq_ok fun path hpath =>
    exists_filesOf settings (h path hpath)
  refine ⟨listings, hlistings, ?_⟩
  rw [collect_eq disk settings hne, hlistings]
  rfl

/-- The first path that leads nowhere keeps a run from starting. -/
lemma collect_of_missing {disk : Disk} (settings : Settings) {before after : List String}
    {missing : String} (hbefore : ∀ path ∈ before, disk.entry? path ≠ none)
    (hmissing : disk.entry? missing = none) :
    collect disk settings (before ++ missing :: after) = .error (.missingPath missing) := by
  rw [collect_eq disk settings (List.append_ne_nil_of_right_ne_nil _ (List.cons_ne_nil _ _)),
    mapM_of_error (fun path hpath => exists_filesOf settings (hbefore path hpath))
      (filesOf_of_missing settings hmissing)]
  rfl

end Workspace

open Workspace (IsTaken walkedPath collect)

/-- **The files of a directory are those that count.**  Whatever a directory is
called, it stands for the files below it that are taken, each once, and one
behind the other by the bytes of the first names in which they differ.  A
file stands for itself.  Several paths stand for what each of them stands
for, less those that are the same as the ones right in front of them; if one
of them leads nowhere, the first that does is reported. -/
theorem collect_is_filtered_listing {disk : Disk} (settings : Settings)
    (hwell : disk.root.isWellFormed) :
    (∀ root entries, disk.entry? root = some (.directory entries) →
      ∃ found : List (List String),
        collect disk settings [root] = .ok (found.map (walkedPath root)) ∧
        (∀ names, names ∈ found ↔ IsTaken settings root (.directory entries) names) ∧
        found.Pairwise Precedes ∧
        ((found.map (walkedPath root)).map Path.components).Nodup) ∧
    (∀ path content, disk.entry? path = some (.file content) →
      collect disk settings [path] = .ok [path]) ∧
    (∀ paths ≠ [],
      match paths.find? fun path => (disk.entry? path).isNone with
      | some missing => collect disk settings paths = .error (.missingPath missing)
      | none =>
        ∃ listings, paths.mapM (fun path => collect disk settings [path]) = .ok listings ∧
          collect disk settings paths =
            .ok (listings.flatten.destutter fun a b => Path.components a ≠ Path.components b)) := by
  refine ⟨fun root entries hroot => ?_, fun path content hpath => ?_, fun paths hne => ?_⟩
  · have hentries := Disk.isWellFormed_entry? hwell hroot
    have hfiles : Workspace.filesOf disk settings root =
        .ok (((Entry.directory entries).files.filter (Workspace.admits settings root)).map
          (walkedPath root)) := by
      rw [Workspace.filesOf, hroot]
      rfl
    refine ⟨_, (Workspace.collect_singleton settings hwell root).trans hfiles,
      fun names => Workspace.mem_filter_admits_iff hentries,
      (Entry.pairwise_files hentries).filter _, Workspace.nodup_filesOf hwell hfiles⟩
  · rw [Workspace.collect_singleton settings hwell, Workspace.filesOf, hpath]
  · split
    case h_1 missing hfind =>
      obtain ⟨hmissing, before, after, rfl, hbefore⟩ := List.find?_eq_some_iff_append.mp hfind
      exact Workspace.collect_of_missing settings (by simpa [Option.isSome_iff_ne_none] using hbefore)
        (by simpa using hmissing)
    case h_2 hfind =>
      have hfound : ∀ path ∈ paths, disk.entry? path ≠ none := by simpa using hfind
      simp only [← Workspace.withoutRepeats_eq]
      exact Workspace.collect_of_found settings hwell hne hfound

/-- A tree with a directory that holds scripts, and scripts in directories that
are not entered. -/
def siteDisk : Disk where
  root := .directory
    [(".site", .directory
      [("views", .directory
          [("shows.ts", .file { text := some "run()" }),
            ("shows.test.ts", .file { text := some "test()" })]),
        ("views.ts", .file { text := some "run()" }),
        (".eslintrc.js", .file { text := some "" }),
        (".cache", .directory [("page.ts", .file { text := some "" })])])]

/-- Settings that leave tests alone. -/
def siteSettings : Settings := { ignore := ["*.test.ts"] }

theorem collect_of_siteDisk :
    siteDisk.root.isWellFormed ∧
    ∃ found : List (List String),
      collect siteDisk siteSettings [".site"] = .ok (found.map (walkedPath ".site")) ∧
      ["views", "shows.ts"] ∈ found ∧ [".eslintrc.js"] ∈ found ∧
      ["views", "shows.test.ts"] ∉ found ∧ [".cache", "page.ts"] ∉ found ∧
      found.Pairwise Precedes := by
  have hwell : siteDisk.root.isWellFormed := by decide +kernel
  obtain ⟨found, hcollect, hmem, hsorted, -⟩ :=
    (collect_is_filtered_listing siteSettings hwell).1 ".site" _ rfl
  refine ⟨hwell, found, hcollect, (hmem _).mpr ?_, (hmem _).mpr ?_, fun h => ?_, fun h => ?_,
    hsorted⟩
  · have hadmits : Workspace.admits siteSettings ".site" ["views", "shows.ts"] := by
      decide +kernel
    obtain ⟨hsupported, hkept⟩ := Workspace.admits_iff.mp hadmits
    exact ⟨⟨_, rfl⟩, hsupported, hkept, by decide⟩
  · have hadmits : Workspace.admits siteSettings ".site" [".eslintrc.js"] := by decide +kernel
    obtain ⟨hsupported, hkept⟩ := Workspace.admits_iff.mp hadmits
    exact ⟨⟨_, rfl⟩, hsupported, hkept, by decide⟩
  · have htaken := (hmem _).mp h
    exact absurd (Workspace.admits_iff.mpr ⟨htaken.isSupported, htaken.isKept⟩)
      (by decide +kernel)
  · exact (((hmem _).mp h).isEntered ".cache" (by decide)).1 (by decide)

end GraphMigrate.CommandLine
