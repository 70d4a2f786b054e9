/-
The nearest settings.

Settings are looked for in a directory and then in those above it, in each of
them under one name after the other.  So what is found is the first file in
this order: no directory that is nearer holds any, and the directory holds
none under a name that counts more.

* `settingsPath?`: the search from any path, whatever is a file;
* `IsCandidate`: the paths that are looked at, by the steps upwards and by the
  position of the name;
* `settingsPath?_eq_some_iff`, `settingsPath?_eq_none_iff`: what is found;
* `nearestSettings?_eq`: a run looks for settings in this way;
* `nearest_settings_are_found`: **the settings that count are the least of all
  candidates that are files, by steps first and by names then**.
-/
import GraphMigrate.CommandLine.Workspace
import GraphMigrate.Proofs.Disk.Parents
import Mathlib.Data.Prod.Lex
import Mathlib.Tactic

namespace GraphMigrate.CommandLine

/-! ### The search -/

/-- The path of the settings that count in a directory: in it and then in
those above it, the first name under which there is a file. -/
def settingsPath? (isFile : String → Bool) (start : String) : Option String :=
  (Path.upwards start).findSome? fun directory =>
    (settingsNames.map (Path.join directory)).find? isFile

/-- A path at which settings may stand: some steps above the start, under the
name at a position. -/
def IsCandidate (start : String) (steps position : ℕ) (path : String) : Prop :=
  ∃ directory name, Path.up? steps start = some directory ∧
    settingsNames[position]? = some name ∧ path = Path.join directory name

variable {isFile : String → Bool} {start path : String}

lemma IsCandidate.unique {steps position : ℕ} {other : String}
    (h : IsCandidate start steps position path) (hother : IsCandidate start steps position other) :
    path = other := by
  obtain ⟨directory, name, hup, hname, rfl⟩ := h
  obtain ⟨directory', name', hup', hname', rfl⟩ := hother
  rw [hup] at hup'
  rw [hname] at hname'
  rw [Option.some.inj hup', Option.some.inj hname']

/-- The candidates in one directory are its paths in the order of the names. -/
lemma isCandidate_iff {steps position : ℕ} :
    IsCandidate start steps position path ↔
      ∃ directory, (Path.upwards start)[steps]? = some directory ∧
        (settingsNames.map (Path.join directory))[position]? = some path := by
  simp only [IsCandidate, Path.getElem?_upwards, List.getElem?_map, Option.map_eq_some_iff,
    exists_and_left, eq_comm (a := path)]

/-- Nothing is found exactly if no candidate is a file. -/
theorem settingsPath?_eq_none_iff :
    settingsPath? isFile start = none ↔
      ∀ steps position path, IsCandidate start steps position path → isFile path = false := by
  rw [settingsPath?, List.findSome?_eq_none_iff]
  simp only [List.find?_eq_none, Bool.not_eq_true]
  constructor
  · intro h steps position path hcandidate
    obtain ⟨directory, hdirectory, hpath⟩ := isCandidate_iff.mp hcandidate
    exact h directory (List.mem_of_getElem? hdirectory) path (List.mem_of_getElem? hpath)
  · intro h directory hdirectory path hpath
    obtain ⟨steps, hsteps⟩ := List.mem_iff_getElem?.mp hdirectory
    obtain ⟨position, hposition⟩ := List.mem_iff_getElem?.mp hpath
    exact h steps position path (isCandidate_iff.mpr ⟨directory, hsteps, hposition⟩)

/-- What is found comes before all other candidates that are files. -/
lemma exists_least_of_settingsPath? (h : settingsPath? isFile start = some path) :
    ∃ steps position, IsCandidate start steps position path ∧ isFile path ∧
      ∀ steps' position' other, IsCandidate start steps' position' other → isFile other →
        toLex (steps, position) ≤ toLex (steps', position') := by
  obtain ⟨nearer, directory, farther, hupwards, hfind, hnearer⟩ :=
    List.findSome?_eq_some_iff.mp h
  obtain ⟨hfile, position, hlt, hposition, hbefore⟩ := List.find?_eq_some_iff_getElem.mp hfind
  refine ⟨nearer.length, position, isCandidate_iff.mpr ⟨directory, ?_, ?_⟩, hfile, ?_⟩
  · rw [hupwards, List.getElem?_append_right le_rfl, Nat.sub_self, List.getElem?_cons_zero]
  · rw [List.getElem?_eq_getElem hlt, hposition]
  · intro steps' position' other hother hother'
    obtain ⟨directory', hdirectory', hpath'⟩ := isCandidate_iff.mp hother
    rw [Prod.Lex.toLex_le_toLex]
    rcases lt_trichotomy nearer.length steps' with hlt' | heq | hgt
    · exact .inl hlt'
    · -- in the same directory, nothing stands under the names in front
      subst heq
      rw [hupwards, List.getElem?_append_right le_rfl, Nat.sub_self, List.getElem?_cons_zero]
        at hdirectory'
      obtain rfl := Option.some.inj hdirectory'
      refine .inr ⟨rfl, not_lt.mp fun hposition' => ?_⟩
      have hfalse := hbefore position' hposition'
      obtain ⟨hlt', hother''⟩ := List.getElem?_eq_some_iff.mp hpath'
      rw [hother'', hother'] at hfalse
      cases hfalse
    · -- in a nearer directory, nothing is found at all
      rw [hupwards, List.getElem?_append_left hgt] at hdirectory'
      have hnone := hnearer directory' (List.mem_of_getElem? hdirectory')
      exact absurd hother' (List.find?_eq_none.mp hnone other (List.mem_of_getElem? hpath'))

/-- **What is found is the least candidate that is a file**, by steps first and
by names then. -/
theorem settingsPath?_eq_some_iff :
    settingsPath? isFile start = some path ↔
      ∃ steps position, IsCandidate start steps position path ∧ isFile path ∧
        ∀ steps' position' other, IsCandidate start steps' position' other → isFile other →
          toLex (steps, position) ≤ toLex (steps', position') := by
  refine ⟨exists_least_of_settingsPath?, ?_⟩
  rintro ⟨steps, position, hcandidate, hfile, hleast⟩
  cases hfound : settingsPath? isFile start with
  | none =>
      have hnone := settingsPath?_eq_none_iff.mp hfound steps position path hcandidate
      rw [hfile] at hnone
      cases hnone
  | some found =>
      obtain ⟨steps', position', hcandidate', hfile', hleast'⟩ :=
        exists_least_of_settingsPath? hfound
      have hsame := le_antisymm (hleast _ _ _ hcandidate' hfile') (hleast' _ _ _ hcandidate hfile)
      obtain ⟨rfl, rfl⟩ := Prod.mk.inj (toLex.injective hsame)
      rw [hcandidate'.unique hcandidate]

/-! ### Settings of a run -/

lemma isFileAt_eq (disk : Disk) {place : List String} (hne : place ≠ [])
    (hplace : ∀ name ∈ place, Path.isComponent name) :
    isFileAt disk place = (disk.file? (Disk.absolute place)).isSome := by
  have hresolve := Disk.resolve?_absolute disk hplace hne
  have hentry : disk.entry? (Disk.absolute place) = disk.at? place := by
    rw [Disk.entry?, hresolve]
    cases hat : disk.at? place with
    | none => rfl
    | some entry => exact hat
  rw [isFileAt, Disk.file?, hentry]
  rcases disk.at? place with _ | ⟨_ | _⟩ <;> rfl

lemma isComponent_of_mem_settingsNames : ∀ name ∈ settingsNames, Path.isComponent name := by
  decide +kernel

lemma isComponent_of_mem_ancestors {place above : List String}
    (hplace : ∀ name ∈ place, Path.isComponent name) (h : above ∈ Disk.ancestors place) :
    ∀ name ∈ above, Path.isComponent name := by
  obtain ⟨steps, -, rfl⟩ := List.mem_map.mp h
  exact fun name hname => hplace name (List.mem_of_mem_take hname)

/-- The paths of the places at which settings may stand are the paths at which
they are looked for. -/
lemma map_absolute_settingsPlaces {place : List String}
    (hplace : ∀ name ∈ place, Path.isComponent name) :
    (settingsPlaces place).map Disk.absolute =
      (Path.upwards (Disk.absolute place)).flatMap fun directory =>
        settingsNames.map (Path.join directory) := by
  rw [settingsPlaces, List.map_flatMap, Disk.upwards_absolute hplace, List.flatMap_map]
  refine List.flatMap_congr fun above habove => ?_
  rw [List.map_map]
  refine List.map_congr_left fun name hname => ?_
  exact (Disk.join_absolute (isComponent_of_mem_ancestors hplace habove)
    (isComponent_of_mem_settingsNames name hname)).symm

/-- A run looks for settings from the path of a place as one does from any
path. -/
theorem nearestSettings?_eq (disk : Disk) {place : List String}
    (hplace : ∀ name ∈ place, Path.isComponent name) :
    (nearestSettings? disk place).map Disk.absolute =
      settingsPath? (fun path => (disk.file? path).isSome) (Disk.absolute place) := by
  rw [settingsPath?, ← List.find?_flatMap, ← map_absolute_settingsPlaces hplace, List.find?_map,
    nearestSettings?]
  refine congrArg _ (List.find?_congr fun found hfound => ?_)
  obtain ⟨above, habove, hfound⟩ := List.mem_flatMap.mp hfound
  obtain ⟨name, hname, rfl⟩ := List.mem_map.mp hfound
  refine isFileAt_eq disk (List.concat_ne_nil _ _) (List.forall_mem_append.mpr
    ⟨isComponent_of_mem_ancestors hplace habove, List.forall_mem_singleton.mpr ?_⟩)
  exact isComponent_of_mem_settingsNames name hname

/-- **The nearest settings count.**  From every path, whatever is a file, the
search comes to an end with the least candidate that is a file, by the number
of steps upwards first and by the position of the name then, and without a
result exactly if no candidate is a file.  A run finds the settings of its
directory in this way. -/
theorem nearest_settings_are_found :
    (∀ (isFile : String → Bool) (start : String),
      (∀ path, settingsPath? isFile start = some path ↔
        ∃ steps position, IsCandidate start steps position path ∧ isFile path ∧
          ∀ steps' position' other, IsCandidate start steps' position' other → isFile other →
            toLex (steps, position) ≤ toLex (steps', position')) ∧
      (settingsPath? isFile start = none ↔
        ∀ steps position path, IsCandidate start steps position path → isFile path = false)) ∧
    ∀ (disk : Disk) (place : List String), (∀ name ∈ place, Path.isComponent name) →
      (nearestSettings? disk place).map Disk.absolute =
        settingsPath? (fun path => (disk.file? path).isSome) (Disk.absolute place) :=
  ⟨fun _ _ => ⟨fun _ => settingsPath?_eq_some_iff, settingsPath?_eq_none_iff⟩,
    fun disk _ hplace => nearestSettings?_eq disk hplace⟩

/-- A tree with settings in its root and two files with settings in a directory
below. -/
def settingsDisk : Disk where
  root := .directory
    [(".graphql-codemodrc.yml", .file { text := some "" }),
      ("site", .directory
        [("graphql-codemod.config.yml", .file { text := some "" }),
          (".graphql-codemodrc.json", .file { text := some "" }),
          ("src", .directory [])])]

theorem nearest_settings_of_site :
    (∀ name ∈ ["site", "src"], Path.isComponent name) ∧
    (nearestSettings? settingsDisk ["site", "src"]).map Disk.absolute =
      some "/site/.graphql-codemodrc.json" ∧
    ∃ steps position,
      IsCandidate "/site/src" steps position "/site/.graphql-codemodrc.json" ∧
      ∀ steps' position' other, IsCandidate "/site/src" steps' position' other →
        (settingsDisk.file? other).isSome → toLex (steps, position) ≤ toLex (steps', position') := by
  obtain ⟨hsearch, hrun⟩ := nearest_settings_are_found
  have hplace : ∀ name ∈ ["site", "src"], Path.isComponent name := by decide +kernel
  have hfound : (nearestSettings? settingsDisk ["site", "src"]).map Disk.absolute =
      some "/site/.graphql-codemodrc.json" := by
    decide +kernel
  have hstart : Disk.absolute ["site", "src"] = "/site/src" := by decide +kernel
  have hpath := hrun settingsDisk ["site", "src"] hplace
  rw [hfound, hstart] at hpath
  obtain ⟨steps, position, hcandidate, -, hleast⟩ := ((hsearch _ _).1 _).mp hpath.symm
  exact ⟨hplace, hfound, steps, position, hcandidate, hleast⟩

end GraphMigrate.CommandLine
