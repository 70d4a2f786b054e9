/-
Valid settings.

Settings are checked when they are loaded, and patterns from the command line
are checked one by one when they are added.  What the checks refuse can be
said without them, and no run works with settings that they refuse.

* `Settings.IsValid`: what is asked of settings;
* `Settings.fault?_eq_none_iff`: settings have no fault exactly if they are
  valid;
* `Settings.load_eq_ok_iff`: which settings a text loads as;
* `Settings.IsReached`: the default settings, those that load, and what adding
  patterns makes of them;
* `loading_is_validation`: **settings load exactly if they are valid, and
  whatever is reached from them is valid too, so that every pattern counts**.
-/
import GraphMigrate.CommandLine.Workspace
import GraphMigrate.Proofs.Control.Ensures
import GraphMigrate.Proofs.Settings.LoadedPolicies
import Mathlib.Tactic

namespace GraphMigrate

/-- A letter of ASCII, an underscore or a dollar sign. -/
def StartsIdentifier (c : Char) : Prop :=
  'a' ≤ c ∧ c ≤ 'z' ∨ 'A' ≤ c ∧ c ≤ 'Z' ∨ c = '_' ∨ c = '$'

/-- Letters of ASCII, underscores, dollar signs and digits, of which a digit
does not come first. -/
def IsIdentifier (text : String) : Prop :=
  ∃ c cs, text.toList = c :: cs ∧ StartsIdentifier c ∧
    ∀ d ∈ cs, StartsIdentifier d ∨ '0' ≤ d ∧ d ≤ '9'

/-- A text with a character that is not white space. -/
def HasContent (text : String) : Prop := ∃ c ∈ text.toList, isBlank c = false

namespace Settings

/-- What is asked of settings: identifiers for tags, extensions without a dot
in front, patterns that can be read, and a path and names that are not
empty. -/
structure IsValid (settings : Settings) : Prop where
  tags_ne_nil : settings.tags ≠ []
  tags : ∀ tag ∈ settings.tags, IsIdentifier tag
  extensions_ne_nil : settings.extensions ≠ []
  extensions : ∀ extension ∈ settings.extensions,
    extension ≠ "" ∧ extension.toList.head? ≠ some '.'
  ignore : ∀ pattern ∈ settings.ignore, ∃ glob, Glob.parse pattern = .ok glob
  schema : ∀ path, settings.schema = some path → path ≠ ""
  placeholder : HasContent settings.ids.placeholder
  renames : ∀ rule ∈ settings.ids.rules, HasContent rule.rename

/-! ### Checks -/

lemma isTagStart_iff {c : Char} : isTagStart c ↔ StartsIdentifier c := by
  simp only [isTagStart, StartsIdentifier, Char.isAlpha, Char.isUpper, Char.isLower, Char.le_def,
    Bool.or_eq_true, Bool.and_eq_true, decide_eq_true_eq, beq_iff_eq, ge_iff_le]
  tauto

lemma isTagPart_iff {c : Char} : isTagPart c ↔ StartsIdentifier c ∨ '0' ≤ c ∧ c ≤ '9' := by
  have hdigit : c.isDigit ↔ '0' ≤ c ∧ c ≤ '9' := by
    simp only [Char.isDigit, Char.le_def, Bool.and_eq_true, decide_eq_true_eq, ge_iff_le]
  rw [← isTagStart_iff, ← hdigit]
  simp only [isTagPart, isTagStart, Char.isAlphanum, Bool.or_eq_true]
  tauto

lemma isTag_iff {text : String} : isTag text ↔ IsIdentifier text := by
  rw [isTag, IsIdentifier]
  cases text.toList with
  | nil => simp
  | cons c cs => simp [isTagStart_iff, isTagPart_iff]

lemma isExtension_iff {text : String} :
    isExtension text ↔ text ≠ "" ∧ text.toList.head? ≠ some '.' := by
  rw [isExtension, ne_eq, ← String.toList_inj]
  cases text.toList <;> simp

lemma isBlankText_eq_false_iff {text : String} : isBlankText text = false ↔ HasContent text := by
  have htrim : isBlankText text ↔ ∀ c ∈ text.toList, isBlank c := by
    rw [isBlankText, List.isEmpty_iff, trim, trimEnd, List.reverse_eq_nil_iff,
      List.dropWhile_eq_nil_iff, trimStart]
    simp only [List.mem_reverse]
    refine ⟨fun h c hc => ?_, fun h c hc => h c (List.dropWhile_sublist _ |>.subset hc)⟩
    rw [← List.takeWhile_append_dropWhile (p := isBlank) (l := text.toList)] at hc
    exact (List.mem_append.mp hc).elim List.mem_takeWhile_imp (h c)
  rw [← Bool.not_eq_true, htrim, HasContent]
  simp

lemma tagFault?_eq_none_iff {tags : List String} :
    tagFault? tags = none ↔ tags ≠ [] ∧ ∀ tag ∈ tags, IsIdentifier tag := by
  cases tags <;> simp [tagFault?, isTag_iff]

lemma extensionFault?_eq_none_iff {extensions : List String} :
    extensionFault? extensions = none ↔
      extensions ≠ [] ∧
        ∀ extension ∈ extensions, extension ≠ "" ∧ extension.toList.head? ≠ some '.' := by
  cases extensions <;> simp [extensionFault?, isExtension_iff]

lemma patternFault?_eq_none_iff {patterns : List String} :
    patternFault? patterns = none ↔
      ∀ pattern ∈ patterns, ∃ glob, Glob.parse pattern = .ok glob := by
  rw [patternFault?, List.findSome?_eq_none_iff]
  refine forall₂_congr fun pattern _ => ?_
  cases Glob.parse pattern <;> simp

lemma schemaFault?_eq_none_iff {schema : Option String} :
    schemaFault? schema = none ↔ ∀ path, schema = some path → path ≠ "" := by
  cases schema <;> simp [schemaFault?]

lemma policyFault?_eq_none_iff {policy : IdPolicy} :
    policyFault? policy = none ↔
      HasContent policy.placeholder ∧ ∀ rule ∈ policy.rules, HasContent rule.rename := by
  simp only [← isBlankText_eq_false_iff, policyFault?]
  split <;> simp_all

/-- Settings have no fault exactly if they are valid. -/
theorem fault?_eq_none_iff {settings : Settings} : settings.fault? = none ↔ settings.IsValid := by
  simp only [fault?, Option.orElse_eq_orElse, Option.orElse_eq_or, Option.or_eq_none_iff,
    tagFault?_eq_none_iff, extensionFault?_eq_none_iff, patternFault?_eq_none_iff,
    schemaFault?_eq_none_iff, policyFault?_eq_none_iff]
  constructor
  · rintro ⟨⟨htags, htag⟩, ⟨hextensions, hextension⟩, hignore, hschema, hplaceholder, hrenames⟩
    exact ⟨htags, htag, hextensions, hextension, hignore, hschema, hplaceholder, hrenames⟩
  · rintro ⟨htags, htag, hextensions, hextension, hignore, hschema, hplaceholder, hrenames⟩
    exact ⟨⟨htags, htag⟩, ⟨hextensions, hextension⟩, hignore, hschema, hplaceholder, hrenames⟩

/-! ### Loading -/

/-- The notation of a file follows from its extension. -/
def HasFormat (path : String) : Format → Prop
  | .yaml => Path.extension? path = some "yml" ∨ Path.extension? path = some "yaml"
  | .json => Path.extension? path = some "json"

lemma format?_eq_some_iff {path : String} {format : Format} :
    format? ((Path.extension? path).getD "") = some format ↔ HasFormat path format := by
  cases hextension : Path.extension? path with
  | none => cases format <;> simp [HasFormat, hextension, format?]
  | some extension =>
      rw [Option.getD_some]
      unfold format?
      split <;> cases format <;> simp_all [HasFormat]

/-- **A text loads as settings** exactly if its notation is known, it stands for
them, and they are valid. -/
theorem load_eq_ok_iff {path contents : String} {settings : Settings} :
    load path contents = .ok settings ↔
      (∃ format, HasFormat path format ∧
        (data? format contents).bind (ofData? format) = some settings) ∧ settings.IsValid := by
  simp only [load, ← format?_eq_some_iff]
  cases format? ((Path.extension? path).getD "") with
  | none => simp
  | some format =>
      simp only [Option.some.injEq, exists_eq_left', ← fault?_eq_none_iff]
      cases (data? format contents).bind (ofData? format) with
      | none => simp
      | some found =>
          simp only [check, Option.some.injEq]
          cases hfault : found.fault? with
          | none =>
              simp only [Except.ok.injEq]
              exact ⟨fun h => ⟨h, h ▸ hfault⟩, And.left⟩
          | some fault =>
              simp only [reduceCtorEq, false_iff, not_and]
              rintro rfl
              simp [hfault]

end Settings

/-! ### Settings of runs -/

namespace CommandLine

/-- The settings that runs come to: the default ones, those that load, and what
adding patterns makes of them. -/
inductive IsReached : Settings → Prop
  | usual : IsReached {}
  | loaded {path contents : String} {settings : Settings}
      (h : Settings.load path contents = .ok settings) : IsReached settings
  | ignoring {before after : Workspace} {patterns : List String} (h : IsReached before.settings)
      (hpatterns : patterns.foldlM Workspace.ignore before = .ok after) : IsReached after.settings

lemma isValid_usual : ({} : Settings).IsValid :=
  Settings.fault?_eq_none_iff.mp (by decide +kernel)

/-- A pattern that is added is one that can be read. -/
lemma isValid_ignore {before after : Workspace} {pattern : String}
    (h : before.ignore pattern = .ok after) (hvalid : before.settings.IsValid) :
    after.settings.IsValid := by
  rw [Workspace.ignore] at h
  split at h
  case h_1 => cases h
  case h_2 glob hglob =>
    cases h
    refine { hvalid with ignore := fun other hother => ?_ }
    rcases List.mem_append.mp hother with hother | hother
    · exact hvalid.ignore other hother
    · exact ⟨glob, List.mem_singleton.mp hother ▸ hglob⟩

lemma isValid_foldlM_ignore {before after : Workspace} {patterns : List String}
    (h : patterns.foldlM Workspace.ignore before = .ok after) (hvalid : before.settings.IsValid) :
    after.settings.IsValid := by
  induction patterns generalizing before with
  | nil =>
      cases h
      exact hvalid
  | cons pattern patterns ih =>
      obtain ⟨middle, hmiddle, hrest⟩ := exists_ok_of_bind h
      exact ih hrest (isValid_ignore hmiddle hvalid)

/-- Settings that runs come to are valid. -/
theorem IsReached.isValid {settings : Settings} (h : IsReached settings) : settings.IsValid := by
  induction h with
  | usual => exact isValid_usual
  | loaded h => exact (Settings.load_eq_ok_iff.mp h).2
  | ignoring _ hpatterns ih => exact isValid_foldlM_ignore hpatterns ih

/-- With patterns that can be read, files are ignored that match one of
them. -/
lemma isIgnored_eq_any {settings : Settings} {globs : List Glob}
    (h : settings.ignore.mapM Glob.parse = .ok globs) (path : String) :
    settings.isIgnored path = globs.any (·.isMatch path) := by
  rw [Settings.isIgnored]
  replace h := forall₂_of_mapM h
  generalize settings.ignore = patterns at h
  induction h with
  | nil => rfl
  | cons hglob _ ih => rw [List.any_cons, List.any_cons, hglob, ih]

/-- A run works with settings that runs come to. -/
lemma isReached_of_ofGiven {disk : Disk} {given : Given} {workspace : Workspace}
    (h : Workspace.ofGiven disk given = .ok workspace) : IsReached workspace.settings := by
  obtain ⟨loaded, hloaded, hpatterns⟩ := exists_ok_of_bind h
  refine .ignoring ?_ hpatterns
  rw [Workspace.load] at hloaded
  split at hloaded
  case h_1 path _ =>
    rw [Workspace.ofFile] at hloaded
    split at hloaded
    · cases hloaded
    split at hloaded
    · cases hloaded
    · cases hloaded
      exact .loaded ‹_›
  case h_2 =>
    cases hloaded
    exact .usual

/-- **Loading is validation.**  A text loads as settings exactly if its notation
is known, it stands for them, and they are valid.  Whatever runs come to from
such settings, or from the default ones, by adding patterns is valid too: all
patterns can be read, and the files that are ignored are those that match one
of them.  Every run works with such settings. -/
theorem loading_is_validation :
    (∀ path contents settings, Settings.load path contents = .ok settings ↔
      (∃ format, Settings.HasFormat path format ∧
        (Settings.data? format contents).bind (Settings.ofData? format) = some settings) ∧
      settings.IsValid) ∧
    (∀ settings, IsReached settings → settings.IsValid ∧
      ∃ globs, settings.ignore.mapM Glob.parse = .ok globs ∧
        ∀ path, settings.isIgnored path = globs.any (·.isMatch path)) ∧
    ∀ disk given workspace, Workspace.ofGiven disk given = .ok workspace →
      IsReached workspace.settings :=
  ⟨fun _ _ _ => Settings.load_eq_ok_iff,
    fun _ h => ⟨h.isValid, (exists_mapM_eq_ok h.isValid.ignore).imp fun _ hglobs =>
      ⟨hglobs, isIgnored_eq_any hglobs⟩⟩,
    fun _ _ _ => isReached_of_ofGiven⟩

/-- A tree with settings in its root. -/
def taggedDisk : Disk where
  root := .directory
    [(".graphql-codemodrc.json",
      .file { text := some "\x7b\"tags\": [\"gql\"], \"ignore\": [\"*.d.ts\"]\x7d" })]

theorem settings_of_taggedDisk_are_valid :
    ∃ workspace,
      Workspace.ofGiven taggedDisk { ignorePatterns := ["**/*.test.ts"] } = .ok workspace ∧
      workspace.settings.tags = ["gql"] ∧
      workspace.settings.IsValid ∧
      ∃ globs, workspace.settings.ignore.mapM Glob.parse = .ok globs ∧
        ∀ path, workspace.settings.isIgnored path = globs.any (·.isMatch path) := by
  have hcheck : (Workspace.ofGiven taggedDisk { ignorePatterns := ["**/*.test.ts"] }).toOption.any
      (fun workspace => workspace.settings.tags == ["gql"]) = true := by
    decide +kernel
  obtain ⟨workspace, hworkspace, htags⟩ := Option.any_eq_true _ _ |>.mp hcheck
  have hgiven := eq_ok_of_toOption hworkspace
  obtain ⟨-, hreached, hruns⟩ := loading_is_validation
  exact ⟨workspace, hgiven, eq_of_beq htags, hreached _ (hruns _ _ _ hgiven)⟩

end CommandLine

end GraphMigrate
