/-
Identity policies from settings that load.

Loading refuses a policy in which a name is blank, but it does not ask
whether the names are names.  So settings that load may still make the
renaming of identity fields fail, on the documents that come to such a name.

* `policyFault?_of_load`: what loading makes sure of;
* `loaded_policy_is_refused_iff`: **a policy that loads is never refused if
  it chooses names only, and a document is refused where it does not**;
* `loaded_placeholder_is_refused`: settings that load, and a document that
  they make fail.
-/
import GraphMigrate.Proofs.Document.PolicyNames
import GraphMigrate.Settings.Load

namespace GraphMigrate

open Document (Field Schema isName)
open Settings (isBlankText)

/-! ### What loading makes sure of -/

lemma Settings.fault?_of_load {path contents : String} {settings : Settings}
    (h : Settings.load path contents = .ok settings) : settings.fault? = none := by
  rw [Settings.load] at h
  split at h
  · cases h
  split at h
  · cases h
  · rename_i found _
    rw [Settings.check] at h
    split at h
    · cases h
    · cases h
      assumption

/-- The names in a policy of settings that load are not blank. -/
lemma Settings.not_isBlankText_of_load {path contents : String} {settings : Settings}
    (h : Settings.load path contents = .ok settings) :
    isBlankText settings.ids.placeholder = false ∧
      ∀ rule ∈ settings.ids.rules, isBlankText rule.rename = false := by
  have hpolicy : policyFault? settings.ids = none := by
    have hfault := Settings.fault?_of_load h
    simp only [Settings.fault?, Option.orElse_eq_orElse, Option.orElse_eq_or,
      Option.or_eq_none_iff] at hfault
    exact hfault.2.2.2.2
  rw [Settings.policyFault?] at hpolicy
  split at hpolicy
  · cases hpolicy
  split at hpolicy
  · cases hpolicy
  · rename_i hplaceholder hrules
    refine ⟨Bool.eq_false_iff.mpr hplaceholder, fun rule hrule => Bool.eq_false_iff.mpr ?_⟩
    intro hblank
    exact hrules (List.any_eq_true.mpr ⟨rule, hrule, hblank⟩)

/-! ### Policies that no document refuses -/

/-- Renaming identity fields refuses a name of the policy in no document. -/
def IdPolicy.IsNeverRefused (policy : IdPolicy) : Prop :=
  ∀ (schema : Schema) (text : String) (document : Document),
    Document.parse? text.toList = some document → ∀ start tally name offset,
      ((identityRenamer policy schema).document start document).run tally ≠
        .error (.invalidName name offset)

lemma isName_of_isNeverRefused {policy : IdPolicy} (h : policy.IsNeverRefused)
    (schema : Schema) {text : String} {document : Document}
    (hparse : Document.parse? text.toList = some document) :
    ∀ field ∈ document.bareIds schema, isName (policyName policy schema field.1) = true := by
  have hrefused := identity_document_is_refused policy schema 0 document {}
  cases hfind : (document.bareIds schema).find? (fun field =>
      !isName (policyName policy schema field.1)) with
  | none => simpa using List.find?_eq_none.mp hfind
  | some field =>
      rw [hfind] at hrefused
      exact absurd hrefused (h schema text document hparse 0 {} _ _)

lemma isName_policyName {policy : IdPolicy} (hplaceholder : isName policy.placeholder = true)
    {schema : Schema} (hrules : ∀ type name,
      policy.resolve? (schema.hasField type) = some name → isName name = true)
    (parent : Option String) : isName (policyName policy schema parent) = true := by
  rw [policyName]
  cases hchosen : policyName? policy schema parent with
  | none => exact hplaceholder
  | some name =>
      obtain ⟨type, rfl, hname⟩ := Option.bind_eq_some_iff.mp hchosen
      exact hrules type name hname

/-- A policy is never refused exactly if all names that it chooses are valid. -/
lemma isNeverRefused_iff (policy : IdPolicy) :
    policy.IsNeverRefused ↔
      isName policy.placeholder = true ∧
        ∀ (schema : Schema) type name,
          policy.resolve? (schema.hasField type) = some name → isName name = true := by
  constructor
  · intro h
    constructor
    · exact isName_of_isNeverRefused h ⟨[], []⟩ parse?_bareQuery
        (none, ⟨2, none, "id", [], []⟩) List.mem_cons_self
    · intro schema type name hname
      obtain ⟨schema', hfields⟩ := exists_hasField_eq schema type
      have hchosen := isName_of_isNeverRefused h schema' parse?_bareFragment
        (some "T", ⟨18, none, "id", [], []⟩) List.mem_cons_self
      rwa [policyName, policyName?, Option.bind_some, hfields, hname] at hchosen
  · rintro ⟨hplaceholder, hrules⟩ schema text document hparse start tally name offset hrun
    have hrefused := identity_document_is_refused policy schema start document tally
    have hnone : (document.bareIds schema).find? (fun field =>
        !isName (policyName policy schema field.1)) = none :=
      List.find?_eq_none.mpr fun field _ => by
        rw [isName_policyName hplaceholder (hrules schema) field.1]
        exact Bool.false_ne_true
    rw [hnone, hrun] at hrefused
    obtain ⟨result, hresult⟩ := hrefused
    cases hresult

/-! ### Settings that load -/

/-- **Loading does not keep a policy from being refused.**  All that it makes
sure of is that no name in the policy is blank.  Renaming identity fields
fails at the first `id` for which the policy chooses what is no name, and for
no other reason.  So it never fails if the placeholder and all names that
rules give to some type are valid, and fails on some document if one of them
is not. -/
theorem loaded_policy_is_refused_iff {path contents : String} {settings : Settings}
    (h : Settings.load path contents = .ok settings) :
    (isBlankText settings.ids.placeholder = false ∧
      ∀ rule ∈ settings.ids.rules, isBlankText rule.rename = false) ∧
    (∀ (schema : Schema) (document : Document) (start : ℕ) (tally : Tally),
      match (document.bareIds schema).find? (fun field =>
          !isName (policyName settings.ids schema field.1)) with
      | none => ∃ result,
          ((identityRenamer settings.ids schema).document start document).run tally = .ok result
      | some (parent, field) =>
          ((identityRenamer settings.ids schema).document start document).run tally =
            .error (.invalidName (policyName settings.ids schema parent)
              (start + field.offset))) ∧
    (settings.ids.IsNeverRefused ↔
      isName settings.ids.placeholder = true ∧
        ∀ (schema : Schema) type name,
          settings.ids.resolve? (schema.hasField type) = some name → isName name = true) :=
  ⟨Settings.not_isBlankText_of_load h,
    fun schema document start tally =>
      identity_document_is_refused settings.ids schema start document tally,
    isNeverRefused_iff settings.ids⟩

/-- Settings with a rule whose name is not valid, which is never chosen since
the rule before it fits wherever it does. -/
def shadowedSettings : String :=
  "\x7b\"ids\": \x7b\"placeholder\": \"anyID\", \"rules\": [" ++
  "\x7b\"rename\": \"slug\", \"requires\": [\"slug\"]\x7d, " ++
  "\x7b\"rename\": \"slug or ID\", \"requires\": [\"internalID\", \"slug\"]\x7d]\x7d\x7d"

theorem shadowed_policy_is_never_refused :
    ∃ settings, Settings.load "codemods.json" shadowedSettings = .ok settings ∧
      settings.ids.rules.map (fun rule => isName rule.rename) = [true, false] ∧
      settings.ids.IsNeverRefused := by
  have hcheck : (Settings.load "codemods.json" shadowedSettings).toOption.any (fun settings =>
      settings.ids == ⟨[⟨"slug", ["slug"]⟩, ⟨"slug or ID", ["internalID", "slug"]⟩], "anyID"⟩) =
        true := by
    decide +kernel
  obtain ⟨settings, hload, hids⟩ := Option.any_eq_true _ _ |>.mp hcheck
  have hpolicy := (loaded_policy_is_refused_iff (eq_ok_of_toOption hload)).2.2
  rw [eq_of_beq hids] at hpolicy
  refine ⟨settings, eq_ok_of_toOption hload, by rw [eq_of_beq hids]; decide, ?_⟩
  rw [eq_of_beq hids, hpolicy]
  refine ⟨by decide, fun schema type name hname => ?_⟩
  cases hslug : schema.hasField type "slug" with
  | true =>
      simp only [IdPolicy.resolve?, IdRule.fits, List.find?_cons, List.all_cons, List.all_nil,
        hslug, Bool.and_self, Option.map_some, Option.some.injEq] at hname
      subst hname
      decide
  | false =>
      simp [IdPolicy.resolve?, IdRule.fits, hslug] at hname

/-- Settings with a placeholder of several words. -/
def wordySettings : String :=
  "\x7b\"ids\": \x7b\"placeholder\": \"slug or ID\"\x7d\x7d"

/-- A schema with a type that has no identity fields. -/
def namedArtistSchema : String :=
  "type Query \x7b artist: Artist \x7d type Artist \x7b name: String \x7d"

/-- A placeholder of several words is not blank, so settings with it load.  No
rule fits a type without a slug and an internal identifier, and an `id` on it
is refused. -/
theorem loaded_placeholder_is_refused :
    isName "slug or ID" = false ∧
    ∃ settings schema document,
      Settings.load "codemods.json" wordySettings = .ok settings ∧
      Schema.parse? namedArtistSchema = some schema ∧
      Document.parse? "\x7b artist \x7b id \x7d \x7d".toList = some document ∧
      ((identityRenamer settings.ids schema).document 18 document).run {} =
        .error (.invalidName "slug or ID" 29) := by
  have hcheck : (Settings.load "codemods.json" wordySettings).toOption.any (fun settings =>
        (Schema.parse? namedArtistSchema).any fun schema =>
          (Document.parse? "\x7b artist \x7b id \x7d \x7d".toList).any fun document =>
            match ((identityRenamer settings.ids schema).document 18 document).run {} with
            | .ok _ => false
            | .error e => e == .invalidName "slug or ID" 29) = true := by
    decide +kernel
  obtain ⟨settings, hload, hrest⟩ := Option.any_eq_true _ _ |>.mp hcheck
  obtain ⟨schema, hschema, hrest⟩ := Option.any_eq_true _ _ |>.mp hrest
  obtain ⟨document, hparse, hrun⟩ := Option.any_eq_true _ _ |>.mp hrest
  refine ⟨by decide, settings, schema, document, eq_ok_of_toOption hload, hschema, hparse, ?_⟩
  split at hrun
  · cases hrun
  · rename_i e hrefused
    rw [hrefused, eq_of_beq hrun]

end GraphMigrate
