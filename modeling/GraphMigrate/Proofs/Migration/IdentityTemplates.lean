/-
Templates with identity fields.

The renamer of identity fields counts an `id` that keeps its name, too.  So it
prints a document anew in which nothing changes, unless the policy never chooses
`id`.

* `migrateTemplate_identityRenamer`: what is drafted for a template;
* `IdPolicy.ReprintsOnlyChanges`: policies that print anew only what changes;
* `kept_ids_are_reprinted_iff`: **these are the policies that never choose `id`**.
-/
import GraphMigrate.Proofs.Document.KeptIds
import GraphMigrate.Proofs.Migration.CamelCaseTemplates
import GraphMigrate.Settings.Load

namespace GraphMigrate

open Document (Schema)
open Script (Template templates)

/-- The draft for a template whose identity fields are renamed: where no name
changes it is printed anew all the same if a field called `id` keeps its name. -/
lemma migrateTemplate_identityRenamer {policy : IdPolicy} {schema : Schema} {template : Template}
    {document renamed : Document} {tally : Tally} (hplain : template.interpolated = false)
    (hdocument : template.document = .ok document)
    (hrun : ((identityRenamer policy schema).document template.segment.start document).run {} =
      .ok (renamed, tally)) :
    migrateTemplate (identityRenamer policy schema) (fun _ _ => []) template = .ok
      (if document.names = renamed.names ∧ document.keptIds policy schema = [] then
        .ofNotes tally.notes
      else if fitsTemplate renamed.written.toList then
        ⟨[.replace template.segment renamed.written], tally.notes⟩
      else .ofNotes tally.notes ++ .warn unprintableNote template.span) := by
  obtain ⟨-, hlength, htally⟩ := run_identified policy schema hrun
  have hzero : tally.renamed = 0 ↔
      document.names = renamed.names ∧ document.keptIds policy schema = [] := by
    rw [htally, Nat.add_eq_zero_iff, countChanged_eq_zero_iff hlength, List.length_eq_zero_iff]
  rw [migrateTemplate_of_run hplain hdocument hrun]
  simp only [hzero]

/-- Renaming identity fields after a policy prints only such templates anew in
which a name changes. -/
def IdPolicy.ReprintsOnlyChanges (policy : IdPolicy) : Prop :=
  ∀ (schema : Schema) (template : Template) (document renamed : Document) (tally : Tally)
    (draft : Draft), template.document = .ok document →
    ((identityRenamer policy schema).document template.segment.start document).run {} =
      .ok (renamed, tally) →
    migrateTemplate (identityRenamer policy schema) (fun _ _ => []) template = .ok draft →
      draft.edits ≠ [] → document.names ≠ renamed.names

section Policies

variable {policy : IdPolicy}

/-- A document with an `id` that keeps its name is printed anew though nothing
changes in it. -/
lemma not_reprintsOnlyChanges (schema : Schema) {text : String} {document : Document}
    (hparse : Document.parse? text.toList = some document)
    (hsame : document.identified policy schema = document)
    (hbare : ∀ field ∈ document.bareIds schema, policyName policy schema field.1 = "id")
    (hsome : document.bareIds schema ≠ [])
    (hfits : fitsTemplate document.written.toList = true) : ¬ policy.ReprintsOnlyChanges := by
  intro h
  let template : Template := ⟨"graphql", text, ⟨0, 0⟩, ⟨0, 0⟩, false⟩
  have hdocument : template.document = .ok document := by
    rw [Script.Template.document, hparse]
  have hrun := identity_document_is_refused policy schema 0 document {}
  rw [List.find?_eq_none.mpr fun field hfield => by rw [hbare field hfield]; decide] at hrun
  obtain ⟨⟨renamed, tally⟩, hrun⟩ := hrun
  obtain rfl : renamed = document := (run_identified policy schema hrun).1.trans hsame
  have hkept : renamed.keptIds policy schema ≠ [] := by
    rwa [Document.keptIds, List.filter_eq_self.mpr fun field hfield => by
      rw [hbare field hfield]; rfl]
  have hdraft := @migrateTemplate_identityRenamer policy schema template renamed renamed tally rfl
    hdocument hrun
  rw [if_neg fun hnone => hkept hnone.2, if_pos hfits] at hdraft
  exact h schema template renamed renamed tally _ hdocument hrun hdraft (List.cons_ne_nil _ _) rfl

/-- With `id` for its placeholder, a policy prints a query on a type that is not known
anew. -/
lemma placeholder_ne_of_reprintsOnlyChanges (h : policy.ReprintsOnlyChanges) :
    policy.placeholder ≠ "id" := by
  intro hplaceholder
  have hname : policyName policy ⟨[], []⟩ none = "id" := hplaceholder
  refine not_reprintsOnlyChanges ⟨[], []⟩ parse?_bareQuery ?_ ?_ (List.cons_ne_nil _ _)
    (by decide +kernel) h
  · change (⟨[.operation ⟨.query, none, [], [], [.field ⟨2, none,
      Document.identityName policy ⟨[], []⟩ none "id", [], []⟩ []]⟩]⟩ : Document) = _
    rw [identityName_id, hname]
    rfl
  · exact List.forall_mem_singleton.mpr hname

/-- With a rule that chooses `id` for a type, it prints a fragment on that type anew. -/
lemma resolve?_ne_of_reprintsOnlyChanges (h : policy.ReprintsOnlyChanges) (schema : Schema)
    (type : String) : policy.resolve? (schema.hasField type) ≠ some "id" := by
  intro hname
  obtain ⟨schema', hfields⟩ := exists_hasField_eq schema type
  have hname' : policyName policy schema' (some "T") = "id" := by
    rw [policyName, policyName?, Option.bind_some, hfields, hname, Option.getD_some]
  refine not_reprintsOnlyChanges schema' parse?_bareFragment ?_ ?_ (List.cons_ne_nil _ _)
    (by decide +kernel) h
  · change (⟨[.fragment ⟨"F", "T", [], [.field ⟨18, none,
      Document.identityName policy schema' (some "T") "id", [], []⟩ []]⟩]⟩ : Document) = _
    rw [identityName_id, hname']
    rfl
  · exact List.forall_mem_singleton.mpr hname'

/-- A policy that never chooses `id` keeps none. -/
lemma keptIds_eq_nil (hplaceholder : policy.placeholder ≠ "id")
    (hrules : ∀ (schema : Schema) type, policy.resolve? (schema.hasField type) ≠ some "id")
    (schema : Schema) (document : Document) : document.keptIds policy schema = [] := by
  refine List.filter_eq_nil_iff.mpr fun field _ hchosen => ?_
  rw [beq_iff_eq, policyName] at hchosen
  cases hname : policyName? policy schema field.1 with
  | none => exact hplaceholder (by rwa [hname] at hchosen)
  | some name =>
      obtain ⟨type, -, hresolved⟩ := Option.bind_eq_some_iff.mp hname
      rw [hname, Option.getD_some] at hchosen
      exact hrules schema type (hchosen ▸ hresolved)

/-- A policy prints anew only what changes exactly if it never chooses `id`. -/
lemma reprintsOnlyChanges_iff : policy.ReprintsOnlyChanges ↔
    policy.placeholder ≠ "id" ∧
      ∀ (schema : Schema) type, policy.resolve? (schema.hasField type) ≠ some "id" := by
  refine ⟨fun h => ⟨placeholder_ne_of_reprintsOnlyChanges h,
    resolve?_ne_of_reprintsOnlyChanges h⟩, ?_⟩
  rintro ⟨hplaceholder, hrules⟩ schema template document renamed tally draft hdocument hrun
    hdraft hedits hsame
  have hkept := keptIds_eq_nil hplaceholder hrules schema document
  cases hplain : template.interpolated with
  | true =>
      rw [migrateTemplate, hplain, if_pos rfl] at hdraft
      cases hdraft
      exact hedits rfl
  | false =>
      rw [migrateTemplate_identityRenamer hplain hdocument hrun, if_pos ⟨hsame, hkept⟩] at hdraft
      cases hdraft
      exact hedits rfl

end Policies

/-- **A template is printed anew if a name in it changes, or an `id` keeps its
name.**  What is counted are the names of fields and arguments that change, and the
fields called `id` for which the policy chooses `id`.  A template in which there is
neither is left alone; any other is printed anew if the printed text can stand in a
template.  So a policy prints anew only what changes exactly if neither its
placeholder is `id` nor the name that its rules give to the fields of some type. -/
theorem kept_ids_are_reprinted_iff (policy : IdPolicy) :
    (∀ (schema : Schema) (template : Template) (document renamed : Document) (tally : Tally),
      template.interpolated = false → template.document = .ok document →
      ((identityRenamer policy schema).document template.segment.start document).run {} =
        .ok (renamed, tally) →
          document.names.length = renamed.names.length ∧
          tally.renamed = countChanged document.names renamed.names +
            (document.keptIds policy schema).length ∧
          migrateTemplate (identityRenamer policy schema) (fun _ _ => []) template = .ok
            (if document.names = renamed.names ∧ document.keptIds policy schema = [] then
              .ofNotes tally.notes
            else if fitsTemplate renamed.written.toList then
              ⟨[.replace template.segment renamed.written], tally.notes⟩
            else .ofNotes tally.notes ++ .warn unprintableNote template.span)) ∧
    (policy.ReprintsOnlyChanges ↔ policy.placeholder ≠ "id" ∧
      ∀ (schema : Schema) type, policy.resolve? (schema.hasField type) ≠ some "id") := by
  refine ⟨fun schema template document renamed tally hplain hdocument hrun => ?_,
    reprintsOnlyChanges_iff⟩
  obtain ⟨-, hlength, htally⟩ := run_identified policy schema hrun
  exact ⟨hlength, by rw [htally], migrateTemplate_identityRenamer hplain hdocument hrun⟩

/-- The artist in a template at the start of a script. -/
def artistTemplate : Template := ⟨"graphql", artistText, ⟨8, 90⟩, ⟨0, 91⟩, false⟩

theorem artist_is_reprinted_for_its_changes :
    ∃ schema document renamed tally, Schema.parse? saleSchemaText = some schema ∧
      artistTemplate.document = .ok document ∧
      ((identityRenamer {} schema).document 8 document).run {} = .ok (renamed, tally) ∧
      tally.renamed = 7 ∧ document.keptIds {} schema = [] ∧
      countChanged document.names renamed.names = 7 ∧
      migrateTemplate (identityRenamer {} schema) (fun _ _ => []) artistTemplate =
        .ok ⟨[.replace artistTemplate.segment artistIdentified], tally.notes⟩ ∧
      ({} : IdPolicy).ReprintsOnlyChanges := by
  have hcheck : (Schema.parse? saleSchemaText).any (fun schema =>
      artistTemplate.document.toOption.any fun document =>
        (((identityRenamer {} schema).document 8 document).run {}).toOption.any fun renamed =>
          renamed.2.renamed == 7 && (document.keptIds {} schema).isEmpty &&
            renamed.1.written == artistIdentified) = true := by
    decide +kernel
  obtain ⟨schema, hschema, hrest⟩ := Option.any_eq_true _ _ |>.mp hcheck
  obtain ⟨document, hdocument, hrun⟩ := Option.any_eq_true _ _ |>.mp hrest
  obtain ⟨⟨renamed, tally⟩, hok, hresult⟩ := Option.any_eq_true _ _ |>.mp hrun
  simp only [Bool.and_eq_true, beq_iff_eq, List.isEmpty_iff] at hresult
  obtain ⟨⟨hcount, hkept⟩, hwritten⟩ := hresult
  replace hdocument := eq_ok_of_toOption hdocument
  replace hok := eq_ok_of_toOption hok
  obtain ⟨htemplates, hpolicy⟩ := kept_ids_are_reprinted_iff {}
  obtain ⟨-, hchanged, hdraft⟩ := htemplates schema artistTemplate document renamed tally rfl
    hdocument hok
  rw [hcount, hkept, List.length_nil, Nat.add_zero] at hchanged
  have hnames : document.names ≠ renamed.names := fun hsame => by
    rw [hsame, countChanged_self] at hchanged
    cases hchanged
  refine ⟨schema, document, renamed, tally, hschema, hdocument, hok, hcount, hkept,
    hchanged.symm, ?_, hpolicy.mpr ⟨by decide, fun schema type hname => ?_⟩⟩
  · rw [hdraft, if_neg fun h => hnames h.1, hwritten, if_pos (by decide +kernel)]
  · obtain ⟨rule, hrule, hrename⟩ := Option.map_eq_some_iff.mp hname
    have hmem := List.mem_of_find?_eq_some hrule
    simp only [List.mem_cons, List.not_mem_nil, or_false] at hmem
    rcases hmem with rfl | rfl <;> exact absurd hrename (by decide)

/-- Settings with a rule that keeps `id` where a type has it. -/
def keepingSettings : String :=
  "\x7b\"ids\": \x7b\"rules\": [\x7b\"rename\": \"id\", \"requires\": [\"id\"]\x7d]\x7d\x7d"

/-- A schema in which artists have an `id`. -/
def ownIdSchemaText : String :=
  "type Query \x7b artist: Artist \x7d\ntype Artist \x7b id: ID \x7d\n"

/-- A script with a document that selects it. -/
def ownIdFile : SourceFile := ⟨"const q = graphql`\x7b artist \x7b id \x7d \x7d`", .typeScript⟩

/-- The document as it is printed. -/
def ownIdPrinted : String := "\x7b\n  artist \x7b\n    id\n  \x7d\n\x7d\n"

/-- No name changes in the document, and it is printed anew. -/
theorem unchanged_document_is_reprinted :
    ∃ settings schema source template document renamed tally,
      Settings.load "codemods.json" keepingSettings = .ok settings ∧
      Schema.parse? ownIdSchemaText = some schema ∧ ownIdFile.parse = .ok source ∧
      templates ["graphql"] source = [template] ∧ template.document = .ok document ∧
      ((identityRenamer settings.ids schema).document template.segment.start document).run {} =
        .ok (renamed, tally) ∧
      tally.renamed = 1 ∧ document.names = ["artist", "id"] ∧ renamed.names = ["artist", "id"] ∧
      migrateIds { ids := settings.ids, schema := some schema } ownIdFile =
        .ok ⟨"const q = graphql`" ++ ownIdPrinted ++ "`", [], true⟩ := by
  have hcheck : (Settings.load "codemods.json" keepingSettings).toOption.any (fun settings =>
      (Schema.parse? ownIdSchemaText).any fun schema =>
        ownIdFile.parse.toOption.any fun source =>
          (templates ["graphql"] source).head?.any fun template =>
            templates ["graphql"] source == [template] &&
            template.document.toOption.any fun document =>
              (((identityRenamer settings.ids schema).document template.segment.start
                document).run {}).toOption.any fun renamed =>
                renamed.2.renamed == 1 && document.names == ["artist", "id"] &&
                  renamed.1.names == ["artist", "id"] &&
                  (identityDraft { ids := settings.ids, schema := some schema } schema
                    source).toOption.any (· == .replace ⟨18, 35⟩ ownIdPrinted)) = true := by
    decide +kernel
  obtain ⟨settings, hsettings, hrest⟩ := Option.any_eq_true _ _ |>.mp hcheck
  obtain ⟨schema, hschema, hrest⟩ := Option.any_eq_true _ _ |>.mp hrest
  obtain ⟨source, hsource, hrest⟩ := Option.any_eq_true _ _ |>.mp hrest
  obtain ⟨template, -, hrest⟩ := Option.any_eq_true _ _ |>.mp hrest
  rw [Bool.and_eq_true, beq_iff_eq] at hrest
  obtain ⟨hone, hrest⟩ := hrest
  obtain ⟨document, hdocument, hrun⟩ := Option.any_eq_true _ _ |>.mp hrest
  obtain ⟨⟨renamed, tally⟩, hok, hresult⟩ := Option.any_eq_true _ _ |>.mp hrun
  simp only [Bool.and_eq_true, beq_iff_eq] at hresult
  obtain ⟨⟨⟨hcount, hold⟩, hnew⟩, hdraft⟩ := hresult
  obtain ⟨draft, hdraft, heq⟩ := Option.any_eq_true _ _ |>.mp hdraft
  obtain rfl := eq_of_beq heq
  refine ⟨settings, schema, source, template, document, renamed, tally,
    eq_ok_of_toOption hsettings, hschema, eq_ok_of_toOption hsource, hone,
    eq_ok_of_toOption hdocument, eq_ok_of_toOption hok, hcount, hold, hnew, ?_⟩
  have hmention : mentionsTag ["graphql"] ownIdFile.chars = true := by decide +kernel
  rw [@migrateIds_eq { ids := settings.ids, schema := some schema } schema rfl, hmention,
    if_pos rfl, readAndMigrateIds, eq_ok_of_toOption hsource]
  change (identityDraft { ids := settings.ids, schema := some schema } schema source >>= _) = _
  rw [eq_ok_of_toOption hdraft]
  refine congrArg Except.ok ?_
  have happlied := @applyEdits_singleton ownIdFile.text (.replace ⟨18, 35⟩ ownIdPrinted)
    (by decide +kernel)
  have hspliced : splice 0 ownIdFile.text.toList [.replace ⟨18, 35⟩ ownIdPrinted] =
      ("const q = graphql`" ++ ownIdPrinted ++ "`").toList := by
    decide +kernel
  rw [hspliced, String.ofList_toList] at happlied
  rw [Draft.finish, Draft.replace, Draft.ofEdits, happlied]
  rfl

end GraphMigrate
