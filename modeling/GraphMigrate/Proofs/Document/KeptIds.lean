/-
Identity fields that keep their name.

A policy may choose `id` in place of `id`.  The renamer counts that as a rename
like any other, so it counts the names that change and besides them the fields
that keep their name.

* `Document.keptIds`: the fields called `id` that are given their own name;
* `isIdentity_eq`: an identity field gets another name or is one of those;
* `run_identified`: **what is counted are the names that change, and the fields
  that keep their name**.
-/
import GraphMigrate.Proofs.Document.ChangedNames
import GraphMigrate.Proofs.Document.PolicyNames

namespace GraphMigrate

open Document (Argument Definition Directive Field Schema Selection TypedSelection countIdentified
  identityName isIdentity marked)

/-- The fields called `id` that a policy gives their own name. -/
def Document.keptIds (policy : IdPolicy) (schema : Schema) (document : Document) :
    List (Option String × Field) :=
  (document.bareIds schema).filter fun field => policyName policy schema field.1 == "id"

section Identity

lemma countChanged_identified (arguments : List Argument) :
    countChanged (arguments.map (·.name)) ((arguments.map Argument.identified).map (·.name)) =
      countIdentified arguments := by
  have hone (argument : Argument) :
      (argument.name != argument.identified.name) = (argument.name == "__id") := by
    rw [Argument.identified]
    by_cases h : argument.name = "__id" <;> simp [h]
  rw [List.map_map, countChanged_map, countIdentified]
  simp only [Function.comp_apply, hone]

lemma marked_identified (directives : List Directive) :
    marked (directives.map Directive.identified) =
      (marked directives).map Argument.identified := by
  rw [marked, List.flatMap_map, marked, List.map_flatMap]
  rfl

variable (policy : IdPolicy) (schema : Schema)

lemma appliedArguments_identified (parent : Option String) (field : Field) :
    (field.identified policy schema parent).appliedArguments =
      field.appliedArguments.map Argument.identified := by
  rw [Field.appliedArguments, Field.appliedArguments, List.map_append, ← marked_identified]
  rfl

/-- Of the names at a field, its own may change, and those of arguments do. -/
lemma countChanged_field_identified (field : Option String × Field) :
    countChanged (field.2.visitedNames.map (·.2))
        ((field.2.identified policy schema field.1).visitedNames.map (·.2)) =
      (if field.2.name ≠ identityName policy schema field.1 field.2.name then 1 else 0) +
        countIdentified field.2.appliedArguments := by
  rw [Field.map_visitedNames, Field.map_visitedNames, appliedArguments_identified,
    countChanged_cons, countChanged_identified]
  rfl

lemma length_visitedNames_identified (field : Option String × Field) :
    (field.2.visitedNames.map (·.2)).length =
      ((field.2.identified policy schema field.1).visitedNames.map (·.2)).length := by
  simp only [Field.map_visitedNames, appliedArguments_identified, List.length_cons,
    List.length_map]

lemma countChanged_fields_identified (fields : List (Option String × Field)) :
    countChanged (fields.flatMap fun field => field.2.visitedNames.map (·.2))
        (fields.flatMap fun field =>
          (field.2.identified policy schema field.1).visitedNames.map (·.2)) =
      fields.countP (fun field =>
          field.2.name != identityName policy schema field.1 field.2.name) +
        countIdentified (fields.flatMap fun field => field.2.appliedArguments) := by
  rw [(countChanged_flatMap (length_visitedNames_identified policy schema) fields).1]
  induction fields with
  | nil => rfl
  | cons field fields ih =>
      rw [List.map_cons, List.sum_cons, ih, countChanged_field_identified, List.countP_cons,
        List.flatMap_cons, countIdentified_append]
      simp only [bne_iff_ne]
      omega

lemma fieldsAll_selections (definition : Definition) :
    Selection.fieldsAll definition.selections = (definition.typedFields schema).map (·.2) := by
  cases definition with
  | operation o => exact (Selection.fieldsAll_typed schema _ o.selections).symm
  | fragment f => exact (Selection.fieldsAll_typed schema _ f.selections).symm
  | type t => rfl
  | directive d => rfl
  | schema s => rfl

lemma fieldsAll_selections_identified (definition : Definition) :
    Selection.fieldsAll (definition.identified policy schema).selections =
      (definition.typedFields schema).map fun field => field.2.identified policy schema field.1 := by
  cases definition with
  | operation o => exact TypedSelection.fieldsAll_replaced _ _
  | fragment f => exact TypedSelection.fieldsAll_replaced _ _
  | type t => rfl
  | directive d => rfl
  | schema s => rfl

lemma marks_identified (definition : Definition) :
    (definition.identified policy schema).marks = definition.marks.map Directive.identified := by
  cases definition <;> rfl

lemma systemMarks_identified (definition : Definition) :
    (definition.identified policy schema).systemMarks = definition.systemMarks := by
  cases definition <;> rfl

lemma countChanged_definition_identified (definition : Definition) :
    countChanged (definition.visitedNames.map (·.2))
        ((definition.identified policy schema).visitedNames.map (·.2)) =
      (definition.typedFields schema).countP (fun field =>
          field.2.name != identityName policy schema field.1 field.2.name) +
        countIdentified (definition.appliedArguments schema) := by
  rw [Definition.map_visitedNames, Definition.map_visitedNames, marks_identified,
    marked_identified, countChanged_append (by simp only [List.length_map]),
    countChanged_identified, fieldsAll_selections schema, fieldsAll_selections_identified,
    List.flatMap_map, List.flatMap_map, countChanged_fields_identified,
    Definition.appliedArguments, countIdentified_append, Nat.add_left_comm]

lemma length_definition_identified (definition : Definition) :
    (definition.visitedNames.map (·.2)).length =
      ((definition.identified policy schema).visitedNames.map (·.2)).length := by
  rw [Definition.map_visitedNames, Definition.map_visitedNames, marks_identified,
    marked_identified, fieldsAll_selections schema, fieldsAll_selections_identified,
    List.flatMap_map, List.flatMap_map, List.length_append, List.length_append,
    (countChanged_flatMap (length_visitedNames_identified policy schema) _).2]
  simp only [List.length_map]

lemma countChanged_visited_identified (document : Document) :
    countChanged (document.visitedNames.map (·.2))
        ((document.identified policy schema).visitedNames.map (·.2)) =
      (document.typedFields schema).countP (fun field =>
          field.2.name != identityName policy schema field.1 field.2.name) +
        countIdentified (document.appliedArguments schema) ∧
      (document.visitedNames.map (·.2)).length =
        ((document.identified policy schema).visitedNames.map (·.2)).length := by
  obtain ⟨hcount, hlength⟩ := countChanged_flatMap (length_definition_identified policy schema)
    document.definitions
  rw [Document.map_visitedNames, Document.map_visitedNames, Document.identified,
    List.flatMap_map]
  refine ⟨?_, hlength⟩
  rw [hcount, Document.typedFields, List.countP_flatMap, countIdentified,
    Document.appliedArguments, List.countP_flatMap, ← List.sum_map_add]
  simp only [countChanged_definition_identified, countIdentified, Function.comp_apply]

lemma identityName_id (parent : Option String) :
    identityName policy schema parent "id" = policyName policy schema parent := by
  rw [policyName, policyName?_eq]
  rfl

/-- An identity field keeps its name exactly if it is an `id` for which the policy
chooses that. -/
lemma isIdentity_eq (field : Option String × Field) :
    (if isIdentity field.2.name then 1 else 0) =
      (if field.2.name != identityName policy schema field.1 field.2.name then 1 else 0) +
        if field.2.name == "id" && policyName policy schema field.1 == "id" then 1 else 0 := by
  by_cases hbare : field.2.name = "id"
  · rw [hbare, identityName_id, bne_comm]
    by_cases hkept : policyName policy schema field.1 = "id" <;> simp [hkept, isIdentity]
  · by_cases hown : field.2.name = "__id"
    · simp [hown, isIdentity, identityName]
    · by_cases hinternal : field.2.name = "_id" <;>
        simp [isIdentity, identityName, hbare, hown, hinternal]

lemma countP_isIdentity (fields : List (Option String × Field)) :
    fields.countP (fun field => isIdentity field.2.name) =
      fields.countP (fun field =>
          field.2.name != identityName policy schema field.1 field.2.name) +
        fields.countP (fun field =>
          field.2.name == "id" && policyName policy schema field.1 == "id") := by
  induction fields with
  | nil => rfl
  | cons field fields ih =>
      rw [List.countP_cons, List.countP_cons, List.countP_cons, ih,
        isIdentity_eq policy schema field]
      omega

lemma length_keptIds (document : Document) :
    (document.keptIds policy schema).length = (document.typedFields schema).countP
      fun field => field.2.name == "id" && policyName policy schema field.1 == "id" := by
  rw [Document.keptIds, Document.bareIds, List.filter_filter, List.countP_eq_length_filter]
  simp only [Bool.and_comm]

/-- What the renamer of identity fields counts are the names that it changes, and
the fields called `id` that keep their name. -/
lemma run_identified {start : ℕ} {document renamed : Document} {tally : Tally}
    (h : ((identityRenamer policy schema).document start document).run {} =
      .ok (renamed, tally)) :
    renamed = document.identified policy schema ∧
      document.names.length = renamed.names.length ∧
      tally = ⟨countChanged document.names renamed.names +
          (document.keptIds policy schema).length,
        (document.typedFields schema).filterMap
          (Document.placeholderWarning? policy schema start)⟩ := by
  obtain ⟨-, -, hpassed⟩ := Renamer.ensures_document_settled
    (identityRenamer_settlesAtOnce policy schema) start document {} trivial _ _ h
  obtain ⟨rfl, rfl⟩ := yields_document policy schema start document {} renamed tally h
  have hkept : (document.identified policy schema).keptArguments = document.keptArguments := by
    rw [Document.keptArguments, Document.keptArguments, hpassed, Document.identified,
      List.flatMap_map]
    simp only [systemMarks_identified]
  obtain ⟨hcount, hlength⟩ := countChanged_visited_identified policy schema document
  refine ⟨rfl, ?_, ?_⟩
  · rw [Document.names, Document.names, hkept, List.length_append, List.length_append, hlength]
  · rw [Document.names, Document.names, hkept, countChanged_append hlength, hcount,
      countChanged_self, length_keptIds, countP_isIdentity policy schema]
    simp only [Tally.plus, List.nil_append, Nat.zero_add, Tally.mk.injEq, and_true]
    omega

end Identity

end GraphMigrate
