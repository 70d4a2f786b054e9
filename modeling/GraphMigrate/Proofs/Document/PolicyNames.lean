/-
The names that an identity policy puts into documents.

Of all names that renaming identity fields asks for, the policy chooses those
in place of `id`.  The others are fixed and valid, so renaming fails exactly
where the policy chose what is no name.

* `policyName`: the name that a policy chooses for `id` on a type;
* `Document.bareIds`: the fields called `id` in a document;
* `asks_typedSelection`: a walk through a selection asks for what its fields
  ask for on the types noted at them;
* `asks_identity_document`: the names that renaming identity fields asks for;
* `identity_document_is_refused`: what comes of it;
* `exists_hasField_eq`: types are told apart by their fields alone.
-/
import GraphMigrate.Proofs.Document.Identity
import GraphMigrate.Proofs.Document.RefusedNames

namespace GraphMigrate

open Document (Argument Definition Directive Field Schema Selection TypedSelection isName)

/-- The name that a policy chooses for `id` on a type. -/
def policyName (policy : IdPolicy) (schema : Schema) (parent : Option String) : String :=
  (policyName? policy schema parent).getD policy.placeholder

/-- The fields called `id` with the types that they are selected on. -/
def Document.bareIds (schema : Schema) (document : Document) : List (Option String × Field) :=
  (document.typedFields schema).filter (·.2.name == "id")

/-! ### What one field asks for -/

/-- The name that a policy asks for in place of the name of a field, in a
document that starts at an offset. -/
def policyAsks (policy : IdPolicy) (schema : Schema) (start : ℕ)
    (field : Option String × Field) : List (String × ℕ) :=
  if field.2.name = "id" then [(policyName policy schema field.1, start + field.2.offset)] else []

/-- A step for each member of a list asks for nothing if none of them does. -/
lemma Renaming.Asks.mapM_of_nil {α β : Type} {step : α → Renaming β}
    (h : ∀ a, (step a).Asks []) (as : List α) : Renaming.Asks (as.mapM step) [] := by
  have hall := Renaming.Asks.mapM h as
  rwa [List.flatMap_eq_nil_iff.mpr fun _ _ => rfl] at hall

section Fields

variable (policy : IdPolicy) (schema : Schema) (start : ℕ)

/-- A valid name is never refused. -/
lemma asks_toName_of_isName {name : String} (hname : isName name = true) (offset : ℕ) :
    (Renaming.toName name offset).Asks [] := by
  intro tally
  rw [Renaming.asks_toName name offset tally]
  exact if_pos hname

lemma asks_identityArgument (offset : ℕ) (argument : Argument) :
    ((identityRenamer policy schema).argument offset argument).Asks [] := by
  rw [Renamer.argument]
  by_cases hname : argument.name = "__id"
  · simp only [identityRenamer, identityArgument?, hname, beq_self_eq_true, if_true]
    exact (asks_toName_of_isName (by decide) offset).andThen _
  · simp only [identityRenamer, identityArgument?, beq_iff_eq, hname, if_false]
    exact .pure argument

lemma asks_identityArguments (offset : ℕ) (arguments : List Argument) :
    Renaming.Asks (arguments.mapM ((identityRenamer policy schema).argument offset)) [] :=
  .mapM_of_nil (asks_identityArgument policy schema offset) arguments

lemma asks_identityDirectives (offset : ℕ) (directives : List Directive) :
    Renaming.Asks (directives.mapM ((identityRenamer policy schema).directive offset)) [] := by
  refine .mapM_of_nil (fun directive => ?_) directives
  rw [Renamer.directive]
  exact (asks_identityArguments policy schema offset directive.arguments).andThen _

lemma asks_withName (offset : ℕ) (field : Field) (name : String) :
    (withName offset field (some name)).Asks [(name, offset)] :=
  (Renaming.asks_toName name offset).andThen _

lemma asks_withName_of_isName (offset : ℕ) (field : Field) {name : String}
    (hname : isName name = true) : (withName offset field (some name)).Asks [] :=
  (asks_toName_of_isName hname offset).andThen _

/-- What becomes of `id` is chosen without a failure. -/
lemma idReplacement_apply (parent : Option String) (offset : ℕ) (tally : Tally) :
    ∃ tally', idReplacement policy schema parent offset tally =
      .ok (policyName policy schema parent, tally') := by
  rw [idReplacement, policyName]
  cases policyName? policy schema parent with
  | none => exact ⟨_, rfl⟩
  | some name => exact ⟨_, rfl⟩

lemma asks_identityField (parent : Option String) (field : Field) :
    (identityField policy schema parent (start + field.offset) field).Asks
      (policyAsks policy schema start (parent, field)) := by
  rw [identityField_eq, identityName?, policyAsks]
  by_cases hown : field.name = "__id"
  · rw [if_pos (by simp [hown]), pure_bind, if_neg (by simp [hown])]
    exact asks_withName_of_isName _ field (by decide)
  by_cases hinternal : field.name = "_id"
  · rw [if_neg (by simp [hinternal]), if_pos (by simp [hinternal]), pure_bind,
      if_neg (by simp [hinternal])]
    exact asks_withName_of_isName _ field (by decide)
  rw [if_neg (by simpa using hown), if_neg (by simpa using hinternal)]
  by_cases hbare : field.name = "id"
  · rw [if_pos (by simpa using hbare), if_pos hbare]
    intro tally
    obtain ⟨tally', hchosen⟩ :=
      idReplacement_apply policy schema parent (start + field.offset) tally
    rw [← asks_withName (start + field.offset) field (policyName policy schema parent) tally']
    have hnamed : (idReplacement policy schema parent (start + field.offset) >>= fun name =>
        withName (start + field.offset) field (some name)) tally =
          withName (start + field.offset) field (some (policyName policy schema parent))
            tally' := by
      change (idReplacement policy schema parent (start + field.offset) tally >>= fun r => _) = _
      rw [hchosen]
      rfl
    simp only [bind_assoc, pure_bind]
    rw [hnamed]
  · rw [if_neg (by simpa using hbare), if_neg hbare, pure_bind]
    exact .pure field

lemma asks_identityVisit (parent : Option String) (field : Field) :
    ((identityRenamer policy schema).visit start parent field).Asks
      (policyAsks policy schema start (parent, field)) := by
  rw [Renamer.visit, ← List.append_nil (policyAsks policy schema start (parent, field))]
  exact (asks_identityField policy schema start parent field).bind fun named =>
    (asks_identityArguments policy schema _ field.arguments).bind fun arguments =>
      (asks_identityDirectives policy schema _ field.directives).andThen _

end Fields

/-! ### The tree -/

section Walk

variable {schema : Schema} {visit : Option String → Field → Renaming Field}
  {asked : Option String × Field → List (String × ℕ)}

mutual

/-- The walk through a selection, if what each visit of a field asks for
depends on the field and the type. -/
lemma asks_typedSelection
    (hvisit : ∀ parent field, (visit parent field).Asks (asked (parent, field))) :
    ∀ (parent : Option String) (selection : Selection),
      (selection.mapFields schema.innerType? visit parent).Asks
        ((selection.typed schema parent).fields.flatMap asked)
  | parent, .field head inner => by
      rw [Selection.mapFields, Selection.typed, TypedSelection.fields, List.flatMap_cons]
      exact (hvisit parent head).bind fun visited =>
        (asks_typedSelections hvisit _ inner).andThen _
  | _, .spread name directives => by
      rw [Selection.mapFields]
      exact .pure _
  | parent, .inline condition directives inner => by
      rw [Selection.mapFields, Selection.typed, TypedSelection.fields]
      exact (asks_typedSelections hvisit _ inner).andThen _

/-- The walk through a selection set. -/
lemma asks_typedSelections
    (hvisit : ∀ parent field, (visit parent field).Asks (asked (parent, field))) :
    ∀ (parent : Option String) (selections : List Selection),
      Renaming.Asks (Selection.mapFieldsAll schema.innerType? visit parent selections)
        ((TypedSelection.fieldsAll (Selection.typedAll schema parent selections)).flatMap asked)
  | _, [] => by
      rw [Selection.mapFieldsAll]
      exact .pure _
  | parent, selection :: selections => by
      rw [Selection.mapFieldsAll, Selection.typedAll, TypedSelection.fieldsAll,
        List.flatMap_append]
      exact (asks_typedSelection hvisit parent selection).bind fun first =>
        (asks_typedSelections hvisit parent selections).andThen _

end

end Walk

section Documents

variable (policy : IdPolicy) (schema : Schema) (start : ℕ)

lemma asks_identity_definition (definition : Definition) :
    ((identityRenamer policy schema).definition start definition).Asks
      ((definition.typedFields schema).flatMap (policyAsks policy schema start)) := by
  have hbelow (parent : Option String) (selections : List Selection) :
      ((identityRenamer policy schema).selections start parent selections).Asks
        ((TypedSelection.fieldsAll (Selection.typedAll schema parent selections)).flatMap
          (policyAsks policy schema start)) :=
    asks_typedSelections (asks_identityVisit policy schema start) parent selections
  have hmarks := asks_identityDirectives policy schema start
  cases definition with
  | operation o =>
      exact (hmarks o.directives).bind fun _ => (hbelow _ o.selections).andThen _
  | fragment f =>
      exact (hmarks f.directives).bind fun _ => (hbelow _ f.selections).andThen _
  | type t => exact .pure _
  | directive d => exact .pure _
  | schema s => exact .pure _

/-- Renaming identity fields asks for the names that the policy chooses for
`id`, in the order of the document. -/
lemma asks_identity_document (document : Document) :
    ((identityRenamer policy schema).document start document).Asks
      ((document.bareIds schema).map fun field =>
        (policyName policy schema field.1, start + field.2.offset)) := by
  have hasked (fields : List (Option String × Field)) :
      fields.flatMap (policyAsks policy schema start) =
        (fields.filter (·.2.name == "id")).map fun field =>
          (policyName policy schema field.1, start + field.2.offset) := by
    induction fields with
    | nil => rfl
    | cons field fields ih =>
        rw [List.flatMap_cons, ih, policyAsks, List.filter_cons]
        by_cases hname : field.2.name = "id" <;> simp [hname]
  rw [Document.bareIds, ← hasked, Document.typedFields, List.flatMap_assoc]
  exact (Renaming.Asks.mapM (asks_identity_definition policy schema start)
    document.definitions).andThen _

end Documents

/-! ### What comes of it -/

/-- Asking for names fails at the first that is not valid. -/
lemma firstRefusal_map {α : Type} (name : α → String) (offset : α → ℕ) (as : List α) :
    firstRefusal (as.map fun a => (name a, offset a)) =
      match as.find? (fun a => !isName (name a)) with
      | none => .ok ()
      | some a => .error (.invalidName (name a) (offset a)) := by
  induction as with
  | nil => rfl
  | cons a as ih =>
      rw [List.map_cons, firstRefusal, List.find?_cons]
      cases hname : isName (name a) with
      | true => exact ih
      | false => rfl

/-- Renaming identity fields gives a result unless the policy chooses what is
no name for some `id`, and then fails at the first one. -/
lemma identity_document_is_refused (policy : IdPolicy) (schema : Schema) (start : ℕ)
    (document : Document) (tally : Tally) :
    match (document.bareIds schema).find? (fun field =>
        !isName (policyName policy schema field.1)) with
    | none => ∃ result,
        ((identityRenamer policy schema).document start document).run tally = .ok result
    | some (parent, field) =>
        ((identityRenamer policy schema).document start document).run tally =
          .error (.invalidName (policyName policy schema parent) (start + field.offset)) := by
  have hrun := (asks_identity_document policy schema start document).run tally
  rw [firstRefusal_map] at hrun
  cases hfind : (document.bareIds schema).find? (fun field =>
      !isName (policyName policy schema field.1)) with
  | none => simpa only [hfind] using hrun
  | some field => simpa only [hfind] using hrun

/-! ### Documents that come to a name of a policy -/

/-- A document that selects `id` on the type of queries. -/
def bareQuery : Document :=
  ⟨[.operation ⟨.query, none, [], [], [.field ⟨2, none, "id", [], []⟩ []]⟩]⟩

/-- A document that selects `id` on the type `T`. -/
def bareFragment : Document :=
  ⟨[.fragment ⟨"F", "T", [], [.field ⟨18, none, "id", [], []⟩ []]⟩]⟩

lemma parse?_bareQuery : Document.parse? "\x7b id \x7d".toList = some bareQuery := by
  cbv

lemma parse?_bareFragment :
    Document.parse? "fragment F on T \x7b id \x7d".toList = some bareFragment := by
  cbv

/-- A schema in which `T` is the one type has the fields of a type there, if
queries start at both or at neither. -/
lemma hasField_of_body? {schema : Schema} {type : String} {body : Document.TypeBody}
    (roots : List (Document.OperationKind × String)) (hbody : schema.body? type = some body)
    (hroots : (Schema.mk [⟨"T", body⟩] roots).root? .query = some "T" ↔
      schema.root? .query = some type) :
    (Schema.mk [⟨"T", body⟩] roots).hasField "T" = schema.hasField type := by
  have hsame : (Schema.mk [⟨"T", body⟩] roots).body? "T" = some body := rfl
  funext field
  simp only [Schema.hasField, Schema.fieldType?, hbody, hsame, Option.bind_eq_bind,
    Option.bind_some, Bool.and_eq_true, beq_iff_eq, hroots]

/-- For each type of a schema there is a schema in which `T` has its fields. -/
lemma exists_hasField_eq (schema : Schema) (type : String) :
    ∃ schema' : Schema, schema'.hasField "T" = schema.hasField type := by
  cases hbody : schema.body? type with
  | none =>
      refine ⟨⟨[], []⟩, funext fun field => ?_⟩
      rw [Schema.hasField, Schema.hasField, Schema.fieldType?, Schema.fieldType?, hbody]
      rfl
  | some body =>
      by_cases hquery : schema.root? .query = some type
      · exact ⟨_, hasField_of_body? [(.query, "T")] hbody
          ⟨fun _ => hquery, fun _ => rfl⟩⟩
      · exact ⟨_, hasField_of_body? [] hbody
          ⟨fun h => (nomatch h), fun h => absurd h hquery⟩⟩

end GraphMigrate
