/-
Client documents before and after their identity fields are renamed.

The renaming is compared with one in two passes.  The first pass notes at
every field the type that it is selected on, as far as the schema and the
document as it was written tell.  The second pass forgets the schema's
paths: it renames every field on its own, by the type noted at it.  A walk
that renames while it descends does the same, as it looks types up by the
names that were written.

* `TypedSelection`, `Selection.typed`: selections with the types noted;
* `idRule?`, `Field.identified`: what becomes of one field;
* `Yields`: what a renaming that succeeds gives, counts and notes;
* `yields_selections`: a walk through selections does the two passes;
* `identified_document_follows_static_types`: **renaming identity fields
  while walking is noting all types first and renaming then**.
-/
import GraphMigrate.Migration.Identity
import GraphMigrate.Proofs.Control.Ensures

namespace GraphMigrate

namespace Document

/-! ### Types noted in advance -/

/-- A member of a selection set in which every field has the type that it
is selected on noted, where this is known. -/
inductive TypedSelection where
  | field (parent : Option String) (field : Field) (selections : List TypedSelection)
  | spread (name : String) (directives : List Directive)
  | inline (condition : Option String) (directives : List Directive)
      (selections : List TypedSelection)

mutual

/-- Notes the types in a selection on a type.  Below a field the type is
the named type of the field's definition, below an inline fragment its
condition, or the type around it where it has none. -/
def Selection.typed (schema : Schema) (parent : Option String) : Selection → TypedSelection
  | .field head selections =>
    let held := parent.bind fun type => (schema.fieldType? type head.name).map (·.innerName)
    .field parent head (Selection.typedAll schema held selections)
  | .spread name directives => .spread name directives
  | .inline condition directives selections =>
    .inline condition directives (Selection.typedAll schema (condition.or parent) selections)

/-- Notes the types in a selection set. -/
def Selection.typedAll (schema : Schema) (parent : Option String) :
    List Selection → List TypedSelection
  | [] => []
  | selection :: selections =>
    selection.typed schema parent :: Selection.typedAll schema parent selections

end

/-- The selections of a definition with types noted.  An operation starts
at the type of its kind, a fragment at its condition. -/
def Definition.typed (schema : Schema) : Definition → List TypedSelection
  | .operation o => Selection.typedAll schema (schema.root? o.kind) o.selections
  | .fragment f => Selection.typedAll schema (some f.condition) f.selections
  | _ => []

namespace TypedSelection

mutual

/-- The fields of a selection with their types, each before those selected
on it. -/
def fields : TypedSelection → List (Option String × Field)
  | .field parent head selections => (parent, head) :: fieldsAll selections
  | .spread _ _ => []
  | .inline _ _ selections => fieldsAll selections

/-- The fields of a selection set with their types. -/
def fieldsAll : List TypedSelection → List (Option String × Field)
  | [] => []
  | selection :: selections => selection.fields ++ fieldsAll selections

end

mutual

/-- A selection in which each field is replaced on its own. -/
def replaced (replace : Option String → Field → Field) : TypedSelection → Selection
  | .field parent head selections => .field (replace parent head) (replacedAll replace selections)
  | .spread name directives => .spread name directives
  | .inline condition directives selections =>
    .inline condition directives (replacedAll replace selections)

/-- A selection set in which each field is replaced on its own. -/
def replacedAll (replace : Option String → Field → Field) :
    List TypedSelection → List Selection
  | [] => []
  | selection :: selections => selection.replaced replace :: replacedAll replace selections

end

end TypedSelection

/-! ### One field on its own -/

/-- The first rule of a policy whose required fields a known type has. -/
def idRule? (policy : IdPolicy) (schema : Schema) (parent : Option String) : Option IdRule :=
  parent.bind fun type => policy.rules.find? fun rule => rule.required.all (schema.hasField type)

/-- The names of identity fields. -/
def isIdentity (name : String) : Bool := ["__id", "_id", "id"].contains name

/-- The name that becomes of the name of a field on a type. -/
def identityName (policy : IdPolicy) (schema : Schema) (parent : Option String)
    (name : String) : String :=
  if name = "__id" then "id"
  else if name = "_id" then "internalID"
  else if name = "id" then ((idRule? policy schema parent).map (·.rename)).getD policy.placeholder
  else name

/-- The warning about a field, in a document that starts at an offset. -/
def placeholderWarning? (policy : IdPolicy) (schema : Schema) (start : Nat)
    (field : Option String × Field) : Option Diagnostic :=
  if field.2.name = "id" ∧ idRule? policy schema field.1 = none then
    some (.warning (placeholderNote policy field.1) (.point (start + field.2.offset)))
  else none

/-- An argument under its new name. -/
def Argument.identified (argument : Argument) : Argument :=
  if argument.name = "__id" then { argument with name := "id" } else argument

/-- A directive with its arguments under their new names. -/
def Directive.identified (directive : Directive) : Directive :=
  { directive with arguments := directive.arguments.map Argument.identified }

/-- A field on a type, with its arguments, under new names. -/
def Field.identified (policy : IdPolicy) (schema : Schema) (parent : Option String)
    (field : Field) : Field :=
  { field with
    name := identityName policy schema parent field.name
    arguments := field.arguments.map Argument.identified
    directives := field.directives.map Directive.identified }

/-- All arguments of directives. -/
def marked (directives : List Directive) : List Argument := directives.flatMap (·.arguments)

/-- The arguments of a field and of the directives on it. -/
def Field.appliedArguments (field : Field) : List Argument :=
  field.arguments ++ marked field.directives

/-- How many arguments get a new name. -/
def countIdentified (arguments : List Argument) : Nat := arguments.countP (·.name == "__id")

/-- What renaming a field adds to a tally. -/
def identityLog (policy : IdPolicy) (schema : Schema) (start : Nat)
    (field : Option String × Field) : Tally :=
  ⟨(if isIdentity field.2.name then 1 else 0) + countIdentified field.2.appliedArguments,
    (placeholderWarning? policy schema start field).toList⟩

/-! ### Documents -/

/-- A definition in which each field is renamed on its own. -/
def Definition.identified (policy : IdPolicy) (schema : Schema) (definition : Definition) :
    Definition :=
  let selections :=
    TypedSelection.replacedAll (Field.identified policy schema) (definition.typed schema)
  match definition with
  | .operation o =>
    .operation { o with directives := o.directives.map Directive.identified, selections }
  | .fragment f =>
    .fragment { f with directives := f.directives.map Directive.identified, selections }
  | other => other

/-- The fields of a definition with their types. -/
def Definition.typedFields (schema : Schema) (definition : Definition) :
    List (Option String × Field) :=
  TypedSelection.fieldsAll (definition.typed schema)

/-- The directives on operations and fragments themselves. -/
def Definition.marks : Definition → List Directive
  | .operation o => o.directives
  | .fragment f => f.directives
  | _ => []

/-- The arguments in a definition. -/
def Definition.appliedArguments (schema : Schema) (definition : Definition) : List Argument :=
  marked definition.marks ++
    (definition.typedFields schema).flatMap fun field => field.2.appliedArguments

end Document

open Document

/-- A document in which each field is renamed on its own. -/
def Document.identified (policy : IdPolicy) (schema : Schema) (document : Document) : Document :=
  ⟨document.definitions.map (Definition.identified policy schema)⟩

/-- The fields of a document with their types. -/
def Document.typedFields (schema : Schema) (document : Document) :
    List (Option String × Field) :=
  document.definitions.flatMap (Definition.typedFields schema)

/-- The arguments in operations and fragments. -/
def Document.appliedArguments (schema : Schema) (document : Document) : List Argument :=
  document.definitions.flatMap (Definition.appliedArguments schema)

/-! ### What a renaming gives -/

namespace Tally

/-- What is added by one step after another. -/
def total (tallies : List Tally) : Tally :=
  ⟨(tallies.map (·.renamed)).sum, tallies.flatMap (·.notes)⟩

/-- A tally to which another is added. -/
def plus (tally added : Tally) : Tally :=
  ⟨tally.renamed + added.renamed, tally.notes ++ added.notes⟩

lemma plus_mk (n n' : ℕ) (notes notes' : List Diagnostic) :
    plus ⟨n, notes⟩ ⟨n', notes'⟩ = ⟨n + n', notes ++ notes'⟩ := rfl

lemma plus_empty (tally : Tally) : tally.plus {} = tally := by
  simp [plus]

lemma plus_plus (tally added added' : Tally) :
    (tally.plus added).plus added' = tally.plus (added.plus added') := by
  simp [plus, Nat.add_assoc]

lemma total_append (tallies tallies' : List Tally) :
    total (tallies ++ tallies') = (total tallies).plus (total tallies') := by
  simp [total, plus]

lemma total_cons (first : Tally) (tallies : List Tally) :
    total (first :: tallies) = first.plus (total tallies) := by
  simp [total, plus]

end Tally

namespace Renaming

variable {α β : Type}

/-- Every run of a step that does not fail gives one result, and adds the
same to the tally. -/
def Yields (step : Renaming α) (result : α) (added : Tally) : Prop :=
  ∀ tally a tally', step tally = .ok (a, tally') → a = result ∧ tally' = tally.plus added

namespace Yields

variable {a : α} {b : β} {added added' : Tally}

protected lemma pure (a : α) : Yields (pure a) a {} := by
  intro tally b tally' hrun
  cases hrun
  exact ⟨rfl, tally.plus_empty.symm⟩

/-- A step that goes on with what another gave. -/
protected lemma bind {step : Renaming α} {next : α → Renaming β} (h : Yields step a added)
    (hnext : Yields (next a) b added') : Yields (step >>= next) b (added.plus added') := by
  intro tally c tally'' hrun
  change (step tally >>= fun r => next r.1 r.2) = .ok (c, tally'') at hrun
  cases hstep : step tally with
  | error e =>
      rw [hstep] at hrun
      cases hrun
  | ok r =>
      obtain ⟨a', tally'⟩ := r
      obtain ⟨rfl, rfl⟩ := h tally a' tally' hstep
      rw [hstep] at hrun
      obtain ⟨rfl, rfl⟩ := hnext _ c tally'' hrun
      exact ⟨rfl, Tally.plus_plus tally added added'⟩

lemma congr {step : Renaming α} (h : Yields step a added) (hadded : added = added') :
    Yields step a added' := hadded ▸ h

/-- A step whose result is put into something else. -/
lemma andThen {step : Renaming α} {f : α → β} (h : Yields step a added) :
    Yields (step >>= fun a => pure (f a)) (f a) added := by
  have hbind : Yields (step >>= fun a => pure (f a)) (f a) (added.plus {}) := h.bind (.pure (f a))
  rwa [Tally.plus_empty] at hbind

/-- A step for each member of a list. -/
protected lemma mapM {step : α → Renaming β} {f : α → β} {log : α → Tally}
    (h : ∀ a, Yields (step a) (f a) (log a)) (as : List α) :
    Yields (as.mapM step) (as.map f) (.total (as.map log)) := by
  induction as with
  | nil =>
      rw [List.mapM_nil]
      exact .pure []
  | cons a as ih =>
      rw [List.mapM_cons, List.map_cons, List.map_cons, Tally.total_cons]
      exact (h a).bind ih.andThen

end Yields

/-- A new name that is counted is the one asked for. -/
lemma yields_toName (name : String) (offset : ℕ) : (toName name offset).Yields name ⟨1, []⟩ := by
  rw [toName]
  split
  · intro tally a tally' hrun
    cases hrun
    exact ⟨rfl, by simp [Tally.plus]⟩
  · intro tally a tally' hrun
    cases hrun

lemma yields_warn (message : String) (span : Span) :
    (warn message span).Yields () ⟨0, [.warning message span]⟩ := by
  intro tally a tally' hrun
  cases hrun
  exact ⟨rfl, rfl⟩

end Renaming

lemma countIdentified_append (arguments arguments' : List Argument) :
    countIdentified (arguments ++ arguments') =
      countIdentified arguments + countIdentified arguments' :=
  List.countP_append

/-- What is counted in a list for each member of another is counted in all of
these lists together. -/
lemma total_countP {α β : Type} (p : β → Bool) (f : α → List β) (xs : List α) :
    Tally.total (xs.map fun x => ⟨(f x).countP p, []⟩) = ⟨(xs.flatMap f).countP p, []⟩ := by
  induction xs with
  | nil => rfl
  | cons x xs ih =>
      rw [List.map_cons, Tally.total_cons, ih, List.flatMap_cons, List.countP_append]
      rfl

lemma total_countIdentified {α : Type} (arguments : α → List Argument) (xs : List α) :
    Tally.total (xs.map fun x => ⟨countIdentified (arguments x), []⟩) =
      ⟨countIdentified (xs.flatMap arguments), []⟩ :=
  total_countP _ arguments xs

/-! ### One field -/

section Fields

variable (policy : IdPolicy) (schema : Schema) (start : ℕ)

lemma policyName?_eq (parent : Option String) :
    policyName? policy schema parent = (idRule? policy schema parent).map (·.rename) := by
  cases parent <;> rfl

lemma yields_identityArgument (offset : ℕ) (argument : Argument) :
    ((identityRenamer policy schema).argument offset argument).Yields argument.identified
      ⟨countIdentified [argument], []⟩ := by
  rw [Renamer.argument]
  by_cases hname : argument.name = "__id"
  · simp only [identityRenamer, identityArgument?, hname, beq_self_eq_true, if_true,
      Argument.identified, countIdentified, List.countP_singleton]
    exact (Renaming.yields_toName "id" offset).andThen
  · simp only [identityRenamer, identityArgument?, beq_iff_eq, hname, if_false,
      Argument.identified, countIdentified, List.countP_singleton]
    exact .pure argument

lemma yields_identityArguments (offset : ℕ) (arguments : List Argument) :
    Renaming.Yields (arguments.mapM ((identityRenamer policy schema).argument offset))
      (arguments.map Argument.identified) ⟨countIdentified arguments, []⟩ := by
  have hall := Renaming.Yields.mapM (yields_identityArgument policy schema offset) arguments
  rwa [total_countIdentified, List.flatMap_singleton'] at hall

lemma yields_identityDirectives (offset : ℕ) (directives : List Directive) :
    Renaming.Yields (directives.mapM ((identityRenamer policy schema).directive offset))
      (directives.map Directive.identified) ⟨countIdentified (marked directives), []⟩ := by
  have hone : ∀ directive : Directive,
      ((identityRenamer policy schema).directive offset directive).Yields directive.identified
        ⟨countIdentified directive.arguments, []⟩ := fun directive =>
    (yields_identityArguments policy schema offset directive.arguments).andThen
  have hall := Renaming.Yields.mapM hone directives
  rwa [total_countIdentified] at hall

lemma yields_idReplacement (parent : Option String) (offset : ℕ) :
    (idReplacement policy schema parent offset).Yields
      (((idRule? policy schema parent).map (·.rename)).getD policy.placeholder)
      ⟨0, if idRule? policy schema parent = none then
        [.warning (placeholderNote policy parent) (.point offset)] else []⟩ := by
  rw [idReplacement, policyName?_eq]
  cases idRule? policy schema parent with
  | none => exact (Renaming.yields_warn _ _).andThen
  | some rule => exact .pure rule.rename

/-- The name that becomes of the name of an identity field. -/
lemma yields_identityName? (parent : Option String) (field : Field) :
    (identityName? policy schema parent (start + field.offset) field.name).Yields
      (if isIdentity field.name then some (identityName policy schema parent field.name) else none)
      ⟨0, (placeholderWarning? policy schema start (parent, field)).toList⟩ := by
  rw [identityName?]
  by_cases hown : field.name = "__id"
  · rw [hown, placeholderWarning?, hown]
    exact .pure _
  by_cases hinternal : field.name = "_id"
  · rw [hinternal, placeholderWarning?, hinternal]
    exact .pure _
  rw [if_neg (by simpa using hown), if_neg (by simpa using hinternal)]
  by_cases hbare : field.name = "id"
  · have hreplaced := (yields_idReplacement policy schema parent (start + field.offset)).andThen
      (f := some)
    have hlog : (placeholderWarning? policy schema start (parent, field)).toList =
        if idRule? policy schema parent = none then
          [.warning (placeholderNote policy parent) (.point (start + field.offset))] else [] := by
      simp only [placeholderWarning?, hbare, true_and]
      split <;> rfl
    rw [hlog, hbare]
    exact hreplaced
  · have hother : isIdentity field.name = false := by simp [isIdentity, hown, hinternal, hbare]
    have hlog : placeholderWarning? policy schema start (parent, field) = none :=
      if_neg fun h => hbare h.1
    rw [if_neg (by simpa using hbare), hother, hlog]
    exact .pure none

/-- A field under a new name, if it gets one. -/
def withName (offset : ℕ) (field : Field) : Option String → Renaming Field
  | none => return field
  | some name => return { field with name := ← Renaming.toName name offset }

lemma yields_withName (offset : ℕ) (field : Field) (name? : Option String) :
    (withName offset field name?).Yields { field with name := name?.getD field.name }
      ⟨if name?.isSome then 1 else 0, []⟩ := by
  cases name? with
  | none => exact .pure field
  | some name => exact (Renaming.yields_toName name offset).andThen

lemma identityField_eq (parent : Option String) (offset : ℕ) (field : Field) :
    identityField policy schema parent offset field =
      identityName? policy schema parent offset field.name >>= withName offset field := by
  rw [identityField]
  refine bind_congr fun name? => ?_
  cases name? <;> rfl

/-- The name of a field, whose arguments and directives do not change yet. -/
lemma yields_identityField (parent : Option String) (field : Field) :
    (identityField policy schema parent (start + field.offset) field).Yields
      { field with name := identityName policy schema parent field.name }
      ⟨if isIdentity field.name then 1 else 0,
        (placeholderWarning? policy schema start (parent, field)).toList⟩ := by
  have hfield := (yields_identityName? policy schema start parent field).bind
    (yields_withName (start + field.offset) field _)
  rw [identityField_eq]
  by_cases hidentity : isIdentity field.name = true
  · rw [if_pos hidentity, Tally.plus_mk, List.append_nil] at hfield
    rwa [if_pos hidentity]
  · have hsame : identityName policy schema parent field.name = field.name := by
      simp only [isIdentity, List.contains_cons, List.contains_nil, Bool.or_eq_true, beq_iff_eq,
        Bool.false_eq_true, or_false, not_or] at hidentity
      rw [identityName, if_neg hidentity.1, if_neg hidentity.2.1, if_neg hidentity.2.2]
    rw [if_neg hidentity, Tally.plus_mk, List.append_nil] at hfield
    rwa [if_neg hidentity, hsame]

lemma yields_identityVisit (parent : Option String) (field : Field) :
    ((identityRenamer policy schema).visit start parent field).Yields
      (field.identified policy schema parent)
      (identityLog policy schema start (parent, field)) := by
  rw [Renamer.visit]
  refine ((yields_identityField policy schema start parent field).bind
    ((yields_identityArguments policy schema _ _).bind
      (yields_identityDirectives policy schema _ _).andThen)).congr ?_
  simp [Tally.plus, identityLog, countIdentified, Field.appliedArguments]

end Fields

/-! ### The tree -/

section Walk

variable {schema : Schema} {visit : Option String → Field → Renaming Field}
  {replace : Option String → Field → Field} {log : Option String × Field → Tally}

mutual

/-- The walk through a selection, if what each visit of a field does depends
on the field and the type alone. -/
lemma yields_selection
    (hvisit : ∀ parent field,
      (visit parent field).Yields (replace parent field) (log (parent, field))) :
    ∀ (parent : Option String) (selection : Selection),
      (selection.mapFields schema.innerType? visit parent).Yields
        ((selection.typed schema parent).replaced replace)
        (.total ((selection.typed schema parent).fields.map log))
  | parent, .field head inner => by
      rw [Selection.mapFields, Selection.typed, TypedSelection.replaced, TypedSelection.fields,
        List.map_cons, Tally.total_cons]
      exact (hvisit parent head).bind (yields_selections hvisit _ inner).andThen
  | _, .spread name directives => by
      rw [Selection.mapFields]
      exact .pure _
  | parent, .inline condition directives inner => by
      rw [Selection.mapFields, Selection.typed, TypedSelection.replaced, TypedSelection.fields]
      exact (yields_selections hvisit _ inner).andThen

/-- The walk through a selection set. -/
lemma yields_selections
    (hvisit : ∀ parent field,
      (visit parent field).Yields (replace parent field) (log (parent, field))) :
    ∀ (parent : Option String) (selections : List Selection),
      Renaming.Yields (Selection.mapFieldsAll schema.innerType? visit parent selections)
        (TypedSelection.replacedAll replace (Selection.typedAll schema parent selections))
        (.total ((TypedSelection.fieldsAll (Selection.typedAll schema parent selections)).map log))
  | _, [] => by
      rw [Selection.mapFieldsAll]
      exact .pure _
  | parent, selection :: selections => by
      rw [Selection.mapFieldsAll, Selection.typedAll, TypedSelection.replacedAll,
        TypedSelection.fieldsAll, List.map_append, Tally.total_append]
      exact (yields_selection hvisit parent selection).bind
        (yields_selections hvisit parent selections).andThen

end

end Walk

section Documents

variable (policy : IdPolicy) (schema : Schema) (start : ℕ)

/-- What renaming a definition adds to a tally. -/
def definitionLog (definition : Definition) : Tally :=
  ⟨(definition.typedFields schema).countP (fun field => isIdentity field.2.name) +
      countIdentified (definition.appliedArguments schema),
    (definition.typedFields schema).filterMap (placeholderWarning? policy schema start)⟩

lemma total_identityLog (fields : List (Option String × Field)) :
    Tally.total (fields.map (identityLog policy schema start)) =
      ⟨fields.countP (fun field => isIdentity field.2.name) +
          countIdentified (fields.flatMap fun field => field.2.appliedArguments),
        fields.filterMap (placeholderWarning? policy schema start)⟩ := by
  induction fields with
  | nil => rfl
  | cons field fields ih =>
      rw [List.map_cons, Tally.total_cons, ih, identityLog, Tally.plus_mk, Tally.mk.injEq]
      constructor
      · rw [List.countP_cons, List.flatMap_cons, countIdentified_append]
        omega
      · rw [List.filterMap_cons]
        cases placeholderWarning? policy schema start field <;> rfl

/-- The directives of a definition and its fields make up its log. -/
lemma plus_total_identityLog (definition : Definition) :
    Tally.plus ⟨countIdentified (marked definition.marks), []⟩
      (.total ((definition.typedFields schema).map (identityLog policy schema start))) =
      definitionLog policy schema start definition := by
  rw [total_identityLog, Tally.plus_mk, definitionLog, Definition.appliedArguments,
    countIdentified_append, List.nil_append, Nat.add_left_comm]

lemma yields_definition (definition : Definition) :
    ((identityRenamer policy schema).definition start definition).Yields
      (definition.identified policy schema) (definitionLog policy schema start definition) := by
  rw [← plus_total_identityLog]
  have hbelow (parent : Option String) (selections : List Selection) :
      ((identityRenamer policy schema).selections start parent selections).Yields
        (TypedSelection.replacedAll (Field.identified policy schema)
          (Selection.typedAll schema parent selections)) _ :=
    yields_selections (yields_identityVisit policy schema start) parent selections
  cases definition with
  | operation o =>
      exact (yields_identityDirectives policy schema start o.directives).bind
        (hbelow (schema.root? o.kind) o.selections).andThen
  | fragment f =>
      exact (yields_identityDirectives policy schema start f.directives).bind
        (hbelow (some f.condition) f.selections).andThen
  | type t => exact .pure _
  | directive d => exact .pure _
  | schema s => exact .pure _

lemma total_definitionLog (definitions : List Definition) :
    Tally.total (definitions.map (definitionLog policy schema start)) =
      ⟨(definitions.flatMap (Definition.typedFields schema)).countP
            (fun field => isIdentity field.2.name) +
          countIdentified (definitions.flatMap (Definition.appliedArguments schema)),
        (definitions.flatMap (Definition.typedFields schema)).filterMap
          (placeholderWarning? policy schema start)⟩ := by
  induction definitions with
  | nil => rfl
  | cons definition definitions ih =>
      rw [List.map_cons, Tally.total_cons, ih, definitionLog, Tally.plus_mk, Tally.mk.injEq,
        List.flatMap_cons, List.flatMap_cons, List.countP_append, List.filterMap_append,
        countIdentified_append]
      exact ⟨by omega, rfl⟩

lemma yields_document (document : Document) :
    ((identityRenamer policy schema).document start document).Yields
      (document.identified policy schema)
      ⟨(document.typedFields schema).countP (fun field => isIdentity field.2.name) +
          countIdentified (document.appliedArguments schema),
        (document.typedFields schema).filterMap (placeholderWarning? policy schema start)⟩ := by
  have hall : ((identityRenamer policy schema).document start document).Yields
      (document.identified policy schema) _ :=
    (Renaming.Yields.mapM (yields_definition policy schema start) document.definitions).andThen
  rwa [total_definitionLog] at hall

end Documents

/-- **Types are those of the document as it was written.**  Where renaming
identity fields succeeds, the new document is the old one in which first
every field has the type noted that it is selected on, and then each field
is renamed on its own: by the type noted at it, and once.  The warnings
that are added are those about fields for which no rule of the policy fits,
one for each, in the order of the document.  All renames that are counted
are those of identity fields and of arguments called `__id`. -/
theorem identified_document_follows_static_types {policy : IdPolicy} {schema : Schema} {start : ℕ}
    {document renamed : Document} {tally tally' : Tally}
    (h : ((identityRenamer policy schema).document start document).run tally =
      .ok (renamed, tally')) :
    renamed = document.identified policy schema ∧
    tally'.notes = tally.notes ++
      (document.typedFields schema).filterMap (placeholderWarning? policy schema start) ∧
    tally'.renamed = tally.renamed +
      (document.typedFields schema).countP (fun field => isIdentity field.2.name) +
      countIdentified (document.appliedArguments schema) := by
  obtain ⟨rfl, rfl⟩ := yields_document policy schema start document tally renamed tally' h
  exact ⟨rfl, rfl, (Nat.add_assoc _ _ _).symm⟩

/-- A schema in which an identity field holds another type than the field
that it is renamed to. -/
def saleSchemaText : String :=
  "type Query \x7b artist: Artist \x7d\n" ++
  "type Artist \x7b _id: Sale internalID: Artist slug: String \x7d\n" ++
  "type Sale \x7b internalID: ID \x7d\n"

/-- Identity fields below each other, in inline fragments and on a type that
is not known. -/
def artistText : String :=
  "\x7b artist(__id: 1) \x7b id _id \x7b id ... on Artist \x7b __id \x7d \x7d " ++
  "seen: id other \x7b id \x7d \x7d \x7d"

/-- The same document under new names, as it is printed. -/
def artistIdentified : String :=
  "\x7b\n  artist(id: 1) \x7b\n    slug\n    internalID \x7b\n      internalID\n" ++
  "      ... on Artist \x7b\n        id\n      \x7d\n    \x7d\n    seen: slug\n" ++
  "    other \x7b\n      slugORinternalID\n    \x7d\n  \x7d\n\x7d\n"

theorem identified_artist_follows_static_types :
    ∃ schema document renamed tally', Schema.parse? saleSchemaText = some schema ∧
      Document.parse? artistText.toList = some document ∧
      ((identityRenamer {} schema).document 7 document).run {} = .ok (renamed, tally') ∧
      renamed.written = artistIdentified ∧ tally'.renamed = 7 ∧
      tally'.notes.map (·.span) = [.point 81] ∧ renamed = document.identified {} schema := by
  have hcheck : (Schema.parse? saleSchemaText).any (fun schema =>
      (Document.parse? artistText.toList).any fun document =>
        (((identityRenamer {} schema).document 7 document).run {}).toOption.any fun renamed =>
          renamed.1.written == artistIdentified && renamed.2.renamed == 7 &&
            renamed.2.notes.map (·.span) == [.point 81]) = true := by
    decide +kernel
  obtain ⟨schema, hschema, hrest⟩ := Option.any_eq_true _ _ |>.mp hcheck
  obtain ⟨document, hparse, hrun⟩ := Option.any_eq_true _ _ |>.mp hrest
  obtain ⟨⟨renamed, tally'⟩, hok, hresult⟩ := Option.any_eq_true _ _ |>.mp hrun
  have hok' : ((identityRenamer {} schema).document 7 document).run {} = .ok (renamed, tally') :=
    eq_ok_of_toOption hok
  simp only [Bool.and_eq_true, beq_iff_eq] at hresult
  exact ⟨schema, document, renamed, tally', hschema, hparse, hok', hresult.1.1, hresult.1.2,
    hresult.2, (identified_document_follows_static_types hok').1⟩

end GraphMigrate
