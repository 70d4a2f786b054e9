/-
Names that change in a document.

The names of a document are compared with those of another one place by place.
Of a document whose fields are replaced one by one the fields are known, and so
are its names.

* `countChanged`: the places at which two lists of names differ;
* `Document.names`: the names of fields and arguments in a document;
* `TypedSelection.fieldsAll_replaced`, `Selection.fieldsAll_typed`: the fields of
  a selection set before and after each is replaced by the type noted at it;
* `Selection.withFields`: selections in which each field is replaced whatever its
  type is;
* `yields_withFieldsAll`: a walk that looks up no types does that.
-/
import GraphMigrate.Proofs.Document.RefusedNames

namespace GraphMigrate

open Document (Argument Definition Directive Field Schema Selection TypedSelection marked)

/-! ### Changed names -/

/-- How many names of a list are other ones in a second list, place by place. -/
def countChanged (old new : List String) : ℕ := (old.zip new).countP fun names => names.1 != names.2

section Changed

variable {α : Type} {old old' new new' : List String}

lemma countChanged_cons (name name' : String) (old new : List String) :
    countChanged (name :: old) (name' :: new) =
      (if name ≠ name' then 1 else 0) + countChanged old new := by
  rw [countChanged, List.zip_cons_cons, List.countP_cons, Nat.add_comm, countChanged]
  simp

lemma countChanged_append (h : old.length = new.length) :
    countChanged (old ++ old') (new ++ new') = countChanged old new + countChanged old' new' := by
  rw [countChanged, List.zip_append h, List.countP_append, countChanged, countChanged]

lemma countChanged_map (f g : α → String) (xs : List α) :
    countChanged (xs.map f) (xs.map g) = xs.countP fun x => f x != g x := by
  rw [countChanged, List.zip_map', List.countP_map]
  rfl

lemma countChanged_map_right (f : String → String) (names : List String) :
    countChanged names (names.map f) = names.countP fun name => name != f name := by
  have h := countChanged_map id f names
  rwa [List.map_id] at h

lemma countChanged_self (names : List String) : countChanged names names = 0 := by
  have h := countChanged_map_right id names
  rw [List.map_id] at h
  simp [h]

/-- No name is another one exactly if the lists are the same. -/
lemma countChanged_eq_zero_iff (h : old.length = new.length) :
    countChanged old new = 0 ↔ old = new := by
  constructor
  · intro hzero
    induction old generalizing new with
    | nil => exact (List.length_eq_zero_iff.mp h.symm).symm
    | cons name old ih =>
        cases new with
        | nil => cases h
        | cons name' new =>
            rw [countChanged_cons, Nat.add_eq_zero_iff] at hzero
            obtain ⟨hname, hlater⟩ := hzero
            rw [ih (Nat.succ.inj h) hlater]
            by_contra hne
            rw [if_pos fun heq => hne (by rw [heq])] at hname
            cases hname
  · rintro rfl
    exact countChanged_self old

/-- In lists of lists that are put together names are counted one after another. -/
lemma countChanged_flatMap {f g : α → List String} (h : ∀ x, (f x).length = (g x).length)
    (xs : List α) :
    countChanged (xs.flatMap f) (xs.flatMap g) = (xs.map fun x => countChanged (f x) (g x)).sum ∧
      (xs.flatMap f).length = (xs.flatMap g).length := by
  induction xs with
  | nil => exact ⟨rfl, rfl⟩
  | cons x xs ih =>
      rw [List.flatMap_cons, List.flatMap_cons, countChanged_append (h x), ih.1, List.map_cons,
        List.sum_cons, List.length_append, List.length_append, h x, ih.2]
      exact ⟨rfl, rfl⟩

end Changed

/-! ### The names of a document -/

namespace Document

/-- The directives in the body of a type. -/
def TypeBody.marks : TypeBody → List Directive
  | .object _ fields | .interface _ fields =>
    fields.flatMap fun field => field.directives ++ field.arguments.flatMap (·.directives)
  | .enum values => values.flatMap (·.directives)
  | .input fields => fields.flatMap (·.directives)
  | .scalar | .union _ => []

/-- The directives in the definition of a type, of a directive or of a schema. -/
def Definition.systemMarks : Definition → List Directive
  | .type t => t.directives ++ t.body.marks
  | .directive d => d.arguments.flatMap (·.directives)
  | .schema s => s.directives
  | _ => []

/-- The arguments of directives that no renamer comes to: of those that it passes
by in operations and fragments, and of those in other definitions. -/
def keptArguments (document : Document) : List Argument :=
  document.passedArguments ++ marked (document.definitions.flatMap Definition.systemMarks)

/-- The names of fields and of their arguments, and those of the arguments of
directives at any place. -/
def names (document : Document) : List String :=
  document.visitedNames.map (·.2) ++ document.keptArguments.map (·.name)

lemma Field.map_visitedNames (field : Field) :
    field.visitedNames.map (·.2) = field.name :: field.appliedArguments.map (·.name) := by
  rw [Field.visitedNames, List.map_cons, List.map_map]
  rfl

lemma Definition.map_visitedNames (definition : Definition) :
    definition.visitedNames.map (·.2) = (marked definition.marks).map (·.name) ++
      (Selection.fieldsAll definition.selections).flatMap fun field =>
        field.visitedNames.map (·.2) := by
  rw [Definition.visitedNames, List.map_append, List.map_map, List.map_flatMap]
  rfl

lemma map_visitedNames (document : Document) :
    document.visitedNames.map (·.2) =
      document.definitions.flatMap fun definition => definition.visitedNames.map (·.2) := by
  rw [visitedNames, List.map_flatMap]

end Document

/-! ### Replaced fields -/

namespace Document

section Replaced

variable (replace : Option String → Field → Field)

mutual

lemma TypedSelection.fields_replaced : ∀ selection : TypedSelection,
    (selection.replaced replace).fields = selection.fields.map fun field => replace field.1 field.2
  | .field parent head selections => by
      rw [TypedSelection.replaced, Selection.fields, TypedSelection.fields,
        TypedSelection.fieldsAll_replaced selections, List.map_cons]
  | .spread name directives => rfl
  | .inline condition directives selections => by
      rw [TypedSelection.replaced, Selection.fields, TypedSelection.fields,
        TypedSelection.fieldsAll_replaced selections]

/-- After each field has been replaced on its own, the fields are the new ones. -/
lemma TypedSelection.fieldsAll_replaced : ∀ selections : List TypedSelection,
    Selection.fieldsAll (TypedSelection.replacedAll replace selections) =
      (TypedSelection.fieldsAll selections).map fun field => replace field.1 field.2
  | [] => rfl
  | selection :: selections => by
      rw [TypedSelection.replacedAll, Selection.fieldsAll, TypedSelection.fieldsAll,
        TypedSelection.fields_replaced selection, TypedSelection.fieldsAll_replaced selections,
        List.map_append]

end

end Replaced

section Typed

variable (schema : Schema)

mutual

lemma Selection.fields_typed : ∀ (parent : Option String) (selection : Selection),
    (selection.typed schema parent).fields.map (·.2) = selection.fields
  | parent, .field head selections => by
      rw [Selection.typed, TypedSelection.fields, Selection.fields, List.map_cons,
        Selection.fieldsAll_typed _ selections]
  | _, .spread name directives => rfl
  | parent, .inline condition directives selections => by
      rw [Selection.typed, TypedSelection.fields, Selection.fields,
        Selection.fieldsAll_typed _ selections]

/-- Types are noted at all fields. -/
lemma Selection.fieldsAll_typed : ∀ (parent : Option String) (selections : List Selection),
    (TypedSelection.fieldsAll (Selection.typedAll schema parent selections)).map (·.2) =
      Selection.fieldsAll selections
  | _, [] => rfl
  | parent, selection :: selections => by
      rw [Selection.typedAll, TypedSelection.fieldsAll, Selection.fieldsAll, List.map_append,
        Selection.fields_typed parent selection, Selection.fieldsAll_typed parent selections]

end

end Typed

mutual

/-- A selection in which each field is replaced by what becomes of it on its own,
whatever type it is selected on. -/
def Selection.withFields (replace : Field → Field) : Selection → Selection
  | .field head selections => .field (replace head) (Selection.withFieldsAll replace selections)
  | .spread name directives => .spread name directives
  | .inline condition directives selections =>
    .inline condition directives (Selection.withFieldsAll replace selections)

/-- A selection set in which each field is replaced. -/
def Selection.withFieldsAll (replace : Field → Field) : List Selection → List Selection
  | [] => []
  | selection :: selections =>
    selection.withFields replace :: Selection.withFieldsAll replace selections

end

section WithFields

variable {replace : Field → Field} (schema : Schema)

mutual

lemma Selection.replaced_typed : ∀ (parent : Option String) (selection : Selection),
    (selection.typed schema parent).replaced (fun _ => replace) = selection.withFields replace
  | parent, .field head selections => by
      rw [Selection.typed, TypedSelection.replaced, Selection.withFields,
        Selection.replacedAll_typed _ selections]
  | _, .spread name directives => rfl
  | parent, .inline condition directives selections => by
      rw [Selection.typed, TypedSelection.replaced, Selection.withFields,
        Selection.replacedAll_typed _ selections]

/-- Where the types do not matter, noting them first makes no difference. -/
lemma Selection.replacedAll_typed : ∀ (parent : Option String) (selections : List Selection),
    TypedSelection.replacedAll (fun _ => replace) (Selection.typedAll schema parent selections) =
      Selection.withFieldsAll replace selections
  | _, [] => rfl
  | parent, selection :: selections => by
      rw [Selection.typedAll, TypedSelection.replacedAll, Selection.withFieldsAll,
        Selection.replaced_typed parent selection, Selection.replacedAll_typed parent selections]

end

lemma Selection.fieldsAll_withFieldsAll (selections : List Selection) :
    Selection.fieldsAll (Selection.withFieldsAll replace selections) =
      (Selection.fieldsAll selections).map replace := by
  rw [← Selection.replacedAll_typed ⟨[], []⟩ none, TypedSelection.fieldsAll_replaced,
    ← Selection.fieldsAll_typed ⟨[], []⟩ none selections, List.map_map]
  rfl

mutual

lemma Selection.withFields_eq_self : ∀ {selection : Selection},
    (∀ field ∈ selection.fields, replace field = field) → selection.withFields replace = selection
  | .field head selections, h => by
      rw [Selection.fields, List.forall_mem_cons] at h
      rw [Selection.withFields, h.1, Selection.withFieldsAll_eq_self h.2]
  | .spread name directives, _ => rfl
  | .inline condition directives selections, h => by
      rw [Selection.withFields, Selection.withFieldsAll_eq_self h]

/-- A selection set whose fields are all replaced by themselves stays as it is. -/
lemma Selection.withFieldsAll_eq_self : ∀ {selections : List Selection},
    (∀ field ∈ Selection.fieldsAll selections, replace field = field) →
      Selection.withFieldsAll replace selections = selections
  | [], _ => rfl
  | selection :: selections, h => by
      rw [Selection.fieldsAll, List.forall_mem_append] at h
      rw [Selection.withFieldsAll, Selection.withFields_eq_self h.1,
        Selection.withFieldsAll_eq_self h.2]

end

end WithFields

end Document

/-- A walk that looks up no types replaces each field on its own. -/
lemma yields_withFieldsAll {visit : Option String → Field → Renaming Field}
    {replace : Field → Field} {log : Field → Tally}
    (hvisit : ∀ parent field, (visit parent field).Yields (replace field) (log field))
    (parent : Option String) (selections : List Selection) :
    Renaming.Yields (Selection.mapFieldsAll (fun _ _ => none) visit parent selections)
      (Selection.withFieldsAll replace selections)
      (.total ((Selection.fieldsAll selections).map log)) := by
  have hwalk := @yields_selections ⟨[], []⟩ visit (fun _ => replace) (fun field => log field.2)
    hvisit parent selections
  rw [Selection.replacedAll_typed] at hwalk
  rwa [← Selection.fieldsAll_typed ⟨[], []⟩ parent selections, List.map_map]

end GraphMigrate
