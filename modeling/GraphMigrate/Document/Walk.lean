/-
Walking through selections.

Fields are visited in the order of the document, each before those
selected on it, inside of inline fragments too.  The type that a field
is selected on is known from its name before the visit, so a visit may
rename a field without losing track of types.

* `Selection.mapFields`: visits a member of a selection set;
* `Definition.rootType?`: the type that a definition selects on.
-/
import GraphMigrate.Document.Schema

namespace GraphMigrate.Document

variable {m : Type → Type} [Monad m]

mutual

/-- Visits the fields of a member of a selection set.  The type of what a
field of a type holds is looked up by their names. -/
def Selection.mapFields (innerType? : String → String → Option String)
    (visit : Option String → Field → m Field) (parent : Option String) :
    Selection → m Selection
  | .field head selections => do
    let visited ← visit parent head
    let inner ← Selection.mapFieldsAll innerType? visit
      (parent.bind fun type => innerType? type head.name) selections
    return .field visited inner
  | .spread name directives => return .spread name directives
  | .inline condition directives selections => do
    let inner ← Selection.mapFieldsAll innerType? visit (condition.or parent) selections
    return .inline condition directives inner

/-- Visits the fields of a selection set. -/
def Selection.mapFieldsAll (innerType? : String → String → Option String)
    (visit : Option String → Field → m Field) (parent : Option String) :
    List Selection → m (List Selection)
  | [] => return []
  | selection :: selections => do
    let first ← selection.mapFields innerType? visit parent
    let later ← Selection.mapFieldsAll innerType? visit parent selections
    return first :: later

end

/-- The type of what a field holds, lists aside. -/
def Schema.innerType? (schema : Schema) (type field : String) : Option String :=
  (schema.fieldType? type field).map (·.innerName)

/-- The type that a definition selects on. -/
def Definition.rootType? (schema : Schema) : Definition → Option String
  | .operation o => schema.root? o.kind
  | .fragment f => some f.condition
  | _ => none

end GraphMigrate.Document
