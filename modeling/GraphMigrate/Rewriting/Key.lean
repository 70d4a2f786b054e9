/-
Keys and values of field maps.

* `renameKey`: the edit that gives a field another key;
* `opaqueNotes`: notes on the fields whose values are not written inline.
-/
import GraphMigrate.Definitions.Model
import GraphMigrate.Text.Edit

namespace GraphMigrate

/-- The edit that puts a key in the place of the key of a field.  A
shorthand field keeps its old key as its value. -/
def renameKey (field : NamedEntry) (newName : String) : Edit :=
  if field.shorthand then .replace field.keySpan (newName ++ ": " ++ field.key)
  else .replace field.keySpan newName

/-- Notes the values of a map that are not written inline. -/
def opaqueNotes (map : FieldMap) : List Diagnostic :=
  map.fields.filterMap fun f =>
    match f.value with
    | .config _ => none
    | .reference _ span => some (.info "Skipping field config by variable reference" span)
    | .call callee span =>
      some (.info ("Skipping field config from function call `" ++ callee ++ "(…)`") span)
    | .other span =>
      some (.info "Skipping field config that is not an object expression" span)

end GraphMigrate
