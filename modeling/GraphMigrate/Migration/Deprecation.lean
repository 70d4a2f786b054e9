/-
Removing what is deprecated.

Deprecated fields and enum values are removed from their maps.  A
configuration that is a variable of its own has no map to be removed
from, so it is emptied.  Enum values that are not written inline may be
deprecated as well, which nobody can tell, so they stop the migration.

* `deprecatedFields`, `deprecatedConfigs`, `deprecatedValues`: the drafts
  for the fields of a map, for configurations and for enum values;
* `pruneDeprecated`: the migration.
-/
import GraphMigrate.Migration.Basic
import GraphMigrate.Rewriting.Entry

namespace GraphMigrate

/-- Whether a value is a configuration that gives a reason for
deprecation. -/
def FieldValue.isDeprecated (value : FieldValue) : Bool :=
  value.config?.any (·.deprecated)

/-- Removes the deprecated entries of a map. -/
def deprecatedFields (text : List Char) (map : FieldMap) : Draft :=
  .ofEdits ((map.fields.filter (·.value.isDeprecated)).map fun f => removeEntry text f.span)

/-- Empties the deprecated configurations among those that are variables. -/
def deprecatedConfigs (configs : List NamedConfig) : Draft :=
  .ofEdits ((configs.filter (·.config.deprecated)).map fun c =>
    .replace c.config.span "\x7b\x7d")

/-- What an enum value is that is not a configuration. -/
def FieldValue.opaqueKind? : FieldValue → Option String
  | .config _ => none
  | .reference _ _ => some "variable reference"
  | .call _ _ => some "call expression"
  | .other _ => some "expression"

/-- Refuses enum values that are not written inline. -/
def checkValues (map : FieldMap) : Except MigrationError Unit :=
  map.fields.forM fun f =>
    match f.value.opaqueKind? with
    | some kind => .error (.unexpectedEnumValue kind f.value.span.start)
    | none => .ok ()

/-- Removes the deprecated values of an enum. -/
def deprecatedValues (text : List Char) : FieldsSource → Except MigrationError Draft
  | .inline map | .deferred map => do
    checkValues map
    return deprecatedFields text map
  | .reference _ span => return .warn "Skipping enum values by variable reference" span
  | .call _ span | .unsupported span =>
    return .warn "Skipping enum values that are not defined as an object expression" span

/-- The draft that removes all that is deprecated. -/
def pruneDraft (text : List Char) (definitions : Definitions) : Except MigrationError Draft := do
  let values ← definitions.enumValues.mapM (deprecatedValues text)
  return .concat
    ([.ofNotes definitions.diagnostics]
      ++ definitions.outputMaps.map (deprecatedFields text)
      ++ [deprecatedConfigs definitions.fieldConfigs] ++ values)

/-- Removes deprecated fields and enum values from schema definitions. -/
def pruneDeprecated (context : Context) (file : SourceFile) : Except MigrationError Outcome := do
  let definitions ← file.definitions context.vocabulary
  let draft ← pruneDraft file.chars definitions
  return draft.finish file.text

end GraphMigrate
