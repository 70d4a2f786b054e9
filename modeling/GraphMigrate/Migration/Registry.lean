/-
All migrations by name.

* `Migration.all`: the migrations in their order of listing;
* `Migration.ofName?`: a migration by its name;
* `Migration.run`: what a migration makes of a file.
-/
import GraphMigrate.Migration.ClientNames
import GraphMigrate.Migration.DefinitionNames
import GraphMigrate.Migration.Deprecation
import GraphMigrate.Migration.Identity
import GraphMigrate.Migration.Pagination
import GraphMigrate.Migration.RawResponse

namespace GraphMigrate

/-- The migrations there are. -/
inductive Migration where
  | definitionNames
  | clientNames
  | deprecation
  | pagination
  | identity
  | rawResponse
  deriving DecidableEq, Repr

namespace Migration

/-- All migrations in their order of listing. -/
def all : List Migration :=
  [definitionNames, clientNames, deprecation, pagination, identity, rawResponse]

/-- The name by which a migration is asked for. -/
def name : Migration → String
  | definitionNames => "rename-definitions"
  | clientNames => "rename-client-fields"
  | deprecation => "prune-deprecated"
  | pagination => "unify-pagination"
  | identity => "migrate-ids"
  | rawResponse => "relay-raw-response"

/-- What a migration does. -/
def description : Migration → String
  | definitionNames => "Camelize field, argument and input field names in schema definitions"
  | clientNames =>
    "Camelize fields and arguments in GraphQL documents, aliasing fields to their old name"
  | deprecation => "Remove deprecated fields and enum values from schema definitions"
  | pagination =>
    "Replace paginated list fields with their connection fields, named without the suffix"
  | identity => "Rename Relay-era identity fields in GraphQL documents using the schema"
  | rawResponse => "Type relay test fixtures with the raw response types of their queries"

/-- Whether a migration needs a schema. -/
def requiresSchema : Migration → Bool
  | identity => true
  | _ => false

/-- The migration with a name. -/
def ofName? (text : String) : Option Migration := all.find? (·.name == text)

/-- The names of all migrations in alphabetical order. -/
def sortedNames : List String := (all.map name).mergeSort fun a b => a ≤ b

/-- What a migration makes of a file. -/
def run : Migration → Context → SourceFile → Except MigrationError Outcome
  | definitionNames => renameDefinitions
  | clientNames => renameClientFields
  | deprecation => pruneDeprecated
  | pagination => unifyPagination
  | identity => migrateIds
  | rawResponse => typeFixtures

end Migration

end GraphMigrate
