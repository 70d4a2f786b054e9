/-
Identity fields in client documents.

The fields `__id` and `_id` have fixed successors.  What becomes of `id`
depends on the type it is selected on; where no rule of the policy fits,
a placeholder is selected, which no schema has, with a warning.

* `idReplacement`: what becomes of `id`;
* `identityRenamer`: all identity fields, and arguments called `__id`;
* `mentionsTag`: files without a tagged template are not even parsed;
* `migrateIds`: the migration.
-/
import GraphMigrate.Migration.DocumentNames

namespace GraphMigrate

open Document (Schema)

/-- What the policy says about `id` on a type that is known. -/
def policyName? (policy : IdPolicy) (schema : Schema) (parent : Option String) :
    Option String :=
  parent.bind fun type => policy.resolve? (schema.hasField type)

/-- The warning about an `id` for which no rule fits. -/
def placeholderNote (policy : IdPolicy) (parent : Option String) : String :=
  "No replacement for `id` on `" ++ parent.getD "unknown type" ++ "`, selecting `"
    ++ policy.placeholder ++ "` instead"

/-- What becomes of `id`. -/
def idReplacement (policy : IdPolicy) (schema : Schema) (parent : Option String)
    (offset : Nat) : Renaming String := do
  match policyName? policy schema parent with
  | some name => return name
  | none =>
    Renaming.warn (placeholderNote policy parent) (.point offset)
    return policy.placeholder

/-- What becomes of the name of a field. -/
def identityName? (policy : IdPolicy) (schema : Schema) (parent : Option String)
    (offset : Nat) (name : String) : Renaming (Option String) :=
  if name == "__id" then return some "id"
  else if name == "_id" then return some "internalID"
  else if name == "id" then return some (← idReplacement policy schema parent offset)
  else return none

/-- An identity field under its new name. -/
def identityField (policy : IdPolicy) (schema : Schema) (parent : Option String)
    (offset : Nat) (field : Document.Field) : Renaming Document.Field := do
  match ← identityName? policy schema parent offset field.name with
  | none => return field
  | some name => return { field with name := ← Renaming.toName name offset }

/-- What becomes of the name of an argument. -/
def identityArgument? (name : String) : Option String :=
  if name == "__id" then some "id" else none

/-- Identity fields, and arguments called `__id`. -/
def identityRenamer (policy : IdPolicy) (schema : Schema) : Renamer where
  innerType? := schema.innerType?
  rootType? := Document.Definition.rootType? schema
  field := identityField policy schema
  argument? := identityArgument?

/-- Whether a text holds another. -/
def holds (part : List Char) : List Char → Bool
  | [] => part.isEmpty
  | c :: cs => part.isPrefixOf (c :: cs) || holds part cs

/-- Whether a text holds a tag with the opening mark of a template right
behind it. -/
def mentionsTag (tags : List String) (text : List Char) : Bool :=
  tags.any fun tag => holds (tag.toList ++ [Char.ofNat 0x60]) text

/-- Renames identity fields after what the schema says about their types. -/
def migrateIds (context : Context) (file : SourceFile) : Except MigrationError Outcome :=
  match context.schema with
  | none => .error (.missingSchema "migrate-ids")
  | some schema =>
    if mentionsTag context.tags file.chars then do
      let source ← file.parse
      let draft ← migrateTemplates (identityRenamer context.ids schema) (fun _ _ => [])
        (Script.templates context.tags source)
      return draft.finish file.text
    else
      .ok (.unchanged file.text)

end GraphMigrate
