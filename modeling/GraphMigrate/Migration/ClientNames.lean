/-
Names in client documents.

Selected fields and arguments in snake case get names in camel case.  A
renamed field keeps its old name as an alias, so responses keep their
shape.  The inputs of a mutation are not renamed along, which a comment
in front of its template says.

* `clientRenamer`: fields and arguments in camel case;
* `advisoryEdits`: the comment in front of a mutation;
* `renameClientFields`: the migration.
-/
import GraphMigrate.Migration.DocumentNames
import GraphMigrate.Naming
import GraphMigrate.Text.Letters
import GraphMigrate.Text.Line

namespace GraphMigrate

open Script (Template)

/-- The camel case form of a name in snake case. -/
def camelized? (name : String) : Option String :=
  if Naming.needsCamelize name then some (Naming.camelize name) else none

/-- A field in camel case, with its old name as its alias. -/
def camelizeField (offset : Nat) (field : Document.Field) : Renaming Document.Field :=
  match camelized? field.name with
  | none => return field
  | some name =>
    return { field with
      alias? := some field.responseKey
      name := ← Renaming.toName name offset }

/-- Fields and arguments in camel case. -/
def clientRenamer : Renamer where
  innerType? _ _ := none
  rootType? _ := none
  field _ offset field := camelizeField offset field
  argument? := camelized?

/-! ### The comment in front of a mutation -/

/-- What the comment says. -/
def mutationAdvisory : String :=
  "TODO: Inputs to the mutation might have changed case of the keys!"

/-- Characters that a name in a script may hold. -/
def isWordPart (c : Char) : Bool := Letters.isAlphanumeric c || c == '_' || c == '$'

/-- Whether a text ends in a word. -/
def endsInWord (word : String) (text : List Char) : Bool :=
  match Naming.dropEnding? word.toList text with
  | none => false
  | some before => !(before.getLast?.any isWordPart)

/-- Words after which the line must go on. -/
def restrictedWords : List String := ["return", "throw", "yield"]

/-- Whether a line break in front of an offset would end the statement. -/
def lineBreakIsUnsafe (text : List Char) (offset : Nat) : Bool :=
  match cutAt? offset text with
  | none => false
  | some (before, _) =>
    let line := trimEnd (lastLine before)
    restrictedWords.any (endsInWord · line)

/-- The comment in front of an offset, with a line of its own where that
is safe. -/
def advisory (text : List Char) (offset : Nat) : String :=
  if lineBreakIsUnsafe text offset then "/* " ++ mutationAdvisory ++ " */ "
  else "// " ++ mutationAdvisory ++ "\n" ++ lineIndent text offset

/-- Whether a document holds a mutation. -/
def hasMutation (document : Document) : Bool :=
  document.definitions.any fun definition =>
    match definition with
    | .operation o => o.kind == .mutation
    | _ => false

/-- The edits that go along with a renamed document. -/
def advisoryEdits (text : List Char) (template : Template) (document : Document) : List Edit :=
  if hasMutation document then
    [.insert template.span.start (advisory text template.span.start)]
  else []

/-- Gives fields and arguments in client documents names in camel case. -/
def renameClientFields (context : Context) (file : SourceFile) :
    Except MigrationError Outcome := do
  let source ← file.parse
  let draft ← migrateTemplates clientRenamer (advisoryEdits file.chars)
    (Script.templates context.tags source)
  return draft.finish file.text

end GraphMigrate
