/-
What migrations are given, and how they fail.

A migration that fails leaves its file as it was.  The error says what
was found and at which byte; only the lack of a schema has no place.

* `Context`: the settings that all files share;
* `SourceFile`: a file with its language;
* `MigrationError`: its offset and its wording.
-/
import GraphMigrate.Definitions.Locate
import GraphMigrate.Document.Schema
import GraphMigrate.Migration.IdPolicy
import GraphMigrate.Rewriting.Draft
import GraphMigrate.Script.Template

namespace GraphMigrate

/-- The settings that all files share. -/
structure Context where
  vocabulary : Vocabulary := {}
  /-- The tags of templates that hold documents. -/
  tags : List String := ["graphql"]
  ids : IdPolicy := {}
  schema : Option Document.Schema := none
  deriving Inhabited

/-- A text and the language that it is written in. -/
structure SourceFile where
  text : String
  language : Language
  deriving DecidableEq, Repr, Inhabited

/-- The reasons why a migration fails on a file. -/
inductive MigrationError where
  | invalidScript (offset : Nat)
  | notLocated (cause : LocateError)
  | invalidDocument (offset : Nat)
  | unexpectedParameter (kind : String) (offset : Nat)
  | unexpectedEnumValue (kind : String) (offset : Nat)
  | expectedOptions (callee : String) (offset : Nat)
  | missingOption (property callee : String) (offset : Nat)
  | invalidName (name : String) (offset : Nat)
  | missingSchema (migration : String)
  deriving DecidableEq, Repr

namespace MigrationError

/-- Where the offending part starts. -/
def offset? : MigrationError → Option Nat
  | invalidScript o | invalidDocument o | unexpectedParameter _ o | unexpectedEnumValue _ o
  | expectedOptions _ o | missingOption _ _ o | invalidName _ o => some o
  | notLocated cause => some cause.offset
  | missingSchema _ => none

/-- An offset in parentheses. -/
def place (offset : Nat) : String := "(byte " ++ toString offset ++ ")"

/-- The wording of an error. -/
def message : MigrationError → String
  | invalidScript o => "Syntax error at byte " ++ toString o
  | notLocated cause => cause.message
  | invalidDocument o => "Invalid GraphQL document " ++ place o
  | unexpectedParameter kind o => "Unexpected param type `" ++ kind ++ "` " ++ place o
  | unexpectedEnumValue kind o => "Unexpected enum value type `" ++ kind ++ "` " ++ place o
  | expectedOptions callee o =>
    "Expected an options object as first argument of `" ++ callee ++ "` " ++ place o
  | missingOption property callee o =>
    "Missing `" ++ property ++ "` property in `" ++ callee ++ "` options " ++ place o
  | invalidName name o => "`" ++ name ++ "` is not a valid GraphQL name " ++ place o
  | missingSchema migration => "The `" ++ migration ++ "` codemod needs a schema"

end MigrationError

namespace SourceFile

/-- The characters of a file. -/
def chars (file : SourceFile) : List Char := file.text.toList

/-- Reads a file. -/
def parse (file : SourceFile) : Except MigrationError Script.Source :=
  match Script.Source.parse file.language file.text with
  | .error e => .error (.invalidScript e.offset)
  | .ok source => .ok source

/-- Reads a file and finds its schema definitions. -/
def definitions (file : SourceFile) (vocabulary : Vocabulary) :
    Except MigrationError Definitions := do
  let source ← file.parse
  match locate vocabulary source with
  | .error e => .error (.notLocated e)
  | .ok found => .ok found

end SourceFile

/-- A file that is read has a text that is read. -/
theorem source_of_parse {file : SourceFile} {source : Script.Source}
    (h : file.parse = .ok source) :
    Script.Source.parse file.language file.text = .ok source := by
  rw [SourceFile.parse] at h
  cases hsource : Script.Source.parse file.language file.text with
  | error e =>
      rw [hsource] at h
      cases h
  | ok found =>
      rw [hsource] at h
      cases h
      rfl

end GraphMigrate
