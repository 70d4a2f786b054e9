/-
Renaming in embedded documents.

A renaming says what becomes of a field and of the names of arguments.
It is carried through the fields of operations and fragments, their
arguments, and the directives on fields, operations and fragments; it
counts what it renames.  A document in which nothing is renamed keeps
its written form; any other is printed anew, unless the printed text
could not stand in a template.

* `Renaming`: renames with a count and notes, and may fail;
* `Renamer`: what becomes of fields and arguments;
* `Renamer.document`: a document after a renamer;
* `templateText?`: a document as the text of a template;
* `migrateTemplates`: the draft for all templates of a script.
-/
import GraphMigrate.Document.Printer
import GraphMigrate.Document.Walk
import GraphMigrate.Migration.Basic

namespace GraphMigrate

open Document (Argument Definition Directive Field Schema Selection)
open Script (Template)

/-- How many names were renamed, and notes on the way. -/
structure Tally where
  renamed : Nat := 0
  notes : List Diagnostic := []
  deriving DecidableEq, Repr, Inhabited

/-- Renames with a count and notes, and may fail. -/
abbrev Renaming := StateT Tally (Except MigrationError)

namespace Renaming

/-- Fails. -/
def fail {α : Type} (error : MigrationError) : Renaming α := fun _ => .error error

/-- Counts a rename. -/
def count : Renaming Unit := modify fun t => { t with renamed := t.renamed + 1 }

/-- Notes something that someone should look at. -/
def warn (message : String) (span : Span) : Renaming Unit :=
  modify fun t => { t with notes := t.notes ++ [.warning message span] }

/-- Counts a new name, which has to be a valid one. -/
def toName (name : String) (offset : Nat) : Renaming String := do
  if Document.isName name then
    count
    return name
  else
    fail (.invalidName name offset)

end Renaming

/-- What becomes of fields, by the type they are selected on and the
offset at which they stand in the script, and of the names of
arguments. -/
structure Renamer where
  innerType? : String → String → Option String
  rootType? : Definition → Option String
  field : Option String → Nat → Field → Renaming Field
  argument? : String → Option String

namespace Renamer

/-- An argument after a renamer. -/
def argument (renamer : Renamer) (offset : Nat) (argument : Argument) : Renaming Argument :=
  match renamer.argument? argument.name with
  | none => return argument
  | some name => return { argument with name := ← Renaming.toName name offset }

/-- A directive after a renamer. -/
def directive (renamer : Renamer) (offset : Nat) (directive : Directive) :
    Renaming Directive := do
  return { directive with arguments := ← directive.arguments.mapM (renamer.argument offset) }

/-- A field with its arguments and directives after a renamer, in a
document that starts at an offset. -/
def visit (renamer : Renamer) (start : Nat) (parent : Option String) (head : Field) :
    Renaming Field := do
  let offset := start + head.offset
  let named ← renamer.field parent offset head
  let arguments ← head.arguments.mapM (renamer.argument offset)
  let directives ← head.directives.mapM (renamer.directive offset)
  return { named with arguments, directives }

/-- Selections after a renamer. -/
def selections (renamer : Renamer) (start : Nat) (parent : Option String)
    (selections : List Selection) : Renaming (List Selection) :=
  Selection.mapFieldsAll renamer.innerType? (renamer.visit start) parent selections

/-- A member of a document after a renamer. -/
def definition (renamer : Renamer) (start : Nat) (definition : Definition) :
    Renaming Definition := do
  let root := renamer.rootType? definition
  match definition with
  | .operation o =>
    let directives ← o.directives.mapM (renamer.directive start)
    let selections ← renamer.selections start root o.selections
    return .operation { o with directives, selections }
  | .fragment f =>
    let directives ← f.directives.mapM (renamer.directive start)
    let selections ← renamer.selections start root f.selections
    return .fragment { f with directives, selections }
  | other => return other

/-- A document after a renamer. -/
def document (renamer : Renamer) (start : Nat) (document : Document) : Renaming Document := do
  return ⟨← document.definitions.mapM (renamer.definition start)⟩

end Renamer

/-! ### Templates -/

/-- Whether a text can stand in a template: it would neither end it nor
start an interpolation. -/
def fitsTemplate : List Char → Bool
  | [] => true
  | '$' :: '\x7b' :: _ => false
  | c :: cs => c != (Char.ofNat 0x60) && fitsTemplate cs

/-- A document as the text of a template. -/
def templateText? (document : Document) : Option String :=
  let printed := document.written
  if fitsTemplate printed.toList then some printed else none

/-- The document in a template. -/
def Script.Template.document (template : Template) : Except MigrationError Document :=
  match Document.parse? template.text.toList with
  | some document => .ok document
  | none => .error (.invalidDocument template.segment.start)

/-- The note on a template that is put together by the script. -/
def interpolationNote : String := "Skipping GraphQL document with interpolations"

/-- The note on a document whose printed text does not fit a template. -/
def unprintableNote : String :=
  "Skipping GraphQL document that cannot be written back into a template literal"

/-- The draft for a document after a renaming, with the edits that go
along with it. -/
def renamedDraft (template : Template) (accompany : Document → List Edit)
    (renamed : Document × Tally) : Draft :=
  let (document, tally) := renamed
  if tally.renamed = 0 then .ofNotes tally.notes
  else
    match templateText? document with
    | none => .ofNotes tally.notes ++ .warn unprintableNote template.span
    | some text =>
      ⟨.replace template.segment text :: accompany document, tally.notes⟩

/-- The draft for a template. -/
def migrateTemplate (renamer : Renamer) (accompany : Template → Document → List Edit)
    (template : Template) : Except MigrationError Draft :=
  if template.interpolated then .ok (.warn interpolationNote template.span)
  else do
    let document ← template.document
    let renamed ← (renamer.document template.segment.start document).run {}
    return renamedDraft template (accompany template) renamed

/-- The draft for all templates of a script. -/
def migrateTemplates (renamer : Renamer) (accompany : Template → Document → List Edit)
    (templates : List Template) : Except MigrationError Draft := do
  return .concat (← templates.mapM (migrateTemplate renamer accompany))

end GraphMigrate
