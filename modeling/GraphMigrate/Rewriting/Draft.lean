/-
Rewriting a text.

A migration never prints a script anew.  It drafts edits of byte spans,
together with notes about what it left alone, and the edits are applied
in one pass: everything outside of them keeps its form.

* `Draft`: edits and notes, in the order in which they were made;
* `Draft.finish`: the text with the edits applied.
-/
import GraphMigrate.Diagnostic
import GraphMigrate.Text.Edit

namespace GraphMigrate

/-- Edits of a text and notes on it, in the order in which they were
made. -/
structure Draft where
  edits : List Edit := []
  notes : List Diagnostic := []
  deriving DecidableEq, Repr, Inhabited

/-- A text after a migration. -/
structure Outcome where
  text : String
  diagnostics : List Diagnostic
  changed : Bool
  deriving DecidableEq, Repr, Inhabited

namespace Draft

/-- The draft that leaves everything as it is. -/
def empty : Draft := {}

/-- A draft that goes on with another. -/
def append (first second : Draft) : Draft :=
  ⟨first.edits ++ second.edits, first.notes ++ second.notes⟩

instance : Append Draft := ⟨append⟩

@[simp] theorem edits_append (first second : Draft) :
    (first ++ second).edits = first.edits ++ second.edits := rfl

@[simp] theorem notes_append (first second : Draft) :
    (first ++ second).notes = first.notes ++ second.notes := rfl

/-- Drafts one after another. -/
def concat (drafts : List Draft) : Draft :=
  ⟨drafts.flatMap (·.edits), drafts.flatMap (·.notes)⟩

/-- A draft of edits alone. -/
def ofEdits (edits : List Edit) : Draft := ⟨edits, []⟩

/-- A draft of notes alone. -/
def ofNotes (notes : List Diagnostic) : Draft := ⟨[], notes⟩

/-- Replaces the text of a span. -/
def replace (span : Span) (text : String) : Draft := ofEdits [.replace span text]

/-- Inserts a text. -/
def insert (offset : Nat) (text : String) : Draft := ofEdits [.insert offset text]

/-- Notes something that was left untouched. -/
def info (message : String) (span : Span) : Draft := ofNotes [.info message span]

/-- Notes something that someone should look at. -/
def warn (message : String) (span : Span) : Draft := ofNotes [.warning message span]

/-- The text with the edits applied. -/
def finish (text : String) (draft : Draft) : Outcome :=
  let applied := applyEdits text draft.edits
  ⟨applied.text, draft.notes, applied.changed text⟩

end Draft

namespace Outcome

/-- The outcome of a migration that has nothing to do. -/
def unchanged (text : String) : Outcome := ⟨text, [], false⟩

end Outcome

end GraphMigrate
