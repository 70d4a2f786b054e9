/-
Batches of text edits.

Every edit names a byte span of one and the same text and the text to
put there.  A batch is applied in one pass: the edits are judged in
the order of the list, an edit that disagrees with one accepted earlier
is skipped, and the accepted ones are spliced in by position.

* `Edit.conflictsWith`: two edits that cannot both be applied.  Two
  insertions never conflict; an insertion conflicts with a replacement
  that it would split; two replacements conflict when they share a byte;
* `judge`: what becomes of one edit in view of those accepted before;
* `applyEdits`: the resulting text and the edits that were skipped.
-/
import GraphMigrate.Text.Span

namespace GraphMigrate

/-- A replacement of the bytes of a span by another text. -/
structure Edit where
  span : Span
  text : String
  deriving DecidableEq, Repr, Inhabited

namespace Edit

/-- Replaces the text that a span covers. -/
def replace (span : Span) (text : String) : Edit := ⟨span, text⟩

/-- Inserts a text at an offset. -/
def insert (offset : Nat) (text : String) : Edit := ⟨Span.point offset, text⟩

/-- Two edits that cannot both be applied. -/
def conflictsWith (first second : Edit) : Bool :=
  let a := first.span
  let b := second.span
  match a.isEmpty, b.isEmpty with
  | true, true => false
  | true, false => b.start < a.start && a.start < b.stop
  | false, true => a.start < b.start && b.start < a.stop
  | false, false => a.start < b.stop && b.start < a.stop

/-- The order in which edits are spliced: by start, then by stop. -/
def precedes (first second : Edit) : Bool :=
  first.span.start < second.span.start ||
    (first.span.start == second.span.start && first.span.stop ≤ second.span.stop)

/-- An edit fits a text when its span covers whole characters of it. -/
def fits (text : List Char) (edit : Edit) : Bool := (edit.span.slice? text).isSome

end Edit

/-- What becomes of an edit. -/
inductive Verdict where
  | accepted
  | repeated
  | skipped
  deriving DecidableEq, Repr

/-- Judges an edit in view of those accepted before it. -/
def judge (text : List Char) (accepted : List Edit) (edit : Edit) : Verdict :=
  if !edit.fits text then .skipped
  else if accepted.contains edit then .repeated
  else if accepted.any (·.conflictsWith edit) then .skipped
  else .accepted

/-- The accepted and the skipped edits of a batch so far, each in the
order of the list. -/
structure Batch where
  accepted : List Edit := []
  skipped : List Edit := []
  deriving DecidableEq, Repr, Inhabited

namespace Batch

/-- Adds one edit to the batch. -/
def consider (text : List Char) (batch : Batch) (edit : Edit) : Batch :=
  match judge text batch.accepted edit with
  | .accepted => { batch with accepted := batch.accepted ++ [edit] }
  | .repeated => batch
  | .skipped => { batch with skipped := batch.skipped ++ [edit] }

/-- Judges the edits of a list one after another. -/
def ofEdits (text : List Char) (edits : List Edit) : Batch :=
  edits.foldl (consider text) {}

end Batch

/-- Splices edits, ordered and apart from each other, into the text
that begins at the byte offset `cursor`. -/
def splice (cursor : Nat) (text : List Char) : List Edit → List Char
  | [] => text
  | edit :: edits =>
    match cutAt? (edit.span.start - cursor) text with
    | none => text
    | some (before, rest) =>
      match cutAt? (edit.span.stop - edit.span.start) rest with
      | none => text
      | some (_, after) => before ++ edit.text.toList ++ splice edit.span.stop after edits

/-- The text after a batch of edits and the edits that were skipped. -/
structure Applied where
  text : String
  skipped : List Edit
  deriving DecidableEq, Repr

namespace Applied

/-- Whether the text differs from the one before. -/
def changed (applied : Applied) (before : String) : Bool := applied.text != before

end Applied

/-- Applies a batch of edits to a text. -/
def applyEdits (text : String) (edits : List Edit) : Applied :=
  let chars := text.toList
  let batch := Batch.ofEdits chars edits
  let ordered := batch.accepted.mergeSort Edit.precedes
  ⟨String.ofList (splice 0 chars ordered), batch.skipped⟩

end GraphMigrate
