/-
Lines around a byte offset.

Rewritten code is laid out like the code around it: new lines take over
the indentation of the line they are added to, and scanning goes on from
the end of a construct.

* `restFrom`: the text behind an offset;
* `skip`: the offset behind a run of characters;
* `lineStart`, `lineIndent`: where the line of an offset starts, and its
  leading spaces and tabs.
-/
import GraphMigrate.Text.Blank
import GraphMigrate.Text.Span

namespace GraphMigrate

/-- The text behind an offset, empty where the text cannot be cut. -/
def restFrom (offset : Nat) (text : List Char) : List Char :=
  ((cutAt? offset text).map (·.2)).getD []

/-- The offset behind the characters of a class that follow an offset. -/
def skip (isSkipped : Char → Bool) (text : List Char) (offset : Nat) : Nat :=
  offset + byteLength ((restFrom offset text).takeWhile isSkipped)

/-- The part of a text behind its last line feed. -/
def lastLine (text : List Char) : List Char :=
  (text.reverse.takeWhile (· != '\n')).reverse

/-- Where the line of an offset starts, the start of the text where the
text cannot be cut. -/
def lineStart (text : List Char) (offset : Nat) : Nat :=
  match cutAt? offset text with
  | none => 0
  | some (before, _) => offset - byteLength (lastLine before)

/-- The spaces and tabs at the start of the line of an offset. -/
def lineIndent (text : List Char) (offset : Nat) : String :=
  String.ofList ((restFrom (lineStart text offset) text).takeWhile isInlineBlank)

end GraphMigrate
