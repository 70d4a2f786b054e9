/-
Lines and columns.

A `LineIndex` keeps the byte offset at which every line of a text
starts; only a line feed ends a line.  The position of an offset is the
last line that starts at or before it, and the number of bytes from
there.  Offsets past the end count on in the last line.

* `LineIndex.ofText` and `LineIndex.position`;
* `Position.display`: line and column, both counted from one.
-/
import GraphMigrate.Text.Span

namespace GraphMigrate

/-- A place in a text, line and column counted from zero. -/
structure Position where
  line : Nat
  column : Nat
  deriving DecidableEq, Repr, Inhabited

namespace Position

/-- Lines and columns are kept in thirty-two bits and stop at the
greatest such number. -/
def limit : Nat := 4294967295

/-- A position whose numbers are held at the limit. -/
def clamped (line column : Nat) : Position := ⟨min line limit, min column limit⟩

/-- Positions are ordered by line, then by column. -/
def before (a b : Position) : Bool :=
  a.line < b.line || (a.line == b.line && a.column < b.column)

/-- The later of two positions. -/
def max (a b : Position) : Position := if a.before b then b else a

/-- Line and column as people count them. -/
def display (p : Position) : String :=
  toString (p.line + 1) ++ ":" ++ toString (p.column + 1)

end Position

/-- The byte offsets at which the lines of a text start, in order. -/
structure LineIndex where
  starts : List Nat
  deriving DecidableEq, Repr

namespace LineIndex

/-- The offsets just after each line feed, the text beginning at `offset`. -/
def afterFeeds (offset : Nat) : List Char → List Nat
  | [] => []
  | c :: cs =>
    let next := offset + c.utf8Size
    if c = '\n' then next :: afterFeeds next cs else afterFeeds next cs

/-- The line starts of a text. -/
def ofText (cs : List Char) : LineIndex := ⟨0 :: afterFeeds 0 cs⟩

/-- Walks on from line `line`, which starts at `start`, while the next
line still starts at or before the offset. -/
def seek (offset line start : Nat) : List Nat → Nat × Nat
  | [] => (line, start)
  | next :: later => if next ≤ offset then seek offset (line + 1) next later else (line, start)

/-- The position of a byte offset. -/
def position (index : LineIndex) (offset : Nat) : Position :=
  let (line, start) := seek offset 0 0 (index.starts.drop 1)
  Position.clamped line (offset - start)

end LineIndex

end GraphMigrate
