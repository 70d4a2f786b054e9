/-
Entries of object literals.

An entry is removed along with the comma behind it, and with its line
when it stands alone there.  A property is added behind the last one, in
the same layout: on a line of its own if the literal has several lines,
and with a comma behind it if the last one had one.

* `removalSpan`: the span to delete for an entry;
* `appendProperty`: the edit that adds a property.
-/
import GraphMigrate.Definitions.Model
import GraphMigrate.Text.Edit
import GraphMigrate.Text.Line

namespace GraphMigrate

/-- The offset behind a comma at an offset, or the offset itself. -/
def skipComma (text : List Char) (offset : Nat) : Nat :=
  if (restFrom offset text).head? = some ',' then offset + 1 else offset

/-- The width of the line end at an offset, if there is one. -/
def lineEndWidth? (text : List Char) (offset : Nat) : Option Nat :=
  match restFrom offset text with
  | '\n' :: _ => some 1
  | '\r' :: '\n' :: _ => some 2
  | _ => none

/-- Whether nothing but white space precedes an offset on its line. -/
def isFirstOnLine (text : List Char) (offset : Nat) : Bool :=
  (Span.slice? ⟨lineStart text offset, offset⟩ text).any fun before => (trim before).isEmpty

/-- The span to delete for an entry of an object literal. -/
def removalSpan (text : List Char) (entry : Span) : Span :=
  let after := skip isInlineBlank text (skipComma text (skip isInlineBlank text entry.stop))
  if isFirstOnLine text entry.start then
    match lineEndWidth? text after with
    | some width => ⟨lineStart text entry.start, after + width⟩
    | none => ⟨entry.start, after⟩
  else
    ⟨entry.start, after⟩

/-- The edit that removes an entry of an object literal. -/
def removeEntry (text : List Char) (entry : Span) : Edit := .replace (removalSpan text entry) ""

/-- The edit that adds a property to an object literal without any. -/
def addFirstProperty (text : List Char) (object : Span) (property : String) : Edit :=
  let inner : Span := ⟨object.start + 1, object.stop - 1⟩
  if (inner.slice? text).any fun inside => (trim inside).isEmpty then
    .replace inner (" " ++ property ++ " ")
  else
    .insert (object.start + 1) (" " ++ property ++ ",")

/-- The edit that adds a property behind the last one. -/
def addLastProperty (text : List Char) (object last : Span) (property : String) : Edit :=
  let after := skip isAsciiBlank text last.stop
  let hasComma := (restFrom after text).head? == some ','
  let hasLines := (Span.slice? ⟨object.start, last.start⟩ text).any (·.contains '\n')
  let indent := lineIndent text last.start
  match hasLines, hasComma with
  | true, true => .insert (after + 1) ("\n" ++ indent ++ property ++ ",")
  | true, false => .insert last.stop (",\n" ++ indent ++ property)
  | false, true => .insert (after + 1) (" " ++ property ++ ",")
  | false, false => .insert last.stop (", " ++ property)

/-- The edit that adds a property to an object literal. -/
def appendProperty (text : List Char) (object : Span) (properties : List ConfigProperty)
    (property : String) : Edit :=
  match properties.getLast? with
  | none => addFirstProperty text object property
  | some last => addLastProperty text object last.span property

end GraphMigrate
