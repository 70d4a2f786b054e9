/-
A text together with its tree.

Spans in the tree are relative to the text behind a byte order mark.
What a span covers is nevertheless read off the text as it was given,
mark included, so in such a text every quotation is three bytes off;
where it would split a character it is empty.

* `Source.parse`: a text with its tree;
* `Source.quote`: the text that a span covers;
* `Source.keyName?`: the name of a property key.
-/
import GraphMigrate.Script.Grammar

namespace GraphMigrate.Script

/-- A text together with its tree. -/
structure Source where
  text : List Char
  script : Module

namespace Source

/-- Reads a text. -/
def parse (language : Language) (text : String) : Except SyntaxError Source := do
  let script ← parseModule language text.toList
  return ⟨text.toList, script⟩

/-- The text that a span covers. -/
def quote (source : Source) (span : Span) : String := span.sliceText source.text

/-- A text without the quotes at its ends. -/
def trimQuotes (text : String) : String :=
  let isQuote (c : Char) : Bool := c == '"' || c == '\''
  let front := text.toList.dropWhile isQuote
  String.ofList (front.reverse.dropWhile isQuote).reverse

/-- The name of a property key: a quoted one without its quotes, a
number as it is written. -/
def keyName? (source : Source) (key : Key) : Option String :=
  match key.form with
  | .name text => some text
  | .quoted => some (trimQuotes (source.quote key.span))
  | .numeral => some (source.quote key.span)
  | .computed => none

end Source

end GraphMigrate.Script
