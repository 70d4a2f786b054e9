/-
Documents embedded in a script.

A document is written as a template whose tag is a plain name out of a
list.  Only its first segment, up to the first interpolation, is read.

* `Template.ofNode?`: the document that a tagged template is;
* `templates`: the documents of a script, each before those inside it.
-/
import GraphMigrate.Script.Source

namespace GraphMigrate.Script

/-- A document written as a tagged template. -/
structure Template where
  tag : String
  /-- The text of the first segment. -/
  text : String
  /-- Where the first segment stands, between its marks. -/
  segment : Span
  /-- Where the whole template stands, its tag included. -/
  span : Span
  interpolated : Bool
  deriving DecidableEq, Repr

namespace Template

/-- The document that a node is, if its tag is among those given. -/
def ofNode? (tags : List String) (source : Source) : Node → Option Template
  | .tagged (.name tag _) _ segment parts span =>
    if tags.contains tag then
      some ⟨tag, source.quote segment, segment, span, !parts.isEmpty⟩
    else
      none
  | _ => none

end Template

/-- The documents of a script. -/
def templates (tags : List String) (source : Source) : List Template :=
  source.script.preorder.filterMap (Template.ofNode? tags source)

end GraphMigrate.Script
