/-
The languages a script can be written in.

The language decides which dialect the parser reads and whether type
annotations may be written into rewritten code.  It follows from the
extension of the path.

* `Language.ofPath?`: the language of a file.
-/
import GraphMigrate.Path

namespace GraphMigrate

/-- A script dialect. -/
inductive Language where
  | typeScript
  | tsx
  | javaScript
  deriving DecidableEq, Repr, Inhabited

namespace Language

/-- The dialect of a file extension, written without its dot. -/
def ofExtension? (extension : String) : Option Language :=
  if ["ts", "mts", "cts"].contains extension then some .typeScript
  else if extension == "tsx" then some .tsx
  else if ["js", "jsx", "mjs", "cjs"].contains extension then some .javaScript
  else none

/-- The dialect of a file, by its extension. -/
def ofPath? (path : String) : Option Language :=
  (Path.extension? path).bind ofExtension?

/-- Dialects with type annotations. -/
def hasTypes : Language → Bool
  | .typeScript | .tsx => true
  | .javaScript => false

/-- Dialects with markup elements. -/
def hasMarkup : Language → Bool
  | .tsx | .javaScript => true
  | .typeScript => false

end Language

end GraphMigrate
