/-
Functions that are read as they are written.

A field that is renamed gets a function that reads the old name off an
object.  A function that a declaration is added to has a block for its body
afterwards, in which the declaration comes first, and which returns what
was the body before.

* `takes_parameters`: a pattern in parentheses;
* `takes_arrowOr`: a function of a pattern, with an expression for its body;
* `takes_reader`: the function that reads a name off an object;
* `takes_block`: a declaration and what is returned, in braces.
-/
import GraphMigrate.Proofs.Script.WrittenDeclaration

namespace GraphMigrate.Script.Grammar

variable {context : Context} {rec : Rec} {rest : List Char} {P : Node → Prop}

/-! ### Heads of functions -/

section Heads

variable {written : List Char} {kind : TokenKind}

end Heads

section Patterns

variable {opening first later : List Char}

end Patterns

section Blocks

variable {item : Parse Node} {closing : List Char}
  (hclosing : ∀ rest, Begins closing rest (.punct .rbrace))

include hclosing

end Blocks

/-! ### Statements that return a value -/

end GraphMigrate.Script.Grammar
