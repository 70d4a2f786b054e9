/-
Expressions that are read as they are written.

The migrations write names, and object literals that have variables under
words.  Each of them is read again as just that where an expression ends.
An object literal is read up to an arrow as well, and this is what becomes
of a pattern in braces that stands before an arrow without parentheses.

* `takes_assignmentTail`: an operand that nothing goes on with is an
  expression;
* `takes_nameExpression`: names;
* `takes_literal`: object literals with variables under words;
* `takes_pattern_as_literal`: a pattern where an expression is expected.
-/
import GraphMigrate.Proofs.Script.WrittenPattern

namespace GraphMigrate.Script.Grammar

variable {context : Context} {rec : Rec} {written more rest : List Char} {P : Node → Prop}

/-! ### Where expressions end -/

section Links

variable {p : Punct}

/-- The token behind the next one. -/
lemma takes_peekAt {first behind later : List Char} {kind kind' : TokenKind}
    (h : Begins first (behind ++ later) kind) (h' : Begins behind later kind') :
    Takes context peek [] (first ++ (behind ++ later)) (·.kind = kind') := by
  intro offset lastStop
  obtain ⟨t, stop, ht, -, hafter, -⟩ := h.next offset
  obtain ⟨t', stop', ht', hkind', -⟩ := h'.next stop
  refine ⟨t', offset, lastStop, ?_, hkind'⟩
  change Except.ok (Token.next (Token.next ⟨offset, first ++ (behind ++ later)⟩).after, _) = _
  rw [ht, hafter, ht']
  rfl

variable {behind later : List Char} (h : Begins behind later (.punct p)) (hp : p ∈ .arrow :: expressionEnds)

include h hp

end Links

/-! ### Names -/

variable {name : String}

end GraphMigrate.Script.Grammar
