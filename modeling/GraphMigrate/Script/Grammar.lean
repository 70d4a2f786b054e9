/-
Scripts.

The readers of the grammar are joined here.  A reader may ask for a
construct only as deep as the text is long, times a constant: between
two nested constructs that use no token there is a fixed number of
steps.  So the bound `depthBound` is never reached, and reading is a
structural recursion.

* `Grammar.read`: the reader of each goal, up to a depth;
* `parseModule`: the tree of a text.  A byte order mark at the very
  start is dropped and not counted, so all spans are then relative to
  the text behind it.
-/
import GraphMigrate.Language
import GraphMigrate.Script.Grammar.Statements

namespace GraphMigrate.Script

namespace Grammar

/-- One step of every reader, given the readers one level below. -/
def step (rec : Rec) : Goal → Parse Node
  | .statement => statementReader rec
  | .assignment => assignmentReader rec
  | .unary => unaryReader rec
  | .type => typeReader rec
  | .pattern => patternReader rec
  | .element => elementReader rec

/-- The reader of each goal, for constructs nested up to a depth. -/
def read : Nat → Rec
  | 0, _ => fail
  | depth + 1, goal => step (read depth) goal

/-- How deep constructs can be nested in a text of a given length. -/
def depthBound (length : Nat) : Nat := 16 * length + 64

/-- The statements of a text up to its end. -/
def moduleItems (depth : Nat) : Parse (List Node) :=
  loop (fun items => do
    if (← token).kind == .finish then return .inr items.reverse
    let item ← read depth .statement
    return .inl (item :: items)) []

end Grammar

/-- The statements of a script. -/
structure Module where
  items : List Node
  deriving Repr, Inhabited

namespace Module

/-- All nodes of a script, each before those it contains. -/
def preorder (script : Module) : List Node := Node.preorderAll script.items

end Module

/-- A text without a byte order mark at its start. -/
def dropByteOrderMark : List Char → List Char
  | c :: cs => if c.toNat = 0xFEFF then cs else c :: cs
  | [] => []

/-- The tree of a text, or where reading it stopped. -/
def parseModule (language : Language) (text : List Char) : Except SyntaxError Module :=
  let chars := dropByteOrderMark text
  let start := skipInterpreterLine ⟨0, chars⟩
  let state : Grammar.State :=
    { token := Token.next start, lastStop := start.offset,
      context := { types := language.hasTypes, markup := language.hasMarkup } }
  match Grammar.moduleItems (Grammar.depthBound chars.length) state with
  | .ok (items, _) => .ok ⟨items⟩
  | .error e => .error e

end GraphMigrate.Script
