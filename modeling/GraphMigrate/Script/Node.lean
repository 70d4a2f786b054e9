/-
The tree of a script.

The tree keeps apart the constructs that the analyses look at: object
literals and their properties, functions and their parameters, calls,
constructor calls, typed declarations, tagged templates.  Everything
else is `other`: a span and the nodes inside it.  The children of a
node stand in the order in which they are visited, which is the order
of the text but for a few constructs that the grammar arranges itself.

* `Node`, `Node.span`: the tree and the span of each node;
* `Node.children`: the nodes directly below a node;
* `Node.preorder`: a node and all nodes below it, each before those it
  contains; `preorder_eq` states it through `children`, and
  `induction_children` goes up from them;
* `Node.unwrap`: an expression without parentheses, casts and the like.
-/
import GraphMigrate.Text.Span

namespace GraphMigrate.Script

/-- Ways of writing an expression that do not change its value. -/
inductive Wrapper where
  | parentheses
  | cast
  | constCast
  | satisfies
  | nonNull
  deriving DecidableEq, Repr

/-- How a property key is written.  Only a name carries its text: that
of the other forms is read off the source. -/
inductive KeyForm where
  | name (text : String)
  | quoted
  | numeral
  | computed
  deriving DecidableEq, Repr

/-- A property key and where it stands. -/
structure Key where
  form : KeyForm
  span : Span
  deriving DecidableEq, Repr

/-- A type referred to by name: the last part of the name and, when the
first type argument is such a reference as well, its name. -/
structure TypeName where
  name : String
  argument : Option String
  deriving DecidableEq, Repr

/-- The two kinds of accessor properties. -/
inductive Accessor where
  | getter
  | setter
  deriving DecidableEq, Repr

/-- Patterns other than a name and an object pattern. -/
inductive PatternKind where
  | withDefault
  | array
  | rest
  | expression
  deriving DecidableEq, Repr

/-- A construct of a script. -/
inductive Node where
  /-- A name used as an expression. -/
  | name (text : String) (span : Span)
  /-- `super` or `import` in the place of a callee. -/
  | keyword (word : String) (span : Span)
  /-- An expression in a wrapper that does not change its value. -/
  | wrapped (wrapper : Wrapper) (inner : Node) (types : List Node) (span : Span)
  /-- Access to a member; the field is absent for computed and private ones. -/
  | member (owner : Node) (field : Option String) (index : List Node) (span : Span)
  /-- An object literal. -/
  | object (properties : List Node) (span : Span)
  /-- An arrow function; its body is a block or an expression. -/
  | arrow (parameters : List Node) (body : Node) (types : List Node) (span : Span)
  /-- A function expression; a body may be missing. -/
  | function (parameters : List Node) (body : Option Node) (types : List Node) (span : Span)
  /-- A call. -/
  | call (callee : Node) (arguments : List Node) (types : List Node) (span : Span)
  /-- A constructor call. -/
  | construct (callee : Node) (arguments : List Node) (types : List Node) (span : Span)
  /-- A tagged template: its first segment and the interpolated expressions. -/
  | tagged (tag : Node) (types : List Node) (segment : Span) (parts : List Node) (span : Span)
  /-- Three dots before an expression, in an object literal or among arguments. -/
  | spread (dots : Nat) (value : Node)
  /-- The property `key: value`. -/
  | keyed (key : Key) (index : List Node) (value : Node)
  /-- The property `name`. -/
  | shorthand (text : String) (span : Span)
  /-- A method; the span starts at its first modifier. -/
  | method (key : Key) (index : List Node) (parameters : List Node) (body : Option Node)
      (types : List Node) (span : Span)
  /-- A getter or a setter. -/
  | accessor (kind : Accessor) (key : Key) (index : List Node) (inside : List Node) (span : Span)
  /-- The property `name = value`, which only a pattern can mean. -/
  | assigned (text : String) (nameSpan : Span) (value : Node)
  /-- A bound name with its type annotation. -/
  | binding (text : String) (nameSpan : Span) (typing : Option Node)
  /-- A destructuring pattern in braces. -/
  | objectPattern (properties : List Node) (types : List Node) (span : Span)
  /-- The pattern property `key: pattern`. -/
  | patternKeyed (key : Key) (index : List Node) (value : Node)
  /-- The pattern property `name` or `name = value`. -/
  | patternName (text : String) (nameSpan : Span) (value : Option Node)
  /-- The rest element of a pattern in braces. -/
  | patternRest (inside : List Node) (span : Span)
  /-- Any other pattern. -/
  | pattern (kind : PatternKind) (inside : List Node) (span : Span)
  /-- A parameter after its decorators, which do not belong to its span. -/
  | decorated (decorators : List Node) (inner : Node)
  /-- A type; its name if it is a reference. -/
  | type (name : Option TypeName) (inside : List Node) (span : Span)
  /-- Statements in braces. -/
  | block (statements : List Node) (span : Span)
  /-- A `return` statement. -/
  | ret (value : Option Node) (span : Span)
  /-- One declared variable. -/
  | declarator (target : Node) (value : Option Node) (span : Span)
  /-- An import declaration and the names it binds one by one. -/
  | imports (names : List String) (span : Span)
  /-- Any other construct. -/
  | other (inside : List Node) (span : Span)
  deriving Repr, Inhabited

namespace Node

/-- The bytes that a node takes up. -/
def span : Node → Span
  | name _ s | keyword _ s | wrapped _ _ _ s | member _ _ _ s | object _ s => s
  | arrow _ _ _ s | function _ _ _ s | call _ _ _ s | construct _ _ _ s | tagged _ _ _ _ s => s
  | spread dots value => ⟨dots, value.span.stop⟩
  | keyed key _ value => ⟨key.span.start, value.span.stop⟩
  | shorthand _ s => s
  | method _ _ _ _ _ s => s
  | accessor _ _ _ _ s => s
  | assigned _ s value => ⟨s.start, value.span.stop⟩
  | binding _ s _ => s
  | objectPattern _ _ s => s
  | patternKeyed key _ value => ⟨key.span.start, value.span.stop⟩
  | patternName _ s none => s
  | patternName _ s (some value) => ⟨s.start, value.span.stop⟩
  | patternRest _ s | pattern _ _ s => s
  | decorated _ inner => inner.span
  | type _ _ s | block _ s | ret _ s | declarator _ _ s | imports _ s | other _ s => s

/-- The nodes directly below a node, in visiting order. -/
def children : Node → List Node
  | name _ _ | keyword _ _ | shorthand _ _ | imports _ _ => []
  | wrapped _ inner types _ => inner :: types
  | member owner _ index _ => owner :: index
  | object properties _ => properties
  | arrow parameters body types _ => parameters ++ body :: types
  | function parameters body types _ => parameters ++ body.toList ++ types
  | call callee arguments types _ => callee :: arguments ++ types
  | construct callee arguments types _ => callee :: arguments ++ types
  | tagged tag types _ parts _ => tag :: types ++ parts
  | spread _ value => [value]
  | keyed _ index value => index ++ [value]
  | method _ index parameters body types _ => index ++ parameters ++ body.toList ++ types
  | accessor _ _ index inside _ => index ++ inside
  | assigned _ _ value => [value]
  | binding _ _ typing => typing.toList
  | objectPattern properties types _ => properties ++ types
  | patternKeyed _ index value => index ++ [value]
  | patternName _ _ value => value.toList
  | patternRest inside _ => inside
  | pattern _ inside _ => inside
  | decorated decorators inner => decorators ++ [inner]
  | type _ inside _ => inside
  | block statements _ => statements
  | ret value _ => value.toList
  | declarator target value _ => target :: value.toList
  | other inside _ => inside

mutual

/-- A node and all nodes below it, each before those it contains. -/
def preorder : Node → List Node
  | n@(name _ _) | n@(keyword _ _) | n@(shorthand _ _) | n@(imports _ _) => [n]
  | n@(wrapped _ inner types _) => n :: (preorder inner ++ preorderAll types)
  | n@(member owner _ index _) => n :: (preorder owner ++ preorderAll index)
  | n@(object properties _) => n :: preorderAll properties
  | n@(arrow parameters body types _) =>
    n :: (preorderAll parameters ++ (preorder body ++ preorderAll types))
  | n@(function parameters body types _) =>
    n :: (preorderAll parameters ++ preorderOpt body ++ preorderAll types)
  | n@(call callee arguments types _) =>
    n :: (preorder callee ++ (preorderAll arguments ++ preorderAll types))
  | n@(construct callee arguments types _) =>
    n :: (preorder callee ++ (preorderAll arguments ++ preorderAll types))
  | n@(tagged tag types _ parts _) =>
    n :: (preorder tag ++ (preorderAll types ++ preorderAll parts))
  | n@(spread _ value) => n :: preorder value
  | n@(keyed _ index value) => n :: (preorderAll index ++ preorder value)
  | n@(method _ index parameters body types _) =>
    n :: (preorderAll index ++ preorderAll parameters ++ preorderOpt body ++ preorderAll types)
  | n@(accessor _ _ index inside _) => n :: (preorderAll index ++ preorderAll inside)
  | n@(assigned _ _ value) => n :: preorder value
  | n@(binding _ _ typing) => n :: preorderOpt typing
  | n@(objectPattern properties types _) => n :: (preorderAll properties ++ preorderAll types)
  | n@(patternKeyed _ index value) => n :: (preorderAll index ++ preorder value)
  | n@(patternName _ _ value) => n :: preorderOpt value
  | n@(patternRest inside _) => n :: preorderAll inside
  | n@(pattern _ inside _) => n :: preorderAll inside
  | n@(decorated decorators inner) => n :: (preorderAll decorators ++ preorder inner)
  | n@(type _ inside _) => n :: preorderAll inside
  | n@(block statements _) => n :: preorderAll statements
  | n@(ret value _) => n :: preorderOpt value
  | n@(declarator target value _) => n :: (preorder target ++ preorderOpt value)
  | n@(other inside _) => n :: preorderAll inside

/-- The nodes of a list with all nodes below them. -/
def preorderAll : List Node → List Node
  | [] => []
  | n :: ns => preorder n ++ preorderAll ns

/-- The nodes of an optional node. -/
def preorderOpt : Option Node → List Node
  | none => []
  | some n => preorder n

end

/-- An expression without the wrappers that do not change its value. -/
def unwrap : Node → Node
  | wrapped _ inner _ _ => inner.unwrap
  | n => n

/-! ### Laws of the traversal -/

theorem preorderAll_eq_flatMap (ns : List Node) : preorderAll ns = ns.flatMap preorder := by
  induction ns with
  | nil => simp [preorderAll]
  | cons n ns ih => simp [preorderAll, ih]

theorem preorderOpt_eq_flatMap (n : Option Node) :
    preorderOpt n = n.toList.flatMap preorder := by
  cases n <;> simp [preorderOpt]

/-- A node comes first, then the nodes below it, child by child. -/
theorem preorder_eq (n : Node) : n.preorder = n :: n.children.flatMap preorder := by
  cases n <;> simp [preorder, children, preorderAll_eq_flatMap, preorderOpt_eq_flatMap]

theorem self_mem_preorder (n : Node) : n ∈ n.preorder := by
  rw [preorder_eq]
  exact List.mem_cons_self

theorem mem_preorder_iff {m n : Node} :
    m ∈ n.preorder ↔ m = n ∨ ∃ c ∈ n.children, m ∈ c.preorder := by
  rw [preorder_eq, List.mem_cons, List.mem_flatMap]

theorem mem_preorder_of_mem_children {n c : Node} (h : c ∈ n.children) : c ∈ n.preorder :=
  mem_preorder_iff.mpr (.inr ⟨c, h, c.self_mem_preorder⟩)

/-- Induction over a tree, from the nodes directly below a node to the node. -/
theorem induction_children {P : Node → Prop} (h : ∀ n, (∀ c ∈ n.children, P c) → P n) (n : Node) :
    P n := by
  -- going down, fewer nodes are left
  have hlt (n c : Node) (hc : c ∈ n.children) : c.preorder.length < n.preorder.length := by
    have hsublist : List.Sublist c.preorder (n.children.flatMap preorder) :=
      List.sublist_flatten_of_mem (List.mem_map_of_mem hc)
    rw [preorder_eq n, List.length_cons]
    exact Nat.lt_succ_of_le hsublist.length_le
  exact (measure fun n : Node => n.preorder.length).wf.induction n fun n ih =>
    h n fun c hc => ih c (hlt n c hc)

theorem unwrap_wrapped (wrapper : Wrapper) (inner : Node) (types : List Node) (s : Span) :
    (wrapped wrapper inner types s).unwrap = inner.unwrap := rfl

/-- Without what surrounds its value, an expression is still below where it was. -/
theorem unwrap_mem_preorder (n : Node) : n.unwrap ∈ n.preorder := by
  fun_induction unwrap n with
  | case1 wrapper inner types s ih =>
      exact mem_preorder_iff.mpr (.inr ⟨inner, List.mem_cons_self, ih⟩)
  | case2 n => exact self_mem_preorder n

end Node

end GraphMigrate.Script
