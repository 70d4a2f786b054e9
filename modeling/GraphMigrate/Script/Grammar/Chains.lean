/-
Calls, members and templates.

What follows an expression and takes it as its first part: member
access, calls, tagged templates, type arguments.  Once a chain has an
optional link, its later links belong to the optional chain and are
neither members nor calls of their own.

* `callArguments`: the arguments of a call, in parentheses;
* `subscripts`: everything that follows an expression;
* `decoratorExpression`: what follows an at sign.
-/
import GraphMigrate.Script.Grammar.Functions

namespace GraphMigrate.Script.Grammar

/-- Expressions separated by commas: a single one stands for itself. -/
def expression (rec : Rec) : Parse Node := do
  let start ← here
  let first ← rec .assignment
  if ← atPunct .comma then
    let later ← loop (fun items => do
      if ← eat .comma then
        let e ← rec .assignment
        return .inl (e :: items)
      return .inr items.reverse) []
    group start (first :: later)
  else
    return first

/-- An argument or element, which may be spread. -/
def spreadable (rec : Rec) : Parse Node := do
  let start ← here
  if ← eat .ellipsis then
    return .spread start (← rec .assignment)
  else
    rec .assignment

/-- The arguments of a call, in parentheses. -/
def callArguments (rec : Rec) : Parse (List Node) := do
  expect .lparen
  enclosed (separated .rparen (spreadable rec))

/-- Which links an expression may be followed by. -/
structure Links where
  /-- Calls are allowed. -/
  calls : Bool := true
  /-- Access by a computed member is allowed. -/
  indices : Bool := true

/-- What can follow type arguments that are not followed by a call, so
that they are not two comparisons. -/
def endsInstantiation (t : Token) : Bool :=
  t.broken ||
    match t.kind with
    | .finish => true
    | .word text false => ["as", "satisfies", "in", "instanceof", "of"].contains text
    | .punct p =>
      !([Punct.less, .greater, .plus, .minus, .lparen, .lbrace, .lbracket, .bang, .tilde,
        .increment, .decrement, .slash, .at].contains p)
    | _ => false

/-- A chain so far: its expression and whether it has an optional link. -/
structure Chain where
  node : Node
  optional : Bool

/-- A member of a chain. -/
def Chain.member (chain : Chain) (field : Option String) (index : List Node) (span : Span) :
    Chain :=
  if chain.optional then
    { chain with node := .other (chain.node :: index) span }
  else
    match chain.node with
    | .keyword _ _ => { chain with node := .other (chain.node :: index) span }
    | _ => { chain with node := .member chain.node field index span }

/-- A call of a chain. -/
def Chain.call (chain : Chain) (arguments types : List Node) (span : Span) : Chain :=
  if chain.optional then
    { chain with node := .other (chain.node :: arguments ++ types) span }
  else
    { chain with node := .call chain.node arguments types span }

/-- Reads a tagged template whose opening mark is the next token. -/
def taggedTemplate (rec : Rec) (start : Nat) (tag : Node) (types : List Node) : Parse Node := do
  let t ← token
  let (segment, parts) ← templateParts t.after (expression rec)
  return .tagged tag types segment parts (← spanFrom start)

/-- One more link of a chain that starts at an offset, if there is one. -/
def subscript (rec : Rec) (links : Links) (start : Nat) (chain : Chain) :
    Parse (Option Chain) := do
  let t ← token
  match t.kind with
  | .punct .dot =>
    advance
    let t ← token
    match t.kind with
    | .word text _ =>
      advance
      return some (chain.member (some text) [] (← spanFrom start))
    | .hashName =>
      advance
      return some (chain.member none [] (← spanFrom start))
    | _ => failAtHash
  | .punct .questionDot =>
    advance
    let chain := { chain with optional := true }
    let t ← token
    match t.kind with
    | .punct .lparen =>
      let arguments ← callArguments rec
      return some (chain.call arguments [] (← spanFrom start))
    | .punct .lbracket =>
      advance
      let index ← enclosed (expression rec)
      expect .rbracket
      return some (chain.member none [index] (← spanFrom start))
    | .punct .less =>
      if ← hasTypes then
        let types ← typeArguments rec
        let arguments ← callArguments rec
        return some (chain.call arguments types (← spanFrom start))
      else
        fail
    | .word text _ =>
      advance
      return some (chain.member (some text) [] (← spanFrom start))
    | .hashName =>
      advance
      return some (chain.member none [] (← spanFrom start))
    | _ => failAtHash
  | .punct .lbracket =>
    if !links.indices then return none
    advance
    let index ← enclosed (expression rec)
    expect .rbracket
    return some (chain.member none [index] (← spanFrom start))
  | .punct .lparen =>
    if !links.calls then return none
    let arguments ← callArguments rec
    return some (chain.call arguments [] (← spanFrom start))
  | .backtick =>
    return some { chain with node := ← taggedTemplate rec start chain.node [] }
  | .punct .bang =>
    if (← hasTypes) && !t.broken then
      advance
      return some { chain with node := .wrapped .nonNull chain.node [] (← spanFrom start) }
    else
      return none
  | .punct .less =>
    if ← hasTypes then
      optionally do
        let types ← typeArguments rec
        let t ← token
        match t.kind with
        | .punct .lparen =>
          if !links.calls then fail
          let arguments ← callArguments rec
          return chain.call arguments types (← spanFrom start)
        | .backtick =>
          return { chain with node := ← taggedTemplate rec start chain.node types }
        | _ =>
          if links.calls && endsInstantiation t then
            return { chain with node := .other (chain.node :: types) (← spanFrom start) }
          else
            fail
    else
      return none
  | _ => return none

/-- An expression with everything that follows it. -/
def subscripts (rec : Rec) (links : Links) (start : Nat) (node : Node) : Parse Node := do
  let chain ← loop (fun chain => do
    match ← subscript rec links start chain with
    | some chain => return .inl chain
    | none => return .inr chain) (⟨node, false⟩ : Chain)
  return chain.node

/-- The expression of a decorator.  A bracket behind it starts the key
of the member that is decorated. -/
def decoratorExpression (rec : Rec) : Parse Node := do
  let start ← here
  if ← eat .lparen then
    let inner ← enclosed (expression rec)
    expect .rparen
    if ← atPunct .lparen then
      let arguments ← callArguments rec
      return .call inner arguments [] (← spanFrom start)
    else
      return inner
  else
    let (text, span) ← variableName
    subscripts rec { indices := false } start (.name text span)

end GraphMigrate.Script.Grammar
