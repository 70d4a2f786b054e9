/-
Expressions.

* `leftHandSide`: an expression with the links that follow it;
* `unaryReader`: the reader of the goal `unary`;
* `binary`: expressions joined by operators, by precedence;
* `arrowOr`: an arrow function or, if what stands there is none,
  another expression;
* `assignmentReader`: the reader of the goal `assignment`.
-/
import GraphMigrate.Script.Grammar.Literals

namespace GraphMigrate.Script.Grammar

/-! ### Left-hand sides -/

/-- Words that say when an imported module is loaded. -/
def importPhases : List String := ["defer", "source"]

/-- An expression that may be called, without the links behind it. -/
def chainHead (rec : Rec) : Parse Node := do
  let t ← token
  let p ← peek
  match t.kind with
  | .word "super" false =>
    advance
    if (← atPunct .lparen) || (← atPunct .dot) || (← atPunct .lbracket) then
      return .keyword "super" t.span
    else
      fail
  | .word "import" false =>
    if TokenKind.isPunct p.kind .dot then
      advance
      advance
      let (text, _) ← anyWord
      if text == "meta" then group t.span.start []
      else if importPhases.contains text && (← atPunct .lparen) then
        return .keyword "import" t.span
      else fail
    else if TokenKind.isPunct p.kind .lparen then
      advance
      return .keyword "import" t.span
    else
      fail
  | _ => primary rec

/-- A constructor call, from the word `new`.  Without arguments nothing
can follow it; the answer tells whether it had any. -/
def newExpression (rec : Rec) : Nat → Parse (Node × Bool)
  | 0 => fail
  | fuel + 1 => do
    let start ← here
    expectWord "new"
    if ← eat .dot then
      expectWord "target"
      return (← group start [], true)
    let calleeStart ← here
    let head ←
      if ← atWord "new" then (do return (← newExpression rec fuel).1)
      else chainHead rec
    let callee ← subscripts rec { calls := false } calleeStart head
    let types ←
      if (← hasTypes) && (← atPunct .less) then
        optionally do
          let types ← typeArguments rec
          if ← atPunct .lparen then return types else fail
      else pure none
    if ← atPunct .lparen then
      let arguments ← callArguments rec
      return (.construct callee arguments (types.getD []) (← spanFrom start), true)
    else
      return (.construct callee [] [] (← spanFrom start), false)

/-- An expression with the links that follow it. -/
def leftHandSide (rec : Rec) : Parse Node := do
  let start ← here
  if ← atWord "new" then
    let bound := (← get).token.start.chars.length + 2
    let (node, linked) ← newExpression rec bound
    if linked then subscripts rec {} start node else return node
  else
    let head ← chainHead rec
    subscripts rec {} start head

/-! ### Operators -/

/-- Whether what follows `await` is an operand, so that `await` is an
operator and no name. -/
def startsOperand (t : Token) : Bool :=
  !([Punct.rparen, .rbracket, .semicolon, .comma].any (TokenKind.isPunct t.kind))

/-- Words that are operators in front of an operand. -/
def unaryWords : List String := ["typeof", "void", "delete"]

/-- The reader of expressions with prefix and postfix operators. -/
def unaryReader (rec : Rec) : Parse Node := do
  let start ← here
  let t ← token
  let operand : Parse Node := do
    advance
    let inner ← rec .unary
    group start [inner]
  let plain : Parse Node := do
    let inner ← leftHandSide rec
    let t ← token
    if (TokenKind.isPunct t.kind .increment || TokenKind.isPunct t.kind .decrement) &&
        !t.broken then
      advance
      group start [inner]
    else
      return inner
  match t.kind with
  | .punct p =>
    if [Punct.bang, .tilde, .plus, .minus, .increment, .decrement].contains p then operand
    else if p == .less && (← hasTypes) && !(← hasMarkup) then
      advance
      let types ←
        if ← eatWord "const" then (do expect .greater; return [])
        else (do
          let type ← enclosed (rec .type)
          expect .greater
          return [type])
      let inner ← rec .unary
      group start (inner :: types)
    else plain
  | .word text false =>
    if unaryWords.contains text then operand
    else if text == "await" && startsOperand (← peek) then operand
    else plain
  | _ => plain

/-- An operator between two expressions. -/
inductive BinaryOperator where
  | symbol (width : Nat)
  | power
  | cast
  | satisfies
  deriving DecidableEq, Repr

/-- The precedence of an operator symbol. -/
def precedence? : Punct → Option Nat
  | .coalesce | .orOr => some 1
  | .andAnd => some 2
  | .bar => some 3
  | .caret => some 4
  | .amp => some 5
  | .equal | .notEqual => some 6
  | .less | .lessEq => some 7
  | .shiftLeft => some 8
  | .plus | .minus => some 9
  | .star | .slash | .percent => some 10
  | .power => some 11
  | _ => none

/-- The operator at the next token and its precedence. -/
def operator? : Parse (Option (BinaryOperator × Nat)) := do
  let t ← token
  let context := (← get).context
  match t.kind with
  | .punct .greater =>
    match t.start.angles with
    | (.compare, width) => return some (.symbol width, 7)
    | (.shift, width) => return some (.symbol width, 8)
    | (.assign, _) => return none
  | .punct p =>
    match precedence? p with
    | some precedence =>
      if p == .power then return some (.power, precedence)
      return some (.symbol (t.span.length), precedence)
    | none => return none
  | .word "instanceof" false => return some (.symbol 10, 7)
  | .word "in" false => return if context.noIn then none else some (.symbol 2, 7)
  | .word "as" false =>
    return if context.types && !t.broken then some (.cast, 7) else none
  | .word "satisfies" false =>
    return if context.types && !t.broken then some (.satisfies, 7) else none
  | _ => return none

/-- Goes on with operators that bind tighter than a given precedence. -/
def climb (rec : Rec) (start : Nat) : Nat → Node → Nat → Parse Node
  | 0, _, _ => fail
  | fuel + 1, left, least => do
    match ← operator? with
    | none => return left
    | some (operator, precedence) =>
      if precedence ≤ least then return left
      match operator with
      | .cast =>
        advance
        let node : Node ←
          if ← eatWord "const" then (do
            return .wrapped .constCast left [] (← spanFrom start))
          else (do
            let type ← rec .type
            return .wrapped .cast left [type] (← spanFrom start))
        climb rec start fuel node least
      | .satisfies =>
        advance
        let type ← rec .type
        climb rec start fuel (.wrapped .satisfies left [type] (← spanFrom start)) least
      | _ =>
        let width := match operator with
          | .symbol width => width
          | _ => 2
        resume ((← token).start.drop width)
        let rightStart ← here
        let operand ← rec .unary
        let bound := if operator == .power then precedence - 1 else precedence
        let right ← climb rec rightStart fuel operand bound
        climb rec start fuel (.other [left, right] (← spanFrom start)) least

/-- Expressions joined by operators. -/
def binary (rec : Rec) : Parse Node := do
  let start ← here
  let bound := (← get).token.start.chars.length + 2
  let left ← rec .unary
  climb rec start bound left 0

/-- An expression that may be a choice between two. -/
def conditional (rec : Rec) : Parse Node := do
  let start ← here
  let test ← binary rec
  if ← eat .question then
    let yes ← within (fun c => { c with colonAhead := true, noIn := false }) (rec .assignment)
    expect .colon
    let no ← rec .assignment
    group start [test, yes, no]
  else
    return test

/-! ### Arrow functions -/

/-- The parameters of an arrow function with its types, up to and with
the arrow, and whether a result type was given. -/
def arrowHead (rec : Rec) : Parse (List Node × List Node × Bool) := do
  let generics ← typeParameters? rec
  let inside ← within (fun c => { c with generator := false })
    (parameters rec (decoratorExpression rec) .arrow)
  let result ← returnType? rec
  let t ← token
  if TokenKind.isPunct t.kind .arrow && !t.broken then
    advance
    return (inside, generics ++ result, !result.isEmpty)
  else
    fail

/-- An arrow function from behind its arrow. -/
def arrowTail (rec : Rec) (start : Nat) (inside types : List Node) : Parse Node := do
  let body ← within (fun c => { c with generator := false }) do
    if ← atPunct .lbrace then blockReader rec else rec .assignment
  return .arrow inside body types (← spanFrom start)

/-- An arrow function or, if what stands there is none, another
expression.  Where a colon is expected, the colon of a result type may
be that one: then the function counts only if another colon follows. -/
def arrowOr (rec : Rec) (start : Nat) (head : Parse (List Node × List Node × Bool))
    (otherwise : Parse Node) : Parse Node := fun s =>
  match head s with
  | .error e =>
    match otherwise s with
    | .ok result => .ok result
    | .error f => .error ⟨max e.offset f.offset⟩
  | .ok ((inside, types, typed), later) =>
    if s.context.colonAhead && typed then
      orElse (fun _ => (do
        let node ← arrowTail rec start inside types
        if ← atPunct .colon then return node else fail : Parse Node) later) otherwise s
    else
      arrowTail rec start inside types later

/-- A reader that stops, if it does, at an offset.  Empty parentheses that
start no arrow function are at fault themselves. -/
def blameStart {α : Type} (start : Nat) (p : Parse α) : Parse α := do
  match ← attempt p with
  | .ok a => return a
  | .error _ => failAt start

/-- An arrow function with a single parameter and no parentheses. -/
def bareArrow (rec : Rec) (start : Nat) : Parse Node := do
  let (text, span) ← variableName
  expect .arrow
  arrowTail rec start [.binding text span none] []

/-! ### Assignments -/

/-- An expression that may be assigned to. -/
def assignmentTail (rec : Rec) : Parse Node := do
  let start ← here
  let left ← conditional rec
  let t ← token
  let assigns := TokenKind.isPunct t.kind .assign || TokenKind.isPunct t.kind .opAssign ||
    (TokenKind.isPunct t.kind .greater && t.start.angles.1 == .assign)
  if assigns then
    let width := if TokenKind.isPunct t.kind .greater then t.start.angles.2 else t.span.length
    resume (t.start.drop width)
    let right ← rec .assignment
    group start [left, right]
  else
    return left

/-- `yield` and its operand. -/
def yieldExpression (rec : Rec) : Parse Node := do
  let start ← here
  advance
  let t ← token
  let bare := t.broken || match t.kind with
    | .finish => true
    | .word text false => text == "in" || text == "of"
    | .punct p =>
      [Punct.rparen, .rbracket, .rbrace, .comma, .semicolon, .colon].contains p
    | _ => false
  if bare then
    group start []
  else
    let _ ← eat .star
    let inner ← rec .assignment
    group start [inner]

/-- Whether angle brackets at the next token can only be the type
parameters of an arrow function, markup being possible. -/
def atGenericArrow : Parse Bool := do
  let p ← peek
  let q ← peekSecond
  return TokenKind.isWord p.kind "const" || (TokenKind.isAnyWord p.kind &&
    (TokenKind.isPunct q.kind .comma || TokenKind.isWord q.kind "extends"))

/-- The reader of the goal `assignment`. -/
def assignmentReader (rec : Rec) : Parse Node := do
  let start ← here
  let t ← token
  let p ← peek
  let context := (← get).context
  match t.kind with
  | .word text escaped =>
    if !escaped && text == "yield" && context.generator then
      yieldExpression rec
    else if isVariable t.kind && TokenKind.isPunct p.kind .arrow && !p.broken then
      bareArrow rec start
    else if !escaped && text == "async" && !p.broken then
      if isVariable p.kind then
        advance
        bareArrow rec start
      else if TokenKind.isPunct p.kind .lparen ||
          (context.types && TokenKind.isPunct p.kind .less) then
        arrowOr rec start (do advance; arrowHead rec) (assignmentTail rec)
      else
        assignmentTail rec
    else
      assignmentTail rec
  | .punct .lparen =>
    if TokenKind.isPunct p.kind .rparen then
      arrowOr rec start (blameStart start (arrowHead rec)) (failAt start)
    else
      arrowOr rec start (arrowHead rec) (assignmentTail rec)
  | .punct .less =>
    if context.types then
      if context.markup && !(← atGenericArrow) then
        orElse (assignmentTail rec) (arrowOr rec start (arrowHead rec) fail)
      else
        arrowOr rec start (arrowHead rec) (assignmentTail rec)
    else
      assignmentTail rec
  | _ => assignmentTail rec

end GraphMigrate.Script.Grammar
