/-
Patterns, parameters and bodies.

* `patternReader`: the reader of the goal `pattern`, what a variable or
  parameter is bound by;
* `parameters`: the parameters of a function, each a binding, an object
  pattern or a pattern of another kind, with its annotation;
* `functionTail`: a function from its type parameters to its body;
* `decorators`: expressions marked with an at sign.
-/
import GraphMigrate.Script.Grammar.Types

namespace GraphMigrate.Script.Grammar

/-! ### Patterns -/

/-- A pattern with a default value, if an equals sign follows. -/
def withDefault (rec : Rec) (start : Nat) (target : Node) : Parse Node := do
  if ← eat .assign then
    let value ← enclosed (rec .assignment)
    return .pattern .withDefault [target, value] (← spanFrom start)
  else
    return target

/-- A property of an object pattern. -/
def patternProperty (rec : Rec) : Parse Node := do
  let start ← here
  if ← eat .ellipsis then
    let inner ← rec .pattern
    return .patternRest [inner] (← spanFrom start)
  let t ← token
  let (key, index) ← propertyKey rec
  if ← eat .colon then
    let valueStart ← here
    let value ← rec .pattern
    return .patternKeyed key index (← withDefault rec valueStart value)
  match key.form with
  | .name text =>
    unless isVariable t.kind do failAt t.span.start
    if ← eat .assign then
      let value ← enclosed (rec .assignment)
      return .patternName text key.span (some value)
    else
      return .patternName text key.span none
  | _ => fail

/-- An element of an array pattern; holes are no elements. -/
def patternElement (rec : Rec) : Parse Node := do
  let start ← here
  if ← atPunct .comma then
    return .other [] ⟨start, start⟩
  if ← eat .ellipsis then
    let inner ← rec .pattern
    return .pattern .rest [inner] (← spanFrom start)
  let target ← rec .pattern
  withDefault rec start target

/-- A pattern without annotation and default value. -/
def patternReader (rec : Rec) : Parse Node := do
  let t ← token
  match t.kind with
  | .punct .lbrace =>
    advance
    let properties ← separated .rbrace (patternProperty rec)
    return .objectPattern properties [] (← spanFrom t.span.start)
  | .punct .lbracket =>
    advance
    let elements ← separated .rbracket (patternElement rec)
    return .pattern .array elements (← spanFrom t.span.start)
  | _ =>
    let (text, span) ← variableName
    return .binding text span none

/-- Adds a type annotation to a pattern whose text ends with it. -/
def annotate (start : Nat) (target : Node) (typing : Option Node) : Parse Node := do
  match typing with
  | none => return target
  | some type =>
    let span ← spanFrom start
    match target with
    | .binding text nameSpan _ => return .binding text nameSpan (some type)
    | .objectPattern properties _ _ => return .objectPattern properties [type] span
    | .pattern kind inside _ => return .pattern kind (inside ++ [type]) span
    | other => return other

/-! ### Parameters -/

/-- Words that turn a constructor parameter into a property. -/
def parameterModifiers : List String :=
  ["public", "private", "protected", "override", "readonly"]

/-- Uses the modifiers of a parameter. -/
def skipParameterModifiers : Parse Unit := do
  if ← hasTypes then
    loop (fun (_ : Unit) => do
      let t ← token
      let p ← peek
      let startsPattern := TokenKind.isAnyWord p.kind || TokenKind.isPunct p.kind .lbrace ||
        TokenKind.isPunct p.kind .lbracket
      match t.kind with
      | .word text false =>
        if parameterModifiers.contains text && startsPattern then
          advance
          return .inl ()
        return .inr ()
      | _ => return .inr ()) ()

/-- A decorator: an at sign and an expression. -/
def decorator (decoratorExpression : Parse Node) : Parse Node := do
  expect .at
  decoratorExpression

/-- Decorators in a row. -/
def decorators (decoratorExpression : Parse Node) : Parse (List Node) :=
  loop (fun found => do
    if ← atPunct .at then
      let d ← decorator decoratorExpression
      return .inl (d :: found)
    return .inr found.reverse) []

/-- Which parameters a list holds. -/
inductive ParameterStyle where
  /-- Those of a function or method. -/
  | declared
  /-- Those of an arrow function, where the span of a rest element
  without a type starts behind its dots. -/
  | arrow
  deriving DecidableEq, Repr

/-- A rest parameter. -/
def restParameter (rec : Rec) (style : ParameterStyle) : Parse Node := do
  let start ← here
  expect .ellipsis
  let innerStart ← here
  let inner ← rec .pattern
  let typing ← typeAnnotation? rec
  let start := if style == .arrow && typing.isNone then innerStart else start
  return .pattern .rest (inner :: typing.toList) (← spanFrom start)

/-- A parameter after its decorators and modifiers. -/
def plainParameter (rec : Rec) (style : ParameterStyle) : Parse Node := do
  let start ← here
  if ← atPunct .ellipsis then return ← restParameter rec style
  let t ← token
  let types ← hasTypes
  let target ←
    if types && TokenKind.isWord t.kind "this" then (do
      advance
      return .binding "this" t.span none)
    else
      rec .pattern
  if types then
    let _ ← eat .question
  let typing ← typeAnnotation? rec
  let target ← annotate start target typing
  withDefault rec start target

/-- A parameter. -/
def parameter (rec : Rec) (decoratorExpression : Parse Node) (style : ParameterStyle) :
    Parse Node := do
  let found ← decorators decoratorExpression
  skipParameterModifiers
  let inner ← plainParameter rec style
  return if found.isEmpty then inner else .decorated found inner

/-- The parameters of a function, in parentheses. -/
def parameters (rec : Rec) (decoratorExpression : Parse Node) (style : ParameterStyle) :
    Parse (List Node) := do
  expect .lparen
  enclosed (separated .rparen (parameter rec decoratorExpression style))

/-! ### Bodies -/

/-- Statements in braces. -/
def blockReader (rec : Rec) : Parse Node := do
  let start ← here
  expect .lbrace
  let statements ← enclosed (untilClosed .rbrace (rec .statement))
  return .block statements (← spanFrom start)

/-- The body of a function.  In a typed language it may be left out. -/
def body? (rec : Rec) : Parse (Option Node) := do
  if (← hasTypes) && !(← atPunct .lbrace) && (← atSemicolon) then
    let _ ← eat .semicolon
    return none
  else
    return some (← blockReader rec)

/-- A function from its type parameters to its body: the parameters,
the body and the types. -/
def functionTail (rec : Rec) (decoratorExpression : Parse Node) (generator : Bool) :
    Parse (List Node × Option Node × List Node) := do
  let generics ← typeParameters? rec
  let inside ← within (fun c => { c with generator := generator })
    (parameters rec decoratorExpression .declared)
  let result ← returnType? rec
  let body ← within (fun c => { c with generator := generator }) (body? rec)
  return (inside, body, generics ++ result)

end GraphMigrate.Script.Grammar
