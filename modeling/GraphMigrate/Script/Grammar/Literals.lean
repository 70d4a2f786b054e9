/-
Literals, functions and classes.

* `objectLiteral`: an object literal; its properties keep their forms
  apart;
* `functionExpression`, `classTail`: functions and classes;
* `primary`: the expressions that start with a token of their own.
-/
import GraphMigrate.Script.Grammar.Chains

namespace GraphMigrate.Script.Grammar

/-- A node for a token that stands for itself. -/
def leaf : Parse Node := do
  let t ← token
  advance
  return .other [] t.span

/-! ### Object literals -/

/-- A method, from behind its key. -/
def methodTail (rec : Rec) (start : Nat) (key : Key) (index : List Node) (generator : Bool) :
    Parse Node := do
  let (inside, body, types) ← functionTail rec (decoratorExpression rec) generator
  return .method key index inside body types (← spanFrom start)

/-- Words that a typed language passes over before a property key. -/
def propertyModifiers : List String := ["public", "protected", "private", "readonly"]

/-- Uses a modifier before a property key. -/
def skipPropertyModifier : Parse Unit := do
  let t ← token
  let p ← peek
  match t.kind with
  | .word text false =>
    if (← hasTypes) && propertyModifiers.contains text &&
        (startsKey p.kind || TokenKind.isPunct p.kind .lbrace) then
      advance
  | _ => return

/-- What a typed language expects behind a property key.  Behind
anything else the property is taken to have no value. -/
def followsKey (key : Key) (kind : TokenKind) : Bool :=
  match kind with
  | .word _ _ | .quoted | .numeral => true
  | .punct p =>
    [Punct.lparen, .lbracket, .colon, .comma, .question, .assign, .star, .less].contains p ||
      (p == .rbrace && match key.form with
        | .name _ => true
        | _ => false)
  | _ => false

/-- An accessor or asynchronous method, from behind its first word. -/
def wordedProperty (rec : Rec) (start : Nat) (word : String) : Parse Node := do
  let generator ← if word == "async" then eat .star else pure false
  let (key, index) ← propertyKey rec
  if word == "async" then
    methodTail rec start key index generator
  else
    let (inside, body, types) ← functionTail rec (decoratorExpression rec) false
    let kind := if word == "get" then Accessor.getter else .setter
    return .accessor kind key index (types ++ inside ++ body.toList) (← spanFrom start)

/-- A property of an object literal. -/
def property (rec : Rec) : Parse Node := do
  let start ← here
  if ← atPunct .ellipsis then
    return ← spreadable rec
  if ← eat .star then
    let (key, index) ← propertyKey rec
    return ← methodTail rec start key index true
  skipPropertyModifier
  let (key, index) ← propertyKey rec
  let t ← token
  let types ← hasTypes
  if types && !followsKey key t.kind then
    if isFault t.kind then advance
    return .keyed key index (.other [] key.span)
  if ← eat .colon then
    return .keyed key index (← rec .assignment)
  if TokenKind.isPunct t.kind .lparen || (types && TokenKind.isPunct t.kind .less) then
    return ← methodTail rec start key index false
  match key.form with
  | .name text =>
    let _ ← eat .question
    if ← eat .assign then
      return .assigned text key.span (← rec .assignment)
    if (← atPunct .comma) || (← atPunct .rbrace) then
      return .shorthand text key.span
    if ["get", "set", "async"].contains text then
      wordedProperty rec start text
    else
      fail
  | _ => fail

/-- An object literal. -/
def objectLiteral (rec : Rec) : Parse Node := do
  let start ← here
  expect .lbrace
  let properties ← enclosed (separated .rbrace (property rec))
  return .object properties (← spanFrom start)

/-! ### Array literals and parentheses -/

/-- An element of an array literal; a hole is empty. -/
def arrayElement (rec : Rec) : Parse Node := do
  let start ← here
  if ← atPunct .comma then return .other [] ⟨start, start⟩
  spreadable rec

/-- An array literal. -/
def arrayLiteral (rec : Rec) : Parse Node := do
  let start ← here
  expect .lbracket
  let elements ← enclosed (separated .rbracket (arrayElement rec))
  group start elements

/-- An expression in parentheses. -/
def parenthesized (rec : Rec) : Parse Node := do
  let start ← here
  expect .lparen
  if ← atPunct .rparen then failAt start
  let inner ← enclosed (expression rec)
  expect .rparen
  return .wrapped .parentheses inner [] (← spanFrom start)

/-! ### Functions and classes -/

/-- A function from its first keyword; the name is given to `named`. -/
def functionFrom (rec : Rec) (start : Nat) (named : Parse Unit) : Parse Node := do
  expectWord "function"
  let generator ← eat .star
  named
  let (inside, body, types) ← functionTail rec (decoratorExpression rec) generator
  return .function inside body types (← spanFrom start)

/-- Uses a name, if there is one. -/
def optionalName : Parse Unit := do
  if isVariable (← token).kind then advance

/-- A function expression, the word `async` included. -/
def functionExpression (rec : Rec) : Parse Node := do
  let start ← here
  let _ ← eatWord "async"
  functionFrom rec start optionalName

/-- Modifiers of class members in every dialect. -/
def memberModifiers : List String := ["static", "async", "get", "set", "accessor"]

/-- Modifiers of class members in typed dialects. -/
def typedMemberModifiers : List String :=
  ["declare", "abstract", "override", "readonly", "public", "private", "protected"]

/-- Uses the modifiers of a class member.  The answer is whether a
static block follows. -/
def skipMemberModifiers : Parse Bool :=
  loop (fun (_ : Unit) => do
    let t ← token
    let p ← peek
    match t.kind with
    | .word text false =>
      let known := memberModifiers.contains text ||
        ((← hasTypes) && typedMemberModifiers.contains text)
      if text == "static" && TokenKind.isPunct p.kind .lbrace then
        advance
        return .inr true
      if known && (startsKey p.kind || TokenKind.isPunct p.kind .star) &&
          !(text == "async" && p.broken) then
        advance
        return .inl ()
      return .inr false
    | _ => return .inr false) ()

/-- The key of a class member and the expression inside it. -/
def memberKey (rec : Rec) : Parse (List Node) := do
  if (← token).kind == .hashName then
    advance
    return []
  else if (← token).kind == .hash then failAtHash
  else
    let (_, index) ← propertyKey rec
    return index

/-- A member of a class: the nodes inside it, in visiting order. -/
def classMember (rec : Rec) : Parse (List Node) := do
  let found ← decorators (decoratorExpression rec)
  if ← eat .semicolon then return found
  if ← skipMemberModifiers then
    return [← blockReader rec]
  let t ← token
  let p ← peek
  let q ← peekSecond
  let types ← hasTypes
  if types && TokenKind.isPunct t.kind .lbracket && TokenKind.isAnyWord p.kind &&
      TokenKind.isPunct q.kind .colon then
    advance
    let _ ← anyWord
    let key ← typeAnnotation? rec
    expect .rbracket
    let value ← typeAnnotation? rec
    semicolon
    return key.toList ++ value.toList
  let generator ← eat .star
  let index ← memberKey rec
  if types then
    unless ← eat .question do
      let _ ← eat .bang
  if (← atPunct .lparen) || (types && (← atPunct .less)) then
    let (inside, body, types) ← functionTail rec (decoratorExpression rec) generator
    return index ++ inside ++ found ++ body.toList ++ types
  let typing ← typeAnnotation? rec
  let value ← if ← eat .assign then
      (do return [← within (fun c => { c with generator := false }) (enclosed (rec .assignment))])
    else pure []
  semicolon
  return index ++ value ++ typing.toList ++ found

/-- The class a class extends and the types it implements. -/
def heritage (rec : Rec) : Parse (List Node × List Node) :=
  loop (fun (bases, types) => do
    if ← eatWord "extends" then
      let base ← rec .unary
      let arguments ←
        if (← hasTypes) && (← atPunct .less) then typeArguments rec else pure []
      return .inl (bases ++ [base], types ++ arguments)
    if (← hasTypes) && (← eatWord "implements") then
      let listed ← loop (fun items => do
        let item ← rec .type
        if ← eat .comma then return .inl (item :: items)
        return .inr (item :: items).reverse) []
      return .inl (bases, types ++ listed)
    return .inr (bases, types)) ([], [])

/-- A class from its keyword; its name is given to `named`. -/
def classTail (rec : Rec) (start : Nat) (found : List Node) (named : Parse Unit) :
    Parse Node := do
  expectWord "class"
  named
  let generics ← typeParameters? rec
  let (bases, types) ← heritage rec
  expect .lbrace
  let members ← enclosed (loop (fun members => do
    if ← eat .rbrace then return .inr members
    let inside ← classMember rec
    return .inl (members ++ inside)) [])
  group start (found ++ members ++ bases ++ generics ++ types)

/-- Uses the name of a class expression, if there is one. -/
def optionalClassName : Parse Unit := do
  let t ← token
  if isVariable t.kind && !(TokenKind.isWord t.kind "implements") then advance

/-- A class expression with its decorators. -/
def classExpression (rec : Rec) : Parse Node := do
  let start ← here
  let found ← decorators (decoratorExpression rec)
  classTail rec start found optionalClassName

/-! ### Expressions with a token of their own -/

/-- A regular expression whose first slash is the next token. -/
def regularExpression : Parse Node := do
  let t ← token
  match regexEnd? false (t.span.start + 1) (t.start.drop 1).chars with
  | some rest =>
    resume rest
    group t.span.start []
  | none => failAt t.span.start

/-- An untagged template. -/
def template (rec : Rec) : Parse Node := do
  let t ← token
  let (_, parts) ← templateParts t.after (expression rec)
  group t.span.start parts

/-- An element, used up to and with its last bracket. -/
def markupExpression (rec : Rec) : Parse Node := do
  let e ← rec .element
  advance
  return e

/-- The expressions that start with a token of their own. -/
def primary (rec : Rec) : Parse Node := do
  let t ← token
  match t.kind with
  | .word text false =>
    let p ← peek
    if ["this", "null", "true", "false"].contains text then leaf
    else if text == "function" then functionExpression rec
    else if text == "async" && TokenKind.isWord p.kind "function" && !p.broken then
      functionExpression rec
    else if text == "class" then classExpression rec
    else
      let (text, span) ← variableName
      return .name text span
  | .word text true =>
    advance
    return .name text t.span
  | .quoted | .numeral => leaf
  | .hashName =>
    if TokenKind.isWord (← peek).kind "in" then leaf else fail
  | .hash => failAtHash
  | .backtick => template rec
  | .punct .lparen => parenthesized rec
  | .punct .lbracket => arrayLiteral rec
  | .punct .lbrace => objectLiteral rec
  | .punct .at => classExpression rec
  | .punct .slash => regularExpression
  | .punct .opAssign =>
    if t.start.chars.head? == some '/' then regularExpression else fail
  | .punct .less => if ← hasMarkup then markupExpression rec else fail
  | _ => fail

end GraphMigrate.Script.Grammar
