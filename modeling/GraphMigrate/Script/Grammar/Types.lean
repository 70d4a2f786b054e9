/-
Types.

A type is read for three things: where it ends, whether it is a
reference by name, and the expressions and patterns inside it, such as
computed keys.

* `typeAnnotation?`, `returnType?`: a type after a colon;
* `typeArguments`, `typeParameters`: lists in angle brackets;
* `typeReader`: the reader of the goal `type`.
-/
import GraphMigrate.Script.Grammar.Basic

namespace GraphMigrate.Script.Grammar

/-- Words that are types of their own. -/
def basicTypes : List String :=
  ["any", "bigint", "boolean", "never", "number", "object", "string", "symbol", "undefined",
    "unknown", "void", "null", "intrinsic"]

/-- A node for a type that is no reference. -/
def typeGroup (start : Nat) (inside : List Node) : Parse Node := do
  return .type none inside (← spanFrom start)

/-- The name of a type that is a reference. -/
def referenceName? : Node → Option String
  | .type (some name) _ _ => some name.name
  | _ => none

/-- Type arguments in angle brackets. -/
def typeArguments (rec : Rec) : Parse (List Node) := do
  expect .less
  separated .greater (enclosed (rec .type))

/-- A type after a colon, if there is a colon. -/
def typeAnnotation? (rec : Rec) : Parse (Option Node) := do
  if (← hasTypes) && (← eat .colon) then
    return some (← enclosed (rec .type))
  else
    return none

/-- One type parameter. -/
def typeParameter (rec : Rec) : Parse Node := do
  let start ← here
  let _ ← loop (fun (_ : Unit) => do
    let t ← token
    let p ← peek
    if ["const", "in", "out"].any (TokenKind.isWord t.kind) &&
        TokenKind.isAnyWord p.kind && !(TokenKind.isWord p.kind "extends") then
      advance
      return .inl ()
    return .inr ()) ()
  let _ ← variableName
  let bound ← if ← eatWord "extends" then (do return [← rec .type]) else pure []
  let fallback ← if ← eat .assign then (do return [← rec .type]) else pure []
  typeGroup start (bound ++ fallback)

/-- Type parameters in angle brackets. -/
def typeParameters (rec : Rec) : Parse (List Node) := do
  expect .less
  enclosed (separated .greater (typeParameter rec))

/-- Type parameters, if there are any. -/
def typeParameters? (rec : Rec) : Parse (List Node) := do
  if (← hasTypes) && (← atPunct .less) then typeParameters rec else return []

/-- A predicate type or any other: what follows the colon of a function. -/
def resultType (rec : Rec) : Parse Node := do
  let start ← here
  let t ← token
  let p ← peek
  if TokenKind.isWord t.kind "asserts" && TokenKind.isAnyWord p.kind && !p.broken &&
      !(TokenKind.isWord p.kind "is") then
    advance
    advance
    if (← atWord "is") then
      advance
      let inner ← rec .type
      typeGroup start [inner]
    else
      typeGroup start []
  else if TokenKind.isAnyWord t.kind && TokenKind.isWord p.kind "is" && !p.broken then
    advance
    advance
    let inner ← rec .type
    typeGroup start [inner]
  else
    rec .type

/-- The type of a function's result, if there is a colon. -/
def returnType? (rec : Rec) : Parse (List Node) := do
  if (← hasTypes) && (← eat .colon) then
    return [← enclosed (resultType rec)]
  else
    return []

/-- A parameter of a function type. -/
def typeFunctionParameter (rec : Rec) : Parse Node := do
  let start ← here
  let rest ← eat .ellipsis
  let target ← if ← atWord "this" then (do advance; group start []) else rec .pattern
  let _ ← eat .question
  let typing ← typeAnnotation? rec
  if rest then
    group start (target :: typing.toList)
  else
    let fallback ← if ← eat .assign then (do return [← rec .assignment]) else pure []
    group start (target :: typing.toList ++ fallback)

/-- The parameters of a function type, in parentheses. -/
def typeFunctionParameters (rec : Rec) : Parse (List Node) := do
  expect .lparen
  enclosed (separated .rparen (typeFunctionParameter rec))

/-- A function type: parameters, an arrow and the type of the result. -/
def functionType (rec : Rec) (start : Nat) : Parse Node := do
  let generics ← typeParameters? rec
  let parameters ← typeFunctionParameters rec
  expect .arrow
  let result ← resultType rec
  typeGroup start (parameters ++ generics ++ [result])

/-- A name with dots in it. -/
def entityName : Parse String := do
  let (first, _) ← anyWord
  loop (fun last => do
    if ← atPunct .dot then
      advance
      let (word, _) ← anyWord
      return .inl word
    return .inr last) first

/-- A reference to a type by name. -/
def typeReference (rec : Rec) : Parse Node := do
  let start ← here
  let name ← entityName
  let t ← token
  let arguments ←
    if TokenKind.isPunct t.kind .less && !t.broken then typeArguments rec else pure []
  return .type (some ⟨name, arguments.head?.bind referenceName?⟩) arguments (← spanFrom start)

/-- Whether the braces at the next token hold a mapped type. -/
def atMappedType : Parse Bool := lookahead do
  expect .lbrace
  if (← eat .plus) || (← eat .minus) then
    expectWord "readonly"
  else
    let p ← peek
    if (← atWord "readonly") && TokenKind.isPunct p.kind .lbracket then advance
  expect .lbracket
  let _ ← anyWord
  expectWord "in"

/-- Uses a mark that adds or removes a modifier, up to the modifier. -/
def mappedMark : Parse Unit := do
  unless ← eat .plus do
    let _ ← eat .minus

/-- A mapped type. -/
def mappedType (rec : Rec) : Parse Node := do
  let start ← here
  expect .lbrace
  mappedMark
  let _ ← eatWord "readonly"
  expect .lbracket
  let _ ← anyWord
  expectWord "in"
  let source ← rec .type
  let renamed ← if ← eatWord "as" then (do return [← rec .type]) else pure []
  expect .rbracket
  mappedMark
  let _ ← eat .question
  let value ← typeAnnotation? rec
  let _ ← eat .semicolon
  let _ ← eat .comma
  expect .rbrace
  typeGroup start (source :: renamed ++ value.toList)

/-- What can follow a modifier word so that it is one: the start of
another key. -/
def startsKey (kind : TokenKind) : Bool :=
  match kind with
  | .word _ _ | .quoted | .numeral | .hashName | .punct .lbracket => true
  | _ => false

/-- The end of a member of a type in braces. -/
def memberEnd : Parse Unit := do
  unless ← eat .comma do semicolon

/-- A signature after its key: a method or a property. -/
def signature (rec : Rec) (start : Nat) (index : List Node) : Parse Node := do
  let _ ← eat .question
  if (← atPunct .lparen) || (← atPunct .less) then
    let generics ← typeParameters? rec
    let parameters ← typeFunctionParameters rec
    let result ← returnType? rec
    group start (index ++ parameters ++ result ++ generics)
  else
    let typing ← typeAnnotation? rec
    group start (index ++ typing.toList)

/-- A member of a type in braces. -/
def typeMember (rec : Rec) : Parse Node := do
  let start ← here
  let t ← token
  let p ← peek
  let member ←
    if TokenKind.isPunct t.kind .lparen || TokenKind.isPunct t.kind .less then
      signature rec start []
    else if TokenKind.isWord t.kind "new" &&
        (TokenKind.isPunct p.kind .lparen || TokenKind.isPunct p.kind .less) then do
      advance
      signature rec start []
    else do
      let _ ← loop (fun (_ : Unit) => do
        let t ← token
        let p ← peek
        if (TokenKind.isWord t.kind "readonly" || TokenKind.isWord t.kind "get" ||
            TokenKind.isWord t.kind "set") && startsKey p.kind then
          advance
          return .inl ()
        return .inr ()) ()
      let t ← token
      let p ← peek
      let q ← peekSecond
      if TokenKind.isPunct t.kind .lbracket && TokenKind.isAnyWord p.kind &&
          TokenKind.isPunct q.kind .colon then
        advance
        let _ ← anyWord
        let key ← typeAnnotation? rec
        expect .rbracket
        let value ← typeAnnotation? rec
        group start (key.toList ++ value.toList)
      else
        let (_, index) ← propertyKey rec
        signature rec start index
  memberEnd
  return member

/-- The members of a type, in braces. -/
def typeMembers (rec : Rec) : Parse (List Node) := do
  expect .lbrace
  enclosed (untilClosed .rbrace (typeMember rec))

/-- An element of a tuple type. -/
def tupleElement (rec : Rec) : Parse Node := do
  let start ← here
  let _ ← eat .ellipsis
  let t ← token
  let p ← peek
  let q ← peekSecond
  if TokenKind.isAnyWord t.kind && (TokenKind.isPunct p.kind .colon ||
      (TokenKind.isPunct p.kind .question && TokenKind.isPunct q.kind .colon)) then
    advance
    let _ ← eat .question
    expect .colon
  let inner ← rec .type
  let _ ← eat .question
  group start [inner]

/-- A type without prefixes and suffixes. -/
def primaryType (rec : Rec) : Parse Node := do
  let start ← here
  let t ← token
  match t.kind with
  | .quoted | .numeral =>
    advance
    typeGroup start []
  | .backtick =>
    let (_, parts) ← templateParts t.after (rec .type)
    typeGroup start parts
  | .punct .minus =>
    advance
    if (← token).kind == .numeral then
      advance
      typeGroup start []
    else
      fail
  | .punct .lbrace =>
    if ← atMappedType then
      enclosed (mappedType rec)
    else
      let members ← typeMembers rec
      typeGroup start members
  | .punct .lbracket =>
    advance
    let elements ← enclosed (separated .rbracket (tupleElement rec))
    typeGroup start elements
  | .punct .lparen =>
    advance
    let inner ← enclosed (rec .type)
    expect .rparen
    typeGroup start [inner]
  | .word text false =>
    let p ← peek
    if text == "this" then
      advance
      typeGroup start []
    else if text == "typeof" then
      advance
      if ← atWord "import" then
        let inner ← rec .type
        typeGroup start [inner]
      else
        let _ ← entityName
        let t ← token
        let arguments ←
          if TokenKind.isPunct t.kind .less && !t.broken then typeArguments rec else pure []
        typeGroup start arguments
    else if text == "import" then
      advance
      expect .lparen
      let inner ← rec .type
      if ← eat .comma then
        let _ ← rec .assignment
      expect .rparen
      if ← eat .dot then
        let _ ← entityName
      let t ← token
      let arguments ←
        if TokenKind.isPunct t.kind .less && !t.broken then typeArguments rec else pure []
      typeGroup start (inner :: arguments)
    else if text == "true" || text == "false" then
      advance
      typeGroup start []
    else if basicTypes.contains text && !(TokenKind.isPunct p.kind .dot) then
      advance
      typeGroup start []
    else if isVariable t.kind then
      typeReference rec
    else
      fail
  | .word _ true => typeReference rec
  | _ => fail

/-- A type with array and index suffixes. -/
def postfixType (rec : Rec) : Parse Node := do
  let start ← here
  let inner ← primaryType rec
  loop (fun inner => do
    let t ← token
    if TokenKind.isPunct t.kind .lbracket && !t.broken then
      advance
      if ← eat .rbracket then
        return .inl (← typeGroup start [inner])
      let index ← enclosed (rec .type)
      expect .rbracket
      return .inl (← typeGroup start [inner, index])
    return .inr inner) inner

/-- A type with prefix words. -/
def operatorType (rec : Rec) : Nat → Parse Node
  | 0 => fail
  | fuel + 1 => do
    let start ← here
    let t ← token
    let p ← peek
    let startsType := !(TokenKind.isPunct p.kind .dot) && !(TokenKind.isPunct p.kind .less) &&
      !(TokenKind.isPunct p.kind .rparen) && !(TokenKind.isPunct p.kind .greater) &&
      !(TokenKind.isPunct p.kind .comma) && !(TokenKind.isPunct p.kind .semicolon)
    if (TokenKind.isWord t.kind "keyof" || TokenKind.isWord t.kind "unique" ||
        TokenKind.isWord t.kind "readonly") && startsType then
      advance
      let inner ← operatorType rec fuel
      typeGroup start [inner]
    else if TokenKind.isWord t.kind "infer" && startsType then
      advance
      let _ ← variableName
      let inNoConditional := (← get).context.noConditional
      let bound ← optionally do
        expectWord "extends"
        let bound ← within (fun c => { c with noConditional := true }) (rec .type)
        if !inNoConditional && (← atPunct .question) then fail
        return bound
      typeGroup start bound.toList
    else
      postfixType rec

/-- Types joined by an operator, which may also come first. -/
def joinedType (operator : Punct) (item : Parse Node) : Parse Node := do
  let start ← here
  let leading ← eat operator
  let first ← item
  let later ← loop (fun items => do
    if ← eat operator then
      let n ← item
      return .inl (n :: items)
    return .inr items.reverse) []
  if later.isEmpty && !leading then return first
  typeGroup start (first :: later)

/-- A union of intersections. -/
def unionType (rec : Rec) : Parse Node := do
  let bound := (← get).token.start.chars.length + 2
  joinedType .bar (joinedType .amp (operatorType rec bound))

/-- A type that is no conditional type. -/
def plainType (rec : Rec) : Parse Node := do
  let start ← here
  let t ← token
  let p ← peek
  if TokenKind.isPunct t.kind .less then
    functionType rec start
  else if TokenKind.isPunct t.kind .lparen then
    orElse (functionType rec start) (unionType rec)
  else if TokenKind.isWord t.kind "new" then
    advance
    functionType rec start
  else if TokenKind.isWord t.kind "abstract" && TokenKind.isWord p.kind "new" then
    advance
    advance
    functionType rec start
  else
    unionType rec

/-- Any type. -/
def typeReader (rec : Rec) : Parse Node := do
  let start ← here
  let inner ← plainType rec
  let t ← token
  if !(← get).context.noConditional && TokenKind.isWord t.kind "extends" && !t.broken then
    advance
    let bound ← within (fun c => { c with noConditional := true }) (rec .type)
    expect .question
    let yes ← enclosed (rec .type)
    expect .colon
    let no ← enclosed (rec .type)
    typeGroup start [inner, bound, yes, no]
  else
    return inner

end GraphMigrate.Script.Grammar
