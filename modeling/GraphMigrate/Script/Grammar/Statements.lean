/-
Statements and declarations.

* `declarations`: declared variables, each a `declarator`;
* `importDeclaration`: an import and the names it binds one by one;
* `statementReader`: the reader of the goal `statement`.
-/
import GraphMigrate.Script.Grammar.Expressions
import GraphMigrate.Script.Grammar.Markup

namespace GraphMigrate.Script.Grammar

/-- Ends a statement that holds the given nodes. -/
def finishStatement (start : Nat) (inside : List Node) : Parse Node := do
  semicolon
  group start inside

/-- Any name that a class or function statement gives. -/
def requiredName : Parse Unit := do
  let _ ← variableName

/-! ### Variables -/

/-- A declared variable.  A pattern needs a value, unless it stands in
the head of a loop or is constant. -/
def declarator (rec : Rec) (needsValue : Bool) : Parse Node := do
  let start ← here
  let target ← rec .pattern
  if ← hasTypes then
    let _ ← eat .bang
  let typing ← typeAnnotation? rec
  let target ← annotate start target typing
  if ← eat .assign then
    let value ← rec .assignment
    return .declarator target (some value) (← spanFrom start)
  else
    match target with
    | .binding _ _ _ => return .declarator target none (← spanFrom start)
    | _ => if needsValue then failAt start else return .declarator target none (← spanFrom start)

/-- Declared variables, from their keyword. -/
def declarations (rec : Rec) (needsValue : Bool) : Parse (List Node) := do
  let isConstant ← atWord "const"
  advance
  loop (fun items => do
    let item ← declarator rec (needsValue && !isConstant)
    if ← eat .comma then return .inl (item :: items)
    return .inr (item :: items).reverse) []

/-- Whether variables are declared here. -/
def atDeclarations : Parse Bool := do
  let t ← token
  let p ← peek
  match t.kind with
  | .word text false =>
    return text == "var" || text == "const" ||
      (text == "let" && (isVariable p.kind || TokenKind.isPunct p.kind .lbrace ||
        TokenKind.isPunct p.kind .lbracket))
  | _ => return false

/-- Whether two tokens declare a resource: the word `using` and a name on
the same line. -/
def declaresResource (first second : Token) : Bool :=
  TokenKind.isWord first.kind "using" && isVariable second.kind && !second.broken

/-- The keyword of a declaration of resources, and what is declared. -/
def resources? (rec : Rec) : Parse (Option (List Node)) := do
  let t ← token
  let p ← peek
  let q ← peekSecond
  if !(← hasTypes) then return none
  else if declaresResource t p then return some (← declarations rec true)
  else if TokenKind.isWord t.kind "await" && !p.broken && declaresResource p q then
    advance
    return some (← declarations rec true)
  else return none

/-! ### Control flow -/

/-- An expression in parentheses that belongs to a statement. -/
def condition (rec : Rec) : Parse Node := do
  expect .lparen
  let inner ← enclosed (expression rec)
  expect .rparen
  return inner

/-- An expression up to a bracket or separator, if there is one. -/
def optionalExpression (rec : Rec) (close : Punct) : Parse (List Node) := do
  if ← atPunct close then
    advance
    return []
  else
    let inner ← expression rec
    expect close
    return [inner]

/-- A choice between statements. -/
def ifStatement (rec : Rec) (start : Nat) : Parse Node := do
  advance
  let test ← condition rec
  let yes ← rec .statement
  if ← eatWord "else" then
    let no ← rec .statement
    group start [test, yes, no]
  else
    group start [test, yes]

/-- The rest of a loop over the members of something. -/
def overMembers (rec : Rec) (start : Nat) (head : Node) : Parse Node := do
  let members ← if ← eatWord "of" then rec .assignment else (do
    expectWord "in"
    expression rec)
  expect .rparen
  let inner ← rec .statement
  group start [head, members, inner]

/-- A resource that is declared in the head of a loop over the members of
something. -/
def loopResources? (rec : Rec) : Parse (Option (List Node)) := do
  let p ← peek
  let behind ← if TokenKind.isWord p.kind "using" then (do
      return Token.next (← peekSecond).after)
    else peekSecond
  if TokenKind.isWord behind.kind "of" || TokenKind.isWord behind.kind "in" then
    within (fun c => { c with noIn := true }) (resources? rec)
  else return none

/-- A loop with a head. -/
def forStatement (rec : Rec) (start : Nat) : Parse Node := do
  advance
  let _ ← eatWord "await"
  expect .lparen
  let headStart ← here
  let head ←
    if ← atPunct .semicolon then pure []
    else if ← atDeclarations then
      within (fun c => { c with noIn := true }) (declarations rec false)
    else if let some found ← loopResources? rec then pure found
    else (do return [← within (fun c => { c with noIn := true }) (expression rec)])
  if !head.isEmpty && ((← atWord "of") || (← atWord "in")) then
    let whole ← group headStart head
    overMembers rec start whole
  else
    expect .semicolon
    let test ← optionalExpression rec .semicolon
    let update ← optionalExpression rec .rparen
    let inner ← rec .statement
    group start (head ++ test ++ update ++ [inner])

/-- A loop that tests after its body; the test is visited first. -/
def doStatement (rec : Rec) (start : Nat) : Parse Node := do
  advance
  let inner ← rec .statement
  expectWord "while"
  let test ← condition rec
  let _ ← eat .semicolon
  group start [test, inner]

/-- The statements of a case, up to the next one. -/
def caseStatements (rec : Rec) : Parse (List Node) :=
  loop (fun items => do
    if (← atWord "case") || (← atWord "default") || (← atPunct .rbrace) then
      return .inr items.reverse
    let item ← rec .statement
    return .inl (item :: items)) []

/-- A choice between cases. -/
def switchStatement (rec : Rec) (start : Nat) : Parse Node := do
  advance
  let subject ← condition rec
  expect .lbrace
  let inside ← untilClosed .rbrace do
    let caseStart ← here
    let test ← if ← eatWord "case" then (do return [← expression rec]) else (do
      expectWord "default"
      return [])
    expect .colon
    let inner ← caseStatements rec
    group caseStart (test ++ inner)
  group start (subject :: inside)

/-- A block with handlers. -/
def tryStatement (rec : Rec) (start : Nat) : Parse Node := do
  advance
  let tried ← blockReader rec
  let handler ← if ← eatWord "catch" then (do
      let target ← if ← eat .lparen then (do
          let patternStart ← here
          let target ← rec .pattern
          let typing ← typeAnnotation? rec
          let target ← annotate patternStart target typing
          expect .rparen
          return [target])
        else pure []
      let inner ← blockReader rec
      return target ++ [inner])
    else pure []
  let final ← if ← eatWord "finally" then (do return [← blockReader rec]) else pure []
  if handler.isEmpty && final.isEmpty then fail
  group start (tried :: handler ++ final)

/-- A jump to a label or out of the innermost loop. -/
def jumpStatement (start : Nat) : Parse Node := do
  advance
  let t ← token
  if isVariable t.kind && !t.broken then advance
  finishStatement start []

/-- A `return` statement. -/
def returnStatement (rec : Rec) (start : Nat) : Parse Node := do
  advance
  let value ← if ← atSemicolon then pure none else (do return some (← expression rec))
  semicolon
  return .ret value (← spanFrom start)

/-! ### Types and namespaces -/

/-- An interface, from its keyword. -/
def interfaceDeclaration (rec : Rec) (start : Nat) : Parse Node := do
  advance
  requiredName
  let generics ← typeParameters? rec
  let bases ← if ← eatWord "extends" then
      loop (fun items => do
        let item ← rec .type
        if ← eat .comma then return .inl (item :: items)
        return .inr (item :: items).reverse) []
    else pure []
  let members ← typeMembers rec
  group start (generics ++ bases ++ members)

/-- A type alias, from its keyword. -/
def aliasDeclaration (rec : Rec) (start : Nat) : Parse Node := do
  advance
  requiredName
  let generics ← typeParameters? rec
  expect .assign
  let inner ← rec .type
  finishStatement start (generics ++ [inner])

/-- An enumeration, from the word `enum`. -/
def enumDeclaration (rec : Rec) (start : Nat) : Parse Node := do
  advance
  requiredName
  expect .lbrace
  let members ← enclosed (separated .rbrace do
    let memberStart ← here
    let (_, index) ← propertyKey rec
    let value ← if ← eat .assign then (do return [← rec .assignment]) else pure []
    group memberStart (index ++ value))
  group start members

/-- A namespace or module, from its keyword. -/
def namespaceDeclaration (rec : Rec) (start : Nat) : Parse Node := do
  advance
  if (← token).kind == .quoted then advance
  else
    let _ ← entityName
  if ← atPunct .lbrace then
    let inner ← blockReader rec
    group start [inner]
  else
    finishStatement start []

/-! ### Imports and exports -/

/-- A name or string in a list of imports or exports. -/
def moduleName : Parse String := do
  let t ← token
  if t.kind == .quoted then
    advance
    return ""
  else
    return (← anyWord).1

/-- One of the names that are imported or exported, and the name it has
here. -/
def specifier : Parse String := do
  let first ← moduleName
  let p ← peek
  let named ←
    if first == "type" && (← hasTypes) && ((← token).kind == .quoted || (← atAnyWord)) &&
        (!(← atWord "as") || TokenKind.isPunct p.kind .comma ||
          TokenKind.isPunct p.kind .rbrace) then
      moduleName
    else pure first
  if ← eatWord "as" then moduleName else return named

/-- Names in braces. -/
def specifiers : Parse (List String) := do
  expect .lbrace
  loop (fun names => do
    if ← eat .rbrace then return .inr names.reverse
    let name ← specifier
    if ← eat .rbrace then return .inr (name :: names).reverse
    expect .comma
    return .inl (name :: names)) []

/-- The module that names come from, with its attributes. -/
def moduleSource (rec : Rec) : Parse (List Node) := do
  if (← token).kind == .quoted then advance else fail
  let t ← token
  if TokenKind.isWord t.kind "with" || (TokenKind.isWord t.kind "assert" && !t.broken) then
    advance
    return [← objectLiteral rec]
  else
    return []

/-- The end of an import of some names, from the word `from`. -/
def importSource (rec : Rec) (start : Nat) (names : List String) : Parse Node := do
  expectWord "from"
  let _ ← moduleSource rec
  semicolon
  return .imports names (← spanFrom start)

/-- Whether an import says when its module is loaded. -/
def atImportPhase : Parse Bool := do
  let p ← peek
  let q ← peekSecond
  return (← atWord "defer") && TokenKind.isPunct p.kind .star ||
    (← atWord "source") && isVariable p.kind &&
      (!(TokenKind.isWord p.kind "from") || TokenKind.isWord q.kind "from")

/-- An import declaration. -/
def importDeclaration (rec : Rec) (start : Nat) : Parse Node := do
  advance
  if (← token).kind == .quoted then
    let _ ← moduleSource rec
    semicolon
    return .imports [] (← spanFrom start)
  let p ← peek
  let q ← peekSecond
  if (← hasTypes) && (← atWord "type") &&
      (TokenKind.isPunct p.kind .lbrace || TokenKind.isPunct p.kind .star ||
        (TokenKind.isAnyWord p.kind &&
          (!(TokenKind.isWord p.kind "from") || TokenKind.isWord q.kind "from" ||
            TokenKind.isPunct q.kind .assign))) then
    advance
  else if ← atImportPhase then
    advance
  let mut names : List String := []
  if ← atAnyWord then
    requiredName
    if (← hasTypes) && (← eat .assign) then
      let value ← expression rec
      return ← finishStatement start [value]
    if !(← eat .comma) then
      return ← importSource rec start []
  if ← eat .star then
    expectWord "as"
    requiredName
  else if ← atPunct .lbrace then
    names ← specifiers
  importSource rec start names

/-- Words that start a declaration that can be exported. -/
def exportable : List String :=
  ["var", "let", "const", "function", "async", "class"]

/-- Words that start such a declaration in a typed dialect. -/
def typedExportable : List String :=
  ["abstract", "interface", "type", "enum", "namespace", "module", "declare", "global"]

/-- What a module exports by default. -/
def defaultExport (rec : Rec) (start : Nat) (found : List Node) : Parse Node := do
  let t ← token
  let p ← peek
  let types ← hasTypes
  if TokenKind.isWord t.kind "function" ||
      (TokenKind.isWord t.kind "async" && TokenKind.isWord p.kind "function" && !p.broken) then
    let inner ← functionExpression rec
    group start [inner]
  else if types && TokenKind.isWord t.kind "abstract" && TokenKind.isWord p.kind "class" then
    advance
    classTail rec start found optionalClassName
  else if TokenKind.isWord t.kind "class" then
    classTail rec start found optionalClassName
  else if TokenKind.isPunct t.kind .at then
    let more ← decorators (decoratorExpression rec)
    classTail rec start (found ++ more) optionalClassName
  else if types && TokenKind.isWord t.kind "interface" && isVariable p.kind && !p.broken then
    interfaceDeclaration rec start
  else
    let inner ← rec .assignment
    finishStatement start [inner]

/-- An export declaration; decorators of an exported class may stand in
front of it. -/
def exportDeclaration (rec : Rec) (start : Nat) (found : List Node) : Parse Node := do
  advance
  let t ← token
  let p ← peek
  let types ← hasTypes
  if ← eatWord "default" then
    defaultExport rec start found
  else if types && TokenKind.isPunct t.kind .assign then
    advance
    let inner ← expression rec
    finishStatement start [inner]
  else if types && TokenKind.isWord t.kind "as" && TokenKind.isWord p.kind "namespace" then
    advance
    advance
    requiredName
    finishStatement start []
  else if types && TokenKind.isWord t.kind "import" then
    advance
    let _ ← eatWord "type"
    requiredName
    expect .assign
    let inner ← expression rec
    finishStatement start [inner]
  else
    if types && TokenKind.isWord t.kind "type" &&
        (TokenKind.isPunct p.kind .lbrace || TokenKind.isPunct p.kind .star) then
      advance
    if ← eat .star then
      if ← eatWord "as" then
        let _ ← moduleName
      expectWord "from"
      let inside ← moduleSource rec
      finishStatement start inside
    else if ← atPunct .lbrace then
      let _ ← specifiers
      let inside ← if ← eatWord "from" then moduleSource rec else pure []
      finishStatement start inside
    else if ← atPunct .at then
      let inner ← rec .statement
      group start [inner]
    else
      match (← token).kind with
      | .word text false =>
        if text == "class" then
          classTail rec start found requiredName
        else if exportable.contains text || (types && typedExportable.contains text) then
          let inner ← rec .statement
          group start [inner]
        else
          fail
      | _ => fail

/-! ### Statements -/

/-- Words that may follow the word `declare`. -/
def declarable : List String :=
  ["var", "let", "const", "function", "class", "abstract", "interface", "type", "enum",
    "namespace", "module", "global"]

/-- A statement that only typed dialects have, if one starts here. -/
def typedStatement? (rec : Rec) (start : Nat) (text : String) : Parse (Option Node) := do
  let p ← peek
  let named := isVariable p.kind && !p.broken
  match text with
  | "interface" => if named then return some (← interfaceDeclaration rec start) else return none
  | "type" => if named then return some (← aliasDeclaration rec start) else return none
  | "enum" => return some (← enumDeclaration rec start)
  | "namespace" =>
    if named then return some (← namespaceDeclaration rec start) else return none
  | "module" =>
    if named || (p.kind == .quoted && !p.broken) then
      return some (← namespaceDeclaration rec start)
    else return none
  | "global" =>
    if TokenKind.isPunct p.kind .lbrace && !p.broken then
      advance
      let inner ← blockReader rec
      return some (← group start [inner])
    else return none
  | "declare" =>
    if !p.broken && declarable.any (TokenKind.isWord p.kind) then
      advance
      let inner ← rec .statement
      return some (← group start [inner])
    else return none
  | "abstract" =>
    if TokenKind.isWord p.kind "class" && !p.broken then
      advance
      return some (← classTail rec start [] requiredName)
    else return none
  | "const" =>
    if TokenKind.isWord p.kind "enum" then
      advance
      return some (← enumDeclaration rec start)
    else return none
  | _ => return none

/-- An expression as a statement. -/
def expressionStatement (rec : Rec) (start : Nat) : Parse Node := do
  let inner ← expression rec
  finishStatement start [inner]

/-- A statement that starts with a word. -/
def wordStatement (rec : Rec) (start : Nat) (text : String) : Parse Node := do
  let p ← peek
  if ← hasTypes then
    if let some node ← typedStatement? rec start text then return node
  match text with
  | "if" => ifStatement rec start
  | "for" => forStatement rec start
  | "while" =>
    advance
    let test ← condition rec
    let inner ← rec .statement
    group start [test, inner]
  | "do" => doStatement rec start
  | "switch" => switchStatement rec start
  | "try" => tryStatement rec start
  | "break" => jumpStatement start
  | "continue" => jumpStatement start
  | "return" => returnStatement rec start
  | "throw" =>
    advance
    if (← token).broken then fail
    let inner ← expression rec
    finishStatement start [inner]
  | "debugger" =>
    advance
    finishStatement start []
  | "with" =>
    advance
    let subject ← condition rec
    let inner ← rec .statement
    group start [subject, inner]
  | "function" => functionFrom rec start requiredName
  | "class" => classTail rec start [] requiredName
  | "import" =>
    if TokenKind.isPunct p.kind .lparen || TokenKind.isPunct p.kind .dot then
      expressionStatement rec start
    else
      importDeclaration rec start
  | "export" => exportDeclaration rec start []
  | "async" =>
    if TokenKind.isWord p.kind "function" && !p.broken then
      advance
      functionFrom rec start requiredName
    else
      expressionStatement rec start
  | _ =>
    if ← atDeclarations then
      let inside ← declarations rec true
      finishStatement start inside
    else if let some inside ← resources? rec then
      finishStatement start inside
    else
      expressionStatement rec start

/-- The reader of the goal `statement`. -/
def statementReader (rec : Rec) : Parse Node := do
  let t ← token
  let start := t.span.start
  match t.kind with
  | .punct .semicolon => leaf
  | .punct .lbrace => blockReader rec
  | .punct .at =>
    let found ← decorators (decoratorExpression rec)
    if ← atWord "export" then
      exportDeclaration rec start found
    else
      if (← hasTypes) && (← atWord "abstract") then advance
      classTail rec start found requiredName
  | .word text escaped =>
    let p ← peek
    if isVariable t.kind && TokenKind.isPunct p.kind .colon then
      advance
      advance
      let inner ← rec .statement
      group start [inner]
    else if escaped then
      expressionStatement rec start
    else
      wordStatement rec start text
  | _ => expressionStatement rec start

end GraphMigrate.Script.Grammar
