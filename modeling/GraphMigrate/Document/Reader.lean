/-
Reading documents.

A document is read from its tokens; a text that breaks a rule of the
grammar has no document at all.  The rules beyond the order of tokens:
braces and parentheses are not empty, except those of object values; no
fragment is called `on`; default values, and directives on definitions
of types, hold no variables; an extension adds something; operations,
fragments and extensions have no description.

* `Read`: readers of tokens;
* `Document.parse?`: the document of a text.
-/
import GraphMigrate.Document.Syntax
import GraphMigrate.Document.Token

namespace GraphMigrate.Document

/-- A reader of tokens, which may fail. -/
abbrev Read := StateT (List Token) Option

namespace Read

/-- Fails. -/
def fail {α : Type} : Read α := fun _ => none

/-- The kind of the next token. -/
def next? : Read (Option TokenKind) := do return (← get).head?.map (·.kind)

/-- The kind of the token behind the next one. -/
def second? : Read (Option TokenKind) := do return ((← get).drop 1).head?.map (·.kind)

/-- The offset of the next token. -/
def offset : Read Nat := do return ((← get).head?.map (·.offset)).getD 0

/-- Uses a token. -/
def advance : Read Unit := modify (·.drop 1)

/-- Whether the next token is a given mark. -/
def atMark (m : Mark) : Read Bool := do return (← next?) == some (.mark m)

/-- Whether the next token is a given name. -/
def atName (text : String) : Read Bool := do return (← next?) == some (.name text)

/-- Uses the next token if it is a given mark. -/
def eat (m : Mark) : Read Bool := do
  if ← atMark m then
    advance
    return true
  else
    return false

/-- Uses the next token if it is a given name. -/
def eatName (text : String) : Read Bool := do
  if ← atName text then
    advance
    return true
  else
    return false

/-- Uses the next token, which has to be a given mark. -/
def expect (m : Mark) : Read Unit := do
  unless ← eat m do fail

/-- Uses the next token, which has to be a given name. -/
def expectName (text : String) : Read Unit := do
  unless ← eatName text do fail

/-- Any name. -/
def name : Read String := do
  match ← next? with
  | some (.name text) =>
    advance
    return text
  | _ => fail

/-- Items up to a mark, which is used, at most `bound` of them. -/
def itemsUntil {α : Type} (close : Mark) (item : Read α) : Nat → Read (List α)
  | 0 => fail
  | bound + 1 => do
    if ← eat close then return []
    let a ← item
    return a :: (← itemsUntil close item bound)

/-- How many tokens are left, plus one. -/
def bound : Read Nat := do return (← get).length + 1

/-- Items up to a mark, which is used. -/
def many {α : Type} (close : Mark) (item : Read α) : Read (List α) := do
  itemsUntil close item (← bound)

/-- At least one item up to a mark, which is used. -/
def oneOrMore {α : Type} (close : Mark) (item : Read α) : Read (List α) := do
  let first ← item
  return first :: (← many close item)

/-- Further items, each after a separator. -/
def afterEach {α : Type} (separator : Mark) (item : Read α) : Nat → Read (List α)
  | 0 => fail
  | bound + 1 => do
    if ← eat separator then
      let a ← item
      return a :: (← afterEach separator item bound)
    else
      return []

/-- Items with a separator between them, which may also come first. -/
def separated {α : Type} (separator : Mark) (item : Read α) : Read (List α) := do
  let _ ← eat separator
  let first ← item
  return first :: (← afterEach separator item (← bound))

end Read

open Read

/-! ### Values and types -/

/-- The name and value of an object field, given how values are read. -/
def objectField (value : Read Value) : Read (String × Value) := do
  let key ← name
  expect .colon
  return (key, ← value)

/-- A value nested at most to a depth.  Constant values hold no variables. -/
def value (constant : Bool) : Nat → Read Value
  | 0 => fail
  | depth + 1 => do
    match ← next? with
    | some (.mark .dollar) =>
      if constant then fail
      advance
      return .variable (← name)
    | some (.int text) =>
      advance
      return .int text
    | some (.float text) =>
      advance
      return .float text
    | some (.string content) =>
      advance
      return .string content
    | some (.name text) =>
      advance
      return match text with
        | "true" => .boolean true
        | "false" => .boolean false
        | "null" => .null
        | _ => .symbol text
    | some (.mark .lbracket) =>
      advance
      return .list (← many .rbracket (value constant depth))
    | some (.mark .lbrace) =>
      advance
      return .object (← many .rbrace (objectField (value constant depth)))
    | _ => fail

/-- A value of any depth. -/
def anyValue (constant : Bool) : Read Value := do value constant (← bound)

/-- A reference to a type, nested at most to a depth. -/
def typeReference : Nat → Read TypeReference
  | 0 => fail
  | depth + 1 => do
    let inner ←
      if ← eat .lbracket then (do
        let item ← typeReference depth
        expect .rbracket
        return TypeReference.list item)
      else (do return TypeReference.named (← name))
    if ← eat .bang then return .required inner else return inner

/-- A reference to a type of any depth. -/
def anyType : Read TypeReference := do typeReference (← bound)

/-- A named argument. -/
def argument (constant : Bool) : Read Argument := do
  let key ← name
  expect .colon
  return ⟨key, ← anyValue constant⟩

/-- Arguments in parentheses, if there are any. -/
def arguments (constant : Bool) : Read (List Argument) := do
  if ← eat .lparen then oneOrMore .rparen (argument constant) else return []

/-- Applied directives, at most `bound` of them. -/
def directivesUpTo (constant : Bool) : Nat → Read (List Directive)
  | 0 => fail
  | bound + 1 => do
    if ← eat .at then
      let key ← name
      let inside ← arguments constant
      return ⟨key, inside⟩ :: (← directivesUpTo constant bound)
    else
      return []

/-- Applied directives. -/
def directives (constant : Bool) : Read (List Directive) := do
  directivesUpTo constant (← bound)

/-- A default value, if there is one. -/
def fallback : Read (Option Value) := do
  if ← eat .equals then return some (← anyValue true) else return none

/-! ### Operations and fragments -/

/-- A member of a selection set, given how selection sets are read. -/
def selection (set : Read (List Selection)) : Read Selection := do
  if ← eat .spread then
    match ← next? with
    | some (.name text) =>
      advance
      if text == "on" then
        let condition ← name
        let applied ← directives false
        return .inline (some condition) applied (← set)
      else
        return .spread text (← directives false)
    | some (.mark .at) =>
      let applied ← directives false
      return .inline none applied (← set)
    | some (.mark .lbrace) => return .inline none [] (← set)
    | _ => fail
  else
    let start ← offset
    let first ← name
    let (written, key) ← if ← eat .colon then (do return (some first, ← name))
      else pure (none, first)
    let inside ← arguments false
    let applied ← directives false
    let below ← if ← atMark .lbrace then set else pure []
    return .field ⟨start, written, key, inside, applied⟩ below

/-- A selection set in braces, nested at most to a depth. -/
def selectionSet : Nat → Read (List Selection)
  | 0 => fail
  | depth + 1 => do
    expect .lbrace
    oneOrMore .rbrace (selection (selectionSet depth))

/-- A selection set of any depth. -/
def anySelectionSet : Read (List Selection) := do selectionSet (← bound)

/-- A declared variable. -/
def variableDefinition : Read VariableDefinition := do
  expect .dollar
  let key ← name
  expect .colon
  let type ← anyType
  let value ← fallback
  return ⟨key, type, value, ← directives true⟩

/-- An operation, from its keyword. -/
def operation (kind : OperationKind) : Read Operation := do
  advance
  let key ← match ← next? with
    | some (.name text) => (do
      advance
      return some text)
    | _ => pure none
  let declared ← if ← eat .lparen then oneOrMore .rparen variableDefinition else pure []
  let applied ← directives false
  return ⟨kind, key, declared, applied, ← anySelectionSet⟩

/-- A fragment, from its keyword. -/
def fragment : Read Fragment := do
  advance
  let key ← name
  if key == "on" then fail
  expectName "on"
  let condition ← name
  let applied ← directives false
  return ⟨key, condition, applied, ← anySelectionSet⟩

/-! ### Type definitions -/

/-- A description, if there is one. -/
def description : Read (Option String) := do
  match ← next? with
  | some (.string content) =>
    advance
    return some content
  | _ => return none

/-- A declared argument or input field. -/
def inputValue : Read InputValue := do
  let text ← description
  let key ← name
  expect .colon
  let type ← anyType
  let value ← fallback
  return ⟨text, key, type, value, ← directives true⟩

/-- Declared arguments in parentheses, if there are any. -/
def argumentsDefinition : Read (List InputValue) := do
  if ← eat .lparen then oneOrMore .rparen inputValue else return []

/-- A declared field. -/
def fieldDefinition : Read FieldDefinition := do
  let text ← description
  let key ← name
  let inside ← argumentsDefinition
  expect .colon
  let type ← anyType
  return ⟨text, key, inside, type, ← directives true⟩

/-- A declared enum value. -/
def enumValue : Read EnumValue := do
  let text ← description
  let key ← name
  if ["true", "false", "null"].contains key then fail
  return ⟨text, key, ← directives true⟩

/-- Items in braces, if there are any. -/
def optionalBraces {α : Type} (item : Read α) : Read (List α) := do
  if ← eat .lbrace then oneOrMore .rbrace item else return []

/-- The interfaces that a type implements. -/
def interfaces : Read (List String) := do
  if ← eatName "implements" then separated .amp name else return []

/-- A root operation of a schema. -/
def rootOperation : Read (OperationKind × String) := do
  match OperationKind.ofKeyword? (← name) with
  | some kind =>
    expect .colon
    return (kind, ← name)
  | none => fail

/-- Where directives can be applied. -/
def directiveLocations : List String :=
  ["QUERY", "MUTATION", "SUBSCRIPTION", "FIELD", "FRAGMENT_DEFINITION", "FRAGMENT_SPREAD",
    "INLINE_FRAGMENT", "VARIABLE_DEFINITION", "SCHEMA", "SCALAR", "OBJECT", "FIELD_DEFINITION",
    "ARGUMENT_DEFINITION", "INTERFACE", "UNION", "ENUM", "ENUM_VALUE", "INPUT_OBJECT",
    "INPUT_FIELD_DEFINITION"]

/-- A place where a directive can be applied. -/
def directiveLocation : Read String := do
  let key ← name
  if directiveLocations.contains key then return key else fail

/-- The definition of a directive, from its keyword. -/
def directiveDefinition (text : Option String) : Read DirectiveDefinition := do
  advance
  expect .at
  let key ← name
  let inside ← argumentsDefinition
  let repeatable ← eatName "repeatable"
  expectName "on"
  return ⟨text, key, inside, repeatable, ← separated .bar directiveLocation⟩

/-- A schema definition or extension, from its keyword. -/
def schemaDefinition (extending : Bool) (text : Option String) : Read SchemaDefinition := do
  advance
  let applied ← directives true
  let roots ←
    if extending then optionalBraces rootOperation
    else (do
      expect .lbrace
      oneOrMore .rbrace rootOperation)
  if extending && applied.isEmpty && roots.isEmpty then fail
  return ⟨extending, text, applied, roots⟩

/-- What a type consists of, by its keyword, after the directives. -/
def typeBody (keyword : String) (implemented : List String) : Read TypeBody := do
  match keyword with
  | "scalar" => return .scalar
  | "type" => return .object implemented (← optionalBraces fieldDefinition)
  | "interface" => return .interface implemented (← optionalBraces fieldDefinition)
  | "union" =>
    if ← eat .equals then return .union (← separated .bar name) else return .union []
  | "enum" => return .enum (← optionalBraces enumValue)
  | "input" => return .input (← optionalBraces inputValue)
  | _ => fail

/-- Whether a type consists of nothing. -/
def TypeBody.isEmpty : TypeBody → Bool
  | .scalar => true
  | .object is fs | .interface is fs => is.isEmpty && fs.isEmpty
  | .union ms => ms.isEmpty
  | .enum vs => vs.isEmpty
  | .input fs => fs.isEmpty

/-- A type definition or extension, from its keyword. -/
def typeDefinition (extending : Bool) (text : Option String) : Read TypeDefinition := do
  let keyword ← name
  let key ← name
  let implemented ←
    if keyword == "type" || keyword == "interface" then interfaces else pure []
  let applied ← directives true
  let body ← typeBody keyword implemented
  if extending && applied.isEmpty && body.isEmpty then fail
  return ⟨extending, text, key, applied, body⟩

/-- A definition of the type system, from its keyword. -/
def systemDefinition (text : Option String) : Read Definition := do
  if ← atName "directive" then
    return .directive (← directiveDefinition text)
  else if ← atName "schema" then
    return .schema (← schemaDefinition false text)
  else
    return .type (← typeDefinition false text)

/-- A member of a document. -/
def definition : Read Definition := do
  match ← next? with
  | some (.mark .lbrace) =>
    return .operation ⟨.query, none, [], [], ← anySelectionSet⟩
  | some (.string _) => systemDefinition (← description)
  | some (.name text) =>
    match OperationKind.ofKeyword? text with
    | some kind => return .operation (← operation kind)
    | none =>
      if text == "fragment" then
        return .fragment (← fragment)
      else if text == "extend" then
        advance
        if ← atName "schema" then
          return .schema (← schemaDefinition true none)
        else
          return .type (← typeDefinition true none)
      else
        systemDefinition none
  | _ => fail

/-- The members of a document, at most `bound` of them. -/
def definitionsUpTo : Nat → Read (List Definition)
  | 0 => fail
  | bound + 1 => do
    if (← next?).isNone then return []
    let first ← definition
    return first :: (← definitionsUpTo bound)

/-- The document of a text. -/
def parse? (text : List Char) : Option Document := do
  let found ← tokens? text
  let (definitions, _) ← (definitionsUpTo (found.length + 1)).run found
  if definitions.isEmpty then none else some ⟨definitions⟩

end GraphMigrate.Document
