/-
Reading a script token by token.

A reader consumes tokens from a state and either gives a value or stops
with a syntax error at the offset of the token it could not use.  The
constructs of the language refer to each other in circles; a `Goal`
names such a construct, and every reader of the grammar is given, as a
parameter, the reader `Rec` for all goals.  The knot is tied by a bound
on the depth of nesting, in `GraphMigrate.Script.Grammar`.

* `Parse`: readers; `SyntaxError`: where one stopped;
* `attempt`, `orElse`: trying a reader, and two in turn; of two
  failures, the one farther into the text counts;
* `loop`, `separated`: repetition, bounded by the text that is left;
* `semicolon`: the end of a statement, which a line end, a closing
  brace and the end of the text stand for as well.
-/
import GraphMigrate.Script.Node
import GraphMigrate.Script.Token

namespace GraphMigrate.Script

/-- The byte offset of a token that does not fit. -/
structure SyntaxError where
  offset : Nat
  deriving DecidableEq, Repr, Inhabited

namespace Grammar

/-- What the surroundings say about the text to be read. -/
structure Context where
  /-- Type annotations are part of the language. -/
  types : Bool
  /-- Markup elements are part of the language. -/
  markup : Bool
  /-- `in` is no operator, as in the head of a loop. -/
  noIn : Bool := false
  /-- `extends` starts no conditional type. -/
  noConditional : Bool := false
  /-- A colon is expected to end the expression. -/
  colonAhead : Bool := false
  /-- `yield` is an operator. -/
  generator : Bool := false
  deriving Repr, Inhabited

/-- The token to be used next and the end of the one used last. -/
structure State where
  token : Token
  lastStop : Nat
  context : Context
  deriving Repr, Inhabited

/-- A reader of tokens. -/
abbrev Parse := StateT State (Except SyntaxError)

/-- The constructs through which the grammar refers to itself. -/
inductive Goal where
  | statement
  | assignment
  | unary
  | type
  | pattern
  | element
  deriving DecidableEq, Repr

/-- The reader of each goal. -/
abbrev Rec := Goal → Parse Node

/-! ### Tokens -/

/-- The token to be used next. -/
def token : Parse Token := do return (← get).token

/-- Where a token is at fault. -/
def faultOffset (t : Token) : Nat :=
  match t.kind with
  | .fault offset => offset
  | _ => t.span.start

/-- Stops at the next token. -/
def fail {α : Type} : Parse α := fun s => .error ⟨faultOffset s.token⟩

/-- Stops at an offset. -/
def failAt {α : Type} (offset : Nat) : Parse α := fun _ => .error ⟨offset⟩

/-- Stops at a hash sign that no name follows: behind it, unless a gap
comes first. -/
def failAtHash {α : Type} : Parse α := do
  let t ← token
  if (t.kind == .hash) && !(t.after.chars.head?.any fun c => isGap c || isLineEnd c) then
    failAt t.span.stop
  else
    fail

/-- The start of the next token. -/
def here : Parse Nat := do return (← get).token.span.start

/-- The span from an offset to the end of the last token used. -/
def spanFrom (start : Nat) : Parse Span := do return ⟨start, (← get).lastStop⟩

/-- Goes on with the token at or behind a cursor. -/
def resume (cursor : Cursor) : Parse Unit :=
  modify fun s => { s with token := Token.next cursor, lastStop := cursor.offset }

/-- Uses the next token. -/
def advance : Parse Unit := do resume (← get).token.after

/-- The token behind the next one. -/
def peek : Parse Token := do return Token.next (← get).token.after

/-- The token two behind the next one. -/
def peekSecond : Parse Token := do return Token.next (← peek).after

/-- Whether a token is malformed. -/
def isFault : TokenKind → Bool
  | .fault _ => true
  | _ => false

namespace TokenKind

/-- Whether a token is a given bracket, separator or operator. -/
def isPunct (kind : TokenKind) (p : Punct) : Bool := kind == .punct p

/-- Whether a token is a given keyword, written without escapes. -/
def isWord (kind : TokenKind) (text : String) : Bool := kind == .word text false

/-- Whether a token is a name or keyword. -/
def isAnyWord : TokenKind → Bool
  | .word _ _ => true
  | _ => false

end TokenKind

/-- Whether the next token is a given bracket, separator or operator. -/
def atPunct (p : Punct) : Parse Bool := do return TokenKind.isPunct (← token).kind p

/-- Whether the next token is a given keyword. -/
def atWord (text : String) : Parse Bool := do return TokenKind.isWord (← token).kind text

/-- Whether the next token is a name or keyword. -/
def atAnyWord : Parse Bool := do return TokenKind.isAnyWord (← token).kind

/-- Uses the next token if it is the one given. -/
def eat (p : Punct) : Parse Bool := do
  if ← atPunct p then
    advance
    return true
  else
    return false

/-- Uses the next token if it is the keyword given. -/
def eatWord (text : String) : Parse Bool := do
  if ← atWord text then
    advance
    return true
  else
    return false

/-- Uses the next token, which has to be the one given. -/
def expect (p : Punct) : Parse Unit := do
  if ← atPunct p then advance else fail

/-- Uses the next token, which has to be the keyword given. -/
def expectWord (text : String) : Parse Unit := do
  if ← atWord text then advance else fail

/-! ### Control -/

/-- Reads in another context. -/
def within {α : Type} (change : Context → Context) (p : Parse α) : Parse α := do
  let outer := (← get).context
  modify fun s => { s with context := change s.context }
  let a ← p
  modify fun s => { s with context := outer }
  return a

/-- Reads inside brackets, where the restrictions of the surrounding
expression do not count. -/
def enclosed {α : Type} (p : Parse α) : Parse α :=
  within (fun c => { c with noIn := false, colonAhead := false, noConditional := false }) p

/-- Tries a reader; where it fails nothing is used. -/
def attempt {α : Type} (p : Parse α) : Parse (Except SyntaxError α) := fun s =>
  match p s with
  | .ok (a, later) => .ok (.ok a, later)
  | .error e => .ok (.error e, s)

/-- Tries a reader and, where it fails, nothing. -/
def optionally {α : Type} (p : Parse α) : Parse (Option α) := do
  match ← attempt p with
  | .ok a => return some a
  | .error _ => return none

/-- Tries a reader, then another.  If both fail, the failure farther
into the text counts. -/
def orElse {α : Type} (p q : Parse α) : Parse α := fun s =>
  match p s with
  | .ok result => .ok result
  | .error e =>
    match q s with
    | .ok result => .ok result
    | .error f => .error ⟨max e.offset f.offset⟩

/-- Whether a reader would succeed. -/
def lookahead {α : Type} (p : Parse α) : Parse Bool := fun s =>
  match p s with
  | .ok _ => .ok (true, s)
  | .error _ => .ok (false, s)

/-- Repeats a step until it gives a result, at most `bound` times. -/
def loopUpTo {α β : Type} (bound : Nat) (step : α → Parse (α ⊕ β)) (a : α) : Parse β :=
  match bound with
  | 0 => fail
  | bound + 1 => do
    match ← step a with
    | .inl next => loopUpTo bound step next
    | .inr b => return b

/-- Repeats a step, which uses tokens, until it gives a result. -/
def loop {α β : Type} (step : α → Parse (α ⊕ β)) (a : α) : Parse β := do
  loopUpTo ((← get).token.start.chars.length + 2) step a

/-- Items separated by commas up to a closing bracket, which is used. -/
def separated (close : Punct) (item : Parse Node) : Parse (List Node) :=
  loop (fun items => do
    if ← eat close then return .inr items.reverse
    let n ← item
    if ← eat close then return .inr (n :: items).reverse
    expect .comma
    return .inl (n :: items)) []

/-- Items up to a closing bracket, which is used. -/
def untilClosed (close : Punct) (item : Parse Node) : Parse (List Node) :=
  loop (fun items => do
    if ← eat close then return .inr items.reverse
    let n ← item
    return .inl (n :: items)) []

/-- Whether a statement may end before the next token. -/
def atSemicolon : Parse Bool := do
  let t ← token
  return t.broken || TokenKind.isPunct t.kind .semicolon || TokenKind.isPunct t.kind .rbrace ||
    t.kind == .finish

/-- The end of a statement. -/
def semicolon : Parse Unit := do
  if ← eat .semicolon then return
  unless ← atSemicolon do fail

/-! ### Names -/

/-- Keywords that name no variable. -/
def reservedWords : List String :=
  ["break", "case", "catch", "class", "const", "continue", "debugger", "default", "delete", "do",
    "else", "enum", "export", "extends", "false", "finally", "for", "function", "if", "import",
    "in", "instanceof", "new", "null", "return", "super", "switch", "this", "throw", "true",
    "try", "typeof", "var", "void", "while", "with"]

/-- Whether a token can name a variable. -/
def isVariable (kind : TokenKind) : Bool :=
  match kind with
  | .word text escaped => escaped || !reservedWords.contains text
  | _ => false

/-- The name of a variable. -/
def variableName : Parse (String × Span) := do
  let t ← token
  match t.kind with
  | .word text _ =>
    if isVariable t.kind then
      advance
      return (text, t.span)
    else
      fail
  | _ => fail

/-- Any name, keywords included. -/
def anyWord : Parse (String × Span) := do
  let t ← token
  match t.kind with
  | .word text _ =>
    advance
    return (text, t.span)
  | _ => fail

/-- Whether type annotations are part of the language. -/
def hasTypes : Parse Bool := do return (← get).context.types

/-- Whether markup is part of the language. -/
def hasMarkup : Parse Bool := do return (← get).context.markup

/-- A node that holds others. -/
def group (start : Nat) (inside : List Node) : Parse Node := do
  return .other inside (← spanFrom start)

/-- A property key and, if it is computed, the expression in brackets.
In a typed language the expression may be a sequence. -/
def propertyKey (rec : Rec) : Parse (Key × List Node) := do
  let t ← token
  match t.kind with
  | .word text _ =>
    advance
    return (⟨.name text, t.span⟩, [])
  | .quoted =>
    advance
    return (⟨.quoted, t.span⟩, [])
  | .numeral =>
    advance
    return (⟨.numeral, t.span⟩, [])
  | .punct .lbracket =>
    advance
    let inside ← enclosed (loop (fun items => do
      let e ← rec .assignment
      if (← hasTypes) && (← eat .comma) then return .inl (e :: items)
      return .inr (e :: items).reverse) [])
    expect .rbracket
    return (⟨.computed, ← spanFrom t.span.start⟩, inside)
  | _ => fail

/-- The parts of a template, from behind its opening mark to behind its
end: the first segment and what stands in the interpolations. -/
def templateParts (start : Cursor) (interpolation : Parse Node) : Parse (Span × List Node) := do
  let (firstStop, _, _) := templateSegment start.offset start.chars
  let parts ← loop (fun (cursor, parts) => do
    match templateSegment cursor.offset cursor.chars with
    | (_, .closed, after) =>
      resume after
      return .inr parts.reverse
    | (_, .interpolated, after) =>
      resume after
      let e ← enclosed interpolation
      let t ← token
      if TokenKind.isPunct t.kind .rbrace then return .inl (t.after, e :: parts) else fail
    | (_, .unfinished, _) => failAt (cursor.offset - 1)) (start, ([] : List Node))
  return (⟨start.offset, firstStop.offset⟩, parts)

end Grammar

end GraphMigrate.Script
