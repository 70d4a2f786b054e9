/-
Markup elements inside expressions.

Between the tags of an element every character up to a brace or an
angle bracket is text, so the reader of an element works with cursors
and leaves the last bracket of an element to its caller: whether the
text behind it is markup or script depends on what the element is in.

* `elementReader`: the reader of the goal `element`, from the opening
  bracket up to, and not behind, the bracket that ends the element.
-/
import GraphMigrate.Script.Grammar.Functions

namespace GraphMigrate.Script.Grammar

/-- Characters that continue a name in markup. -/
def isMarkupPart (c : Char) : Bool := isWordPart c || c == '-'

/-- A name in markup, which may contain hyphens. -/
def markupWord : Parse String := do
  let t ← token
  match t.kind with
  | .word text _ =>
    let (more, rest) := Cursor.takeWhile isMarkupPart t.after.offset t.after.chars
    resume rest
    return text ++ String.ofList more
  | _ => fail

/-- An element name: words joined by colons or dots. -/
def markupName : Parse String := do
  let first ← markupWord
  loop (fun name => do
    if ← eat .colon then
      return .inl (name ++ ":" ++ (← markupWord))
    if ← eat .dot then
      return .inl (name ++ "." ++ (← markupWord))
    return .inr name) first

/-- Moves behind the closing quote of an attribute value. -/
def attributeTextEnd? (quote : Char) (offset : Nat) : List Char → Option Cursor
  | [] => none
  | c :: cs =>
    if c = quote then some ⟨offset + 1, cs⟩ else attributeTextEnd? quote (offset + c.utf8Size) cs

/-- An expression in braces that stands in markup, up to, and not
behind, the closing brace; it may be empty or spread. -/
def container (rec : Rec) : Parse (List Node) := do
  expect .lbrace
  enclosed do
    let t ← token
    if TokenKind.isPunct t.kind .rbrace then return []
    let _ ← eat .ellipsis
    let inside ← loop (fun items => do
      let e ← rec .assignment
      if ← eat .comma then return .inl (e :: items)
      return .inr (e :: items).reverse) []
    if ← atPunct .rbrace then return inside else fail

/-- An attribute value behind its equals sign, which is the next token. -/
def attributeValue (rec : Rec) : Parse (List Node) := do
  let t ← token
  let (start, _) := skipGap false t.after.offset .code t.after.chars
  match start.chars with
  | c :: cs =>
    if c = '"' ∨ c = '\'' then
      match attributeTextEnd? c (start.offset + 1) cs with
      | some rest =>
        resume rest
        return []
      | none => failAt start.offset
    else
      advance
      if ← atPunct .lbrace then
        let inside ← container rec
        advance
        return inside
      else if ← atPunct .less then
        let e ← rec .element
        advance
        return [e]
      else
        fail
  | [] =>
    advance
    fail

/-- The attributes of a tag. -/
def attributes (rec : Rec) : Parse (List Node) := do
  let found ← loop (fun found => do
    let t ← token
    match t.kind with
    | .word _ _ =>
      let _ ← markupName
      if ← atPunct .assign then
        let inside ← attributeValue rec
        return .inl (found ++ inside)
      return .inl found
    | .punct .lbrace =>
      let inside ← container rec
      advance
      return .inl (found ++ inside)
    | _ => return .inr found) []
  return found

/-- The characters that end a run of text in markup. -/
def isMarkupText (c : Char) : Bool := c != '{' && c != '<'

/-- The children of an element from behind its opening tag, and the
name in its closing tag; the next token is then the last bracket. -/
def childrenUntil (rec : Rec) (start : Cursor) : Parse (List Node × String × Nat) :=
  loop (fun (cursor, found) => do
    let rest := Cursor.skipWhile isMarkupText cursor
    match rest.chars with
    | '{' :: _ =>
      resume rest
      let inside ← container rec
      return .inl ((← token).after, found ++ inside)
    | '<' :: _ =>
      resume rest
      let p ← peek
      if TokenKind.isPunct p.kind .slash then
        advance
        advance
        if ← atPunct .greater then
          return .inr (found, "", rest.offset)
        let name ← markupName
        if ← atPunct .greater then
          return .inr (found, name, rest.offset)
        fail
      else
        let e ← rec .element
        return .inl ((← token).after, found ++ [e])
    | _ =>
      resume rest
      fail) (start, ([] : List Node))

/-- An element or a fragment. -/
def elementReader (rec : Rec) : Parse Node := do
  let start ← here
  expect .less
  let finish (inside : List Node) : Parse Node := do
    return .other inside ⟨start, (← token).span.stop⟩
  if ← atPunct .greater then
    let (inside, name, closing) ← childrenUntil rec (← token).after
    if name == "" then finish inside else failAt closing
  else
    let name ← markupName
    let generics ← if (← hasTypes) && (← atPunct .less) then typeArguments rec else pure []
    let found ← attributes rec
    if ← atPunct .slash then
      advance
      if ← atPunct .greater then finish (found ++ generics) else fail
    else if ← atPunct .greater then
      let (inside, closingName, closing) ← childrenUntil rec (← token).after
      if closingName == name then finish (found ++ generics ++ inside) else failAt closing
    else
      fail

end GraphMigrate.Script.Grammar
