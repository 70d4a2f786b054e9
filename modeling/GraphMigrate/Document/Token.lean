/-
Tokens of documents.

White space, commas and comments stand between tokens and mean nothing.
Strings are read by what they mean: escapes are resolved, and a block
string loses the indentation that its lines share and the blank lines
at its ends.

* `Token`, `tokens?`: the tokens of a text, with their byte offsets;
  there are none if some part of the text is no token;
* `dedent`: the meaning of a block string.
-/
import GraphMigrate.Text.Span

namespace GraphMigrate.Document

/-- Punctuation marks. -/
inductive Mark where
  | bang | dollar | amp | lparen | rparen | spread | colon | equals | at
  | lbracket | rbracket | lbrace | rbrace | bar
  deriving DecidableEq, Repr

/-- The kinds of tokens. -/
inductive TokenKind where
  | mark (m : Mark)
  | name (text : String)
  | int (text : String)
  | float (text : String)
  | string (content : String)
  deriving DecidableEq, Repr

/-- A token and the byte offset at which it starts. -/
structure Token where
  kind : TokenKind
  offset : Nat
  deriving DecidableEq, Repr

/-- Characters that start a name. -/
def isNameStart (c : Char) : Bool := c.isAlpha || c == '_'

/-- Characters that continue a name. -/
def isNamePart (c : Char) : Bool := c.isAlphanum || c == '_'

/-- A valid name: a letter or underscore, then letters, digits and
underscores. -/
def isName (text : String) : Bool :=
  match text.toList with
  | [] => false
  | c :: cs => isNameStart c && cs.all isNamePart

/-! ### Numbers -/

/-- Digits at the start of a text and the rest. -/
def digits (cs : List Char) : List Char × List Char :=
  (cs.takeWhile Char.isDigit, cs.dropWhile Char.isDigit)

/-- The whole part of a number, which has no needless zeros. -/
def wholePart? (cs : List Char) : Option (List Char × List Char) :=
  let (sign, cs) : List Char × List Char :=
    match cs with
    | '-' :: rest => (['-'], rest)
    | _ => ([], cs)
  match digits cs with
  | ([], _) => none
  | ('0' :: _ :: _, _) => none
  | (ds, rest) => some (sign ++ ds, rest)

/-- A fraction, if there is one. -/
def fraction? (cs : List Char) : Option (List Char × List Char) :=
  match cs with
  | '.' :: rest =>
    match digits rest with
    | ([], _) => none
    | (ds, rest) => some ('.' :: ds, rest)
  | _ => some ([], cs)

/-- An exponent, if there is one. -/
def exponent? (cs : List Char) : Option (List Char × List Char) :=
  match cs with
  | c :: rest =>
    if c = 'e' ∨ c = 'E' then
      let (sign, rest) : List Char × List Char :=
        match rest with
        | '+' :: more => (['+'], more)
        | '-' :: more => (['-'], more)
        | _ => ([], rest)
      match digits rest with
      | ([], _) => none
      | (ds, rest) => some (c :: sign ++ ds, rest)
    else some ([], cs)
  | [] => some ([], [])

/-- A number at the start of a text.  No name, dot or digit may follow
directly. -/
def number? (cs : List Char) : Option (TokenKind × List Char) := do
  let (whole, rest) ← wholePart? cs
  let (fraction, rest) ← fraction? rest
  let (exponent, rest) ← exponent? rest
  if rest.head?.any fun c => isNamePart c || c == '.' then none
  else if fraction.isEmpty && exponent.isEmpty then
    return (.int (String.ofList whole), rest)
  else
    return (.float (String.ofList (whole ++ fraction ++ exponent)), rest)

/-! ### Strings -/

/-- The value of a hexadecimal digit. -/
def hexValue? (c : Char) : Option Nat :=
  let n := c.toNat
  if 48 ≤ n ∧ n ≤ 57 then some (n - 48)
  else if 65 ≤ n ∧ n ≤ 70 then some (n - 55)
  else if 97 ≤ n ∧ n ≤ 102 then some (n - 87)
  else none

/-- The number that hexadecimal digits stand for. -/
def hexNumber? : List Char → Option Nat
  | [] => none
  | ds => ds.foldl (fun n d => do return (← n) * 16 + (← hexValue? d)) (some 0)

/-- A character by its number, surrogates excluded. -/
def scalar? (n : Nat) : Option Char :=
  if n < 0xD800 ∨ (0xDFFF < n ∧ n ≤ 0x10FFFF) then some (Char.ofNat n) else none

/-- A numbered character, from behind the `u` of its escape. -/
def numbered? : List Char → Option (Char × List Char)
  | '{' :: cs =>
    let ds := cs.takeWhile (· != '}')
    match cs.drop ds.length with
    | '}' :: rest => do
      let c ← scalar? (← hexNumber? ds)
      return (c, rest)
    | _ => none
  | a :: b :: c :: d :: cs => do
    let high ← hexNumber? [a, b, c, d]
    if 0xD800 ≤ high ∧ high ≤ 0xDBFF then
      match cs with
      | '\\' :: 'u' :: e :: f :: g :: h :: rest =>
        let low ← hexNumber? [e, f, g, h]
        if 0xDC00 ≤ low ∧ low ≤ 0xDFFF then
          let c ← scalar? (0x10000 + (high - 0xD800) * 0x400 + (low - 0xDC00))
          return (c, rest)
        else none
      | _ => none
    else
      let c ← scalar? high
      return (c, cs)
  | _ => none

/-- An escaped character, from behind its backslash. -/
def escaped? : List Char → Option (Char × List Char)
  | '"' :: cs => some ('"', cs)
  | '\\' :: cs => some ('\\', cs)
  | '/' :: cs => some ('/', cs)
  | 'b' :: cs => some (Char.ofNat 8, cs)
  | 'f' :: cs => some (Char.ofNat 12, cs)
  | 'n' :: cs => some ('\n', cs)
  | 'r' :: cs => some ('\r', cs)
  | 't' :: cs => some ('\t', cs)
  | 'u' :: cs => numbered? cs
  | _ => none

/-- The content of a string, from behind its opening quote. -/
def quoted? : Nat → List Char → Option (List Char × List Char)
  | 0, _ => none
  | _ + 1, [] => none
  | fuel + 1, c :: cs =>
    if c = '"' then some ([], cs)
    else if c = '\n' ∨ c = '\r' then none
    else if c = '\\' then do
      let (e, rest) ← escaped? cs
      let (content, rest) ← quoted? fuel rest
      return (e :: content, rest)
    else do
      let (content, rest) ← quoted? fuel cs
      return (c :: content, rest)

/-- The raw content of a block string, from behind its opening quotes. -/
def blockQuoted? : List Char → Option (List Char × List Char)
  | [] => none
  | '\\' :: '"' :: '"' :: '"' :: cs => do
    let (content, rest) ← blockQuoted? cs
    return ('"' :: '"' :: '"' :: content, rest)
  | '"' :: '"' :: '"' :: cs => some ([], cs)
  | c :: cs => do
    let (content, rest) ← blockQuoted? cs
    return (c :: content, rest)

/-- The lines of a text; a carriage return before a line feed belongs to
the same line end. -/
def lines : List Char → List (List Char)
  | [] => [[]]
  | '\r' :: '\n' :: cs => [] :: lines cs
  | c :: cs =>
    if c = '\n' ∨ c = '\r' then [] :: lines cs
    else
      match lines cs with
      | [] => [[c]]
      | line :: later => (c :: line) :: later

/-- Space and tab, which indent lines. -/
def isIndent (c : Char) : Bool := c == ' ' || c == '\t'

/-- The width of a line's indentation; blank lines have none. -/
def indentation? (line : List Char) : Option Nat :=
  let width := (line.takeWhile isIndent).length
  if width < line.length then some width else none

/-- The least of the numbers that are given. -/
def least? (numbers : List (Option Nat)) : Option Nat :=
  numbers.foldl (fun found n =>
    match found, n with
    | some a, some b => some (min a b)
    | none, b => b
    | a, none => a) none

/-- A line of nothing but indentation. -/
def isBlankLine (line : List Char) : Bool := line.all isIndent

/-- Lines put together with line feeds between them. -/
def joinLines : List (List Char) → List Char
  | [] => []
  | [line] => line
  | line :: later => line ++ '\n' :: joinLines later

/-- The meaning of a block string: without the indentation that all
lines but the first share, and without blank lines at its ends. -/
def dedent (raw : List Char) : List Char :=
  match lines raw with
  | [] => []
  | first :: later =>
    let width := (least? (later.map indentation?)).getD 0
    let all := first :: later.map (·.drop width)
    let front := all.dropWhile isBlankLine
    joinLines (front.reverse.dropWhile isBlankLine).reverse

/-! ### Tokens -/

/-- Characters that mean nothing between tokens. -/
def isIgnored (c : Char) : Bool :=
  c == ' ' || c == '\t' || c == '\n' || c == '\r' || c == ',' || c.toNat == 0xFEFF

/-- The punctuation mark at the start of a text. -/
def mark? : List Char → Option (Mark × List Char)
  | '!' :: cs => some (.bang, cs)
  | '$' :: cs => some (.dollar, cs)
  | '&' :: cs => some (.amp, cs)
  | '(' :: cs => some (.lparen, cs)
  | ')' :: cs => some (.rparen, cs)
  | '.' :: '.' :: '.' :: cs => some (.spread, cs)
  | ':' :: cs => some (.colon, cs)
  | '=' :: cs => some (.equals, cs)
  | '@' :: cs => some (.at, cs)
  | '[' :: cs => some (.lbracket, cs)
  | ']' :: cs => some (.rbracket, cs)
  | '{' :: cs => some (.lbrace, cs)
  | '}' :: cs => some (.rbrace, cs)
  | '|' :: cs => some (.bar, cs)
  | _ => none

/-- The token at the start of a text. -/
def token? : List Char → Option (TokenKind × List Char)
  | '"' :: '"' :: '"' :: cs => do
    let (raw, rest) ← blockQuoted? cs
    return (.string (String.ofList (dedent raw)), rest)
  | '"' :: cs => do
    let (content, rest) ← quoted? (cs.length + 1) cs
    return (.string (String.ofList content), rest)
  | [] => none
  | c :: cs =>
    if isNameStart c then
      let part := cs.takeWhile isNamePart
      some (.name (String.ofList (c :: part)), cs.drop part.length)
    else if c.isDigit || c == '-' then number? (c :: cs)
    else do
      let (m, rest) ← mark? (c :: cs)
      return (.mark m, rest)

/-- The tokens of a text that starts at a byte offset. -/
def tokensFrom? : Nat → Nat → List Char → Option (List Token)
  | 0, _, _ => none
  | _ + 1, _, [] => some []
  | fuel + 1, offset, c :: cs =>
    if isIgnored c then tokensFrom? fuel (offset + c.utf8Size) cs
    else if c = '#' then
      let comment := (c :: cs).takeWhile fun d => d != '\n' && d != '\r'
      tokensFrom? fuel (offset + byteLength comment) ((c :: cs).drop comment.length)
    else do
      let (kind, rest) ← token? (c :: cs)
      let width := byteLength (c :: cs) - byteLength rest
      let later ← tokensFrom? fuel (offset + width) rest
      return ⟨kind, offset⟩ :: later

/-- The tokens of a text. -/
def tokens? (text : List Char) : Option (List Token) :=
  tokensFrom? (text.length + 1) 0 text

end GraphMigrate.Document
