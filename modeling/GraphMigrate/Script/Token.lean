/-
Tokens of scripts.

Tokens are read one at a time, on demand, because what the characters
after a token mean depends on the grammar: a slash may divide or start
a regular expression, and the text inside markup is no token at all.
A `Cursor` is the rest of the text together with its byte offset; every
token carries the cursor behind it.

* `Cursor.skipGap`: white space and comments between tokens;
* `Token.next`: the next token.  A `>` is always read alone, since it
  may close a list of type arguments; `Cursor.angles?` reads the longer
  operators that start with it;
* `TemplatePart`, `templatePart`: the characters of a template up to an
  interpolation or its end;
* `regexEnd?`: the end of a regular expression.
-/
import GraphMigrate.Text.Letters
import GraphMigrate.Text.Span

namespace GraphMigrate.Script

/-- The rest of a text and the byte offset at which it begins. -/
structure Cursor where
  offset : Nat
  chars : List Char
  deriving Repr, Inhabited

namespace Cursor

/-- Moves over the first `count` characters. -/
def drop (cursor : Cursor) : Nat → Cursor
  | 0 => cursor
  | count + 1 =>
    match cursor.chars with
    | [] => cursor
    | c :: cs => drop ⟨cursor.offset + c.utf8Size, cs⟩ count

/-- Moves over the characters of a class and gives those passed. -/
def takeWhile (p : Char → Bool) (offset : Nat) : List Char → List Char × Cursor
  | [] => ([], ⟨offset, []⟩)
  | c :: cs =>
    if p c then
      let (taken, rest) := takeWhile p (offset + c.utf8Size) cs
      (c :: taken, rest)
    else
      ([], ⟨offset, c :: cs⟩)

/-- Moves over the characters of a class. -/
def skipWhile (p : Char → Bool) (cursor : Cursor) : Cursor :=
  (takeWhile p cursor.offset cursor.chars).2

end Cursor

/-- Characters that end a line. -/
def isLineEnd (c : Char) : Bool :=
  c == '\n' || c == '\r' || c.toNat == 0x2028 || c.toNat == 0x2029

/-- White space inside a line. -/
def isGap (c : Char) : Bool :=
  let n := c.toNat
  n == 9 || n == 11 || n == 12 || n == 32 || n == 0xA0 || n == 0xFEFF || n == 0x1680 ||
    (0x2000 ≤ n && n ≤ 0x200A) || n == 0x202F || n == 0x205F || n == 0x3000

/-- Where a walk over white space and comments stands. -/
inductive GapMode where
  | code
  | lineComment
  | blockComment
  deriving DecidableEq, Repr

/-- Moves over white space and comments, and tells whether a line ended
on the way.  A block comment without an end reaches to the end of the
text. -/
def skipGap (broken : Bool) (offset : Nat) : GapMode → List Char → Cursor × Bool
  | _, [] => (⟨offset, []⟩, broken)
  | .code, '/' :: '/' :: cs => skipGap broken (offset + 2) .lineComment cs
  | .code, '/' :: '*' :: cs => skipGap broken (offset + 2) .blockComment cs
  | .code, c :: cs =>
    if isLineEnd c then skipGap true (offset + c.utf8Size) .code cs
    else if isGap c then skipGap broken (offset + c.utf8Size) .code cs
    else (⟨offset, c :: cs⟩, broken)
  | .lineComment, c :: cs =>
    if isLineEnd c then skipGap true (offset + c.utf8Size) .code cs
    else skipGap broken (offset + c.utf8Size) .lineComment cs
  | .blockComment, '*' :: '/' :: cs => skipGap broken (offset + 2) .code cs
  | .blockComment, c :: cs =>
    skipGap (broken || isLineEnd c) (offset + c.utf8Size) .blockComment cs

/-- Brackets, separators and operators. -/
inductive Punct where
  | lbrace | rbrace | lparen | rparen | lbracket | rbracket
  | dot | ellipsis | semicolon | comma | colon | question | questionDot
  | arrow | at | tilde | bang
  | less | lessEq | shiftLeft | greater
  | equal | assign | notEqual
  | plus | minus | star | slash | percent | power
  | increment | decrement
  | amp | bar | caret | andAnd | orOr | coalesce
  | opAssign
  deriving DecidableEq, Repr, Inhabited

namespace Punct

/-- The longest bracket, separator or operator at the start of a text
and the number of its characters. -/
def read? : List Char → Option (Punct × Nat)
  | '{' :: _ => some (.lbrace, 1)
  | '}' :: _ => some (.rbrace, 1)
  | '(' :: _ => some (.lparen, 1)
  | ')' :: _ => some (.rparen, 1)
  | '[' :: _ => some (.lbracket, 1)
  | ']' :: _ => some (.rbracket, 1)
  | '.' :: '.' :: '.' :: _ => some (.ellipsis, 3)
  | '.' :: _ => some (.dot, 1)
  | ';' :: _ => some (.semicolon, 1)
  | ',' :: _ => some (.comma, 1)
  | ':' :: _ => some (.colon, 1)
  | '?' :: '?' :: '=' :: _ => some (.opAssign, 3)
  | '?' :: '?' :: _ => some (.coalesce, 2)
  | '?' :: '.' :: c :: _ => if c.isDigit then some (.question, 1) else some (.questionDot, 2)
  | '?' :: '.' :: _ => some (.questionDot, 2)
  | '?' :: _ => some (.question, 1)
  | '=' :: '>' :: _ => some (.arrow, 2)
  | '=' :: '=' :: '=' :: _ => some (.equal, 3)
  | '=' :: '=' :: _ => some (.equal, 2)
  | '=' :: _ => some (.assign, 1)
  | '@' :: _ => some (.at, 1)
  | '~' :: _ => some (.tilde, 1)
  | '!' :: '=' :: '=' :: _ => some (.notEqual, 3)
  | '!' :: '=' :: _ => some (.notEqual, 2)
  | '!' :: _ => some (.bang, 1)
  | '<' :: '<' :: '=' :: _ => some (.opAssign, 3)
  | '<' :: '<' :: _ => some (.shiftLeft, 2)
  | '<' :: '=' :: _ => some (.lessEq, 2)
  | '<' :: _ => some (.less, 1)
  | '>' :: _ => some (.greater, 1)
  | '+' :: '+' :: _ => some (.increment, 2)
  | '+' :: '=' :: _ => some (.opAssign, 2)
  | '+' :: _ => some (.plus, 1)
  | '-' :: '-' :: _ => some (.decrement, 2)
  | '-' :: '=' :: _ => some (.opAssign, 2)
  | '-' :: _ => some (.minus, 1)
  | '*' :: '*' :: '=' :: _ => some (.opAssign, 3)
  | '*' :: '*' :: _ => some (.power, 2)
  | '*' :: '=' :: _ => some (.opAssign, 2)
  | '*' :: _ => some (.star, 1)
  | '/' :: '=' :: _ => some (.opAssign, 2)
  | '/' :: _ => some (.slash, 1)
  | '%' :: '=' :: _ => some (.opAssign, 2)
  | '%' :: _ => some (.percent, 1)
  | '&' :: '&' :: '=' :: _ => some (.opAssign, 3)
  | '&' :: '&' :: _ => some (.andAnd, 2)
  | '&' :: '=' :: _ => some (.opAssign, 2)
  | '&' :: _ => some (.amp, 1)
  | '|' :: '|' :: '=' :: _ => some (.opAssign, 3)
  | '|' :: '|' :: _ => some (.orOr, 2)
  | '|' :: '=' :: _ => some (.opAssign, 2)
  | '|' :: _ => some (.bar, 1)
  | '^' :: '=' :: _ => some (.opAssign, 2)
  | '^' :: _ => some (.caret, 1)
  | _ => none

end Punct

/-- What the operators that start with `>` do. -/
inductive Angles where
  | compare
  | shift
  | assign
  deriving DecidableEq, Repr

/-- The kinds of tokens. -/
inductive TokenKind where
  /-- A name or keyword, its escapes resolved. -/
  | word (text : String) (escaped : Bool)
  /-- A name with a hash sign in front. -/
  | hashName
  /-- A hash sign that no name follows. -/
  | hash
  | punct (p : Punct)
  | quoted
  | numeral
  | backtick
  /-- A character that starts no token, or a malformed token; the offset
  is where the fault lies. -/
  | fault (offset : Nat)
  | finish
  deriving DecidableEq, Repr, Inhabited

/-- A token, the bytes it takes up, whether a line ended before it, and
the text behind it. -/
structure Token where
  kind : TokenKind
  span : Span
  broken : Bool
  start : Cursor
  after : Cursor
  deriving Repr, Inhabited

/-- Characters that start a name. -/
def isWordStart (c : Char) : Bool := Letters.isNameStart c || c == '$' || c == '_'

/-- Characters that continue a name. -/
def isWordPart (c : Char) : Bool :=
  Letters.isNamePart c || c == '$' || c.toNat == 0x200C || c.toNat == 0x200D

/-- The value of a hexadecimal digit. -/
def hexValue? (c : Char) : Option Nat :=
  let n := c.toNat
  if 48 ≤ n ∧ n ≤ 57 then some (n - 48)
  else if 65 ≤ n ∧ n ≤ 70 then some (n - 55)
  else if 97 ≤ n ∧ n ≤ 102 then some (n - 87)
  else none

/-- The number that hexadecimal digits stand for. -/
def hexNumber? (digits : List Char) : Option Nat :=
  if digits.isEmpty then none
  else digits.foldl (fun n c => do return (← n) * 16 + (← hexValue? c)) (some 0)

/-- An escape in a name, after its backslash: the character meant and
the number of characters that the escape takes up. -/
def nameEscape? : List Char → Option (Char × Nat)
  | 'u' :: '{' :: cs =>
    let digits := cs.takeWhile (· != '}')
    if (cs.drop digits.length).isEmpty then none
    else (hexNumber? digits).map fun n => (Char.ofNat n, digits.length + 3)
  | 'u' :: a :: b :: c :: d :: _ =>
    (hexNumber? [a, b, c, d]).map fun n => (Char.ofNat n, 5)
  | _ => none

/-- Reads a name from its start, its escapes resolved. -/
def readName : Nat → Cursor → List Char × Bool × Cursor
  | 0, cursor => ([], false, cursor)
  | fuel + 1, cursor =>
    let (taken, rest) := Cursor.takeWhile isWordPart cursor.offset cursor.chars
    match rest.chars with
    | '\\' :: cs =>
      match nameEscape? cs with
      | some (c, width) =>
        let (later, _, final) := readName fuel (rest.drop (width + 1))
        (taken ++ c :: later, true, final)
      | none => (taken, false, rest)
    | _ => (taken, false, rest)

/-- Whether an escape in a string is malformed, from behind its
backslash: a character by its number needs two or four hexadecimal
digits, or any in braces up to the greatest number there is. -/
def isBadEscape : List Char → Bool
  | 'x' :: a :: b :: _ => (hexNumber? [a, b]).isNone
  | 'x' :: _ => true
  | 'u' :: '{' :: cs =>
    let digits := cs.takeWhile (· != '}')
    (cs.drop digits.length).isEmpty || !(hexNumber? digits).any (· ≤ 0x10FFFF)
  | 'u' :: a :: b :: c :: d :: _ => (hexNumber? [a, b, c, d]).isNone
  | 'u' :: _ => true
  | _ => false

/-- Reads a string from behind its opening quote to behind its closing
one.  A string that is not closed ends with its line. -/
def readQuoted (quote : Char) (offset : Nat) : List Char → TokenKind × Cursor
  | [] => (.quoted, ⟨offset, []⟩)
  | '\\' :: '\r' :: '\n' :: cs => readQuoted quote (offset + 3) cs
  | '\\' :: c :: cs =>
    if isBadEscape (c :: cs) then (.fault offset, ⟨offset, '\\' :: c :: cs⟩)
    else readQuoted quote (offset + 1 + c.utf8Size) cs
  | c :: cs =>
    if c = quote then (.quoted, ⟨offset + 1, cs⟩)
    else if c = '\n' ∨ c = '\r' then (.quoted, ⟨offset, c :: cs⟩)
    else readQuoted quote (offset + c.utf8Size) cs

/-- Digits to a base, and the separators between them. -/
def isDigitOf (base : Nat) (c : Char) : Bool := c == '_' || (hexValue? c).any (· < base)

/-- Moves over digits, of which there has to be one. -/
def skipDigits? (base : Nat) (cursor : Cursor) : Except Nat Cursor :=
  let rest := cursor.skipWhile (isDigitOf base)
  if (cursor.chars.takeWhile (isDigitOf base)).all (· == '_') then .error cursor.offset
  else .ok rest

/-- Moves over an exponent, if there is one. -/
def skipExponent (cursor : Cursor) : Except Nat Cursor :=
  match cursor.chars with
  | e :: cs =>
    if e = 'e' ∨ e = 'E' then
      match cs with
      | sign :: _ =>
        skipDigits? 10 (if sign = '+' ∨ sign = '-' then cursor.drop 2 else cursor.drop 1)
      | [] => .error (cursor.offset + 1)
    else .ok cursor
  | [] => .ok cursor

/-- Moves over a fraction and an exponent, if there are any. -/
def skipFraction (cursor : Cursor) : Except Nat Cursor :=
  match cursor.chars with
  | '.' :: _ => skipExponent ((cursor.drop 1).skipWhile (isDigitOf 10))
  | _ => skipExponent cursor

/-- Moves over the letter that marks a big integer, if it is there. -/
def skipBigMark (cursor : Cursor) : Cursor :=
  match cursor.chars with
  | 'n' :: _ => cursor.drop 1
  | _ => cursor

/-- The base that the second character of a number stands for. -/
def base? : Char → Option Nat
  | 'x' | 'X' => some 16
  | 'o' | 'O' => some 8
  | 'b' | 'B' => some 2
  | _ => none

/-- Moves over a number. -/
def skipNumeral (cursor : Cursor) : Except Nat Cursor :=
  match cursor.chars with
  | '0' :: mark :: _ =>
    match base? mark with
    | some base => skipBigMark <$> skipDigits? base (cursor.drop 2)
    | none => decimal
  | _ => decimal
where
  decimal : Except Nat Cursor :=
    let whole := cursor.skipWhile (isDigitOf 10)
    match whole.chars with
    | 'n' :: _ => .ok (whole.drop 1)
    | _ => skipFraction whole

/-- Reads a number, which no name may follow at once. -/
def readNumeral (cursor : Cursor) : TokenKind × Cursor :=
  match skipNumeral cursor with
  | .error offset => (.fault offset, cursor)
  | .ok rest =>
    if rest.chars.head?.any isWordStart then (.fault rest.offset, rest) else (.numeral, rest)

namespace Token

/-- Reads the token at a cursor that stands on no white space. -/
def read (cursor : Cursor) : TokenKind × Cursor :=
  match cursor.chars with
  | [] => (.finish, cursor)
  | c :: cs =>
    if isWordStart c || (c == '\\' && (nameEscape? cs).isSome) then
      let (text, escaped, rest) := readName (cs.length + 2) cursor
      (.word (String.ofList text) escaped, rest)
    else if c.isDigit || (c == '.' && (cs.head?.any Char.isDigit)) then
      readNumeral cursor
    else if c == '"' || c == '\'' then
      readQuoted c (cursor.offset + 1) cs
    else if c == '`' then
      (.backtick, cursor.drop 1)
    else if c == '#' then
      match cs with
      | d :: _ =>
        if isWordStart d then
          let (_, _, rest) := readName (cs.length + 2) (cursor.drop 1)
          (.hashName, rest)
        else
          (.hash, cursor.drop 1)
      | [] => (.hash, cursor.drop 1)
    else
      match Punct.read? cursor.chars with
      | some (p, width) => (.punct p, cursor.drop width)
      | none => (.fault cursor.offset, cursor.drop 1)

/-- The next token at or behind a cursor. -/
def next (cursor : Cursor) : Token :=
  let (start, broken) := skipGap false cursor.offset .code cursor.chars
  let (kind, after) := read start
  ⟨kind, ⟨start.offset, after.offset⟩, broken, start, after⟩

end Token

/-- The operator that starts with the `>` at a cursor, and its width. -/
def Cursor.angles (cursor : Cursor) : Angles × Nat :=
  match cursor.chars with
  | '>' :: '>' :: '>' :: '=' :: _ => (.assign, 4)
  | '>' :: '>' :: '>' :: _ => (.shift, 3)
  | '>' :: '>' :: '=' :: _ => (.assign, 3)
  | '>' :: '>' :: _ => (.shift, 2)
  | '>' :: '=' :: _ => (.compare, 2)
  | _ => (.compare, 1)

/-- How a segment of a template ends. -/
inductive TemplateEnd where
  | closed
  | interpolated
  | unfinished
  deriving DecidableEq, Repr

/-- Moves over a segment of a template.  The first cursor stands where
the segment ends, the second behind the mark that ended it. -/
def templateSegment (offset : Nat) : List Char → Cursor × TemplateEnd × Cursor
  | [] => (⟨offset, []⟩, .unfinished, ⟨offset, []⟩)
  | '\\' :: c :: cs => templateSegment (offset + 1 + c.utf8Size) cs
  | '`' :: cs => (⟨offset, '`' :: cs⟩, .closed, ⟨offset + 1, cs⟩)
  | '$' :: '{' :: cs => (⟨offset, '$' :: '{' :: cs⟩, .interpolated, ⟨offset + 2, cs⟩)
  | c :: cs => templateSegment (offset + c.utf8Size) cs

/-- Moves over a regular expression from behind its first slash to
behind its flags; inside brackets a slash does not end it.  There is no
end on the same line for one that is not closed. -/
def regexEnd? (bracketed : Bool) (offset : Nat) : List Char → Option Cursor
  | [] => none
  | '\\' :: c :: cs =>
    if isLineEnd c then none else regexEnd? bracketed (offset + 1 + c.utf8Size) cs
  | c :: cs =>
    if isLineEnd c then none
    else if c = '/' ∧ !bracketed then some (Cursor.skipWhile isWordPart ⟨offset + 1, cs⟩)
    else if c = '[' then regexEnd? true (offset + 1) cs
    else if c = ']' then regexEnd? false (offset + 1) cs
    else regexEnd? bracketed (offset + c.utf8Size) cs

/-- The text behind a `#!` line at the very start. -/
def skipInterpreterLine (cursor : Cursor) : Cursor :=
  match cursor.chars with
  | '#' :: '!' :: _ => cursor.skipWhile fun c => !isLineEnd c
  | _ => cursor

end GraphMigrate.Script
