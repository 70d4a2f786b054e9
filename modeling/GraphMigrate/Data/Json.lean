/-
Plain data as JSON.

* `Json.read?`: the value of a text, which holds nothing else;
* `Json.written`: the text of a value, without white space.
-/
import GraphMigrate.Data.Basic

namespace GraphMigrate.Json

/-- A reader of characters: the value and the rest of the text. -/
abbrev Read (α : Type) := List Char → Option (α × List Char)

/-- White space between tokens. -/
def isGap (c : Char) : Bool := c == ' ' || c == '\t' || c == '\n' || c == '\r'

/-- A text without the white space in front. -/
def skipGap (cs : List Char) : List Char := cs.dropWhile isGap

/-! ### Strings -/

/-- The value of a hexadecimal digit. -/
def hexValue? (c : Char) : Option Nat :=
  let n := c.toNat
  if 48 ≤ n ∧ n ≤ 57 then some (n - 48)
  else if 65 ≤ n ∧ n ≤ 70 then some (n - 55)
  else if 97 ≤ n ∧ n ≤ 102 then some (n - 87)
  else none

/-- The number that four hexadecimal digits stand for. -/
def unit? (a b c d : Char) : Option Nat := do
  return (← hexValue? a) * 4096 + (← hexValue? b) * 256 + (← hexValue? c) * 16 + (← hexValue? d)

/-- A character by its number, which may be written as two halves. -/
def numbered? : List Char → Option (Char × List Char)
  | a :: b :: c :: d :: cs => do
    let n ← unit? a b c d
    if 0xD800 ≤ n ∧ n ≤ 0xDBFF then
      match cs with
      | '\\' :: 'u' :: e :: f :: g :: h :: rest =>
        let m ← unit? e f g h
        if 0xDC00 ≤ m ∧ m ≤ 0xDFFF then
          some (Char.ofNat (0x10000 + (n - 0xD800) * 0x400 + (m - 0xDC00)), rest)
        else none
      | _ => none
    else if 0xDC00 ≤ n ∧ n ≤ 0xDFFF then none
    else some (Char.ofNat n, cs)
  | _ => none

/-- The character that an escape stands for, from behind its backslash. -/
def escaped? : List Char → Option (Char × List Char)
  | '"' :: cs => some ('"', cs)
  | '\\' :: cs => some ('\\', cs)
  | '/' :: cs => some ('/', cs)
  | 'b' :: cs => some (Char.ofNat 8, cs)
  | 'f' :: cs => some (Char.ofNat 12, cs)
  | 'n' :: cs => some ('\n', cs)
  | 'r' :: cs => some ('\r', cs)
  | 't' :: cs => some ('\t', cs)
  | 'u' :: cs => numbered? cs
  | _ => none

/-- The content of a string from behind its opening quote, of at most
`bound` characters. -/
def quoted? : Nat → Read (List Char)
  | 0, _ => none
  | _ + 1, [] => none
  | bound + 1, c :: cs =>
    if c = '"' then some ([], cs)
    else if c = '\\' then do
      let (e, rest) ← escaped? cs
      let (content, rest) ← quoted? bound rest
      return (e :: content, rest)
    else if c.toNat < 32 then none
    else do
      let (content, rest) ← quoted? bound cs
      return (c :: content, rest)

/-- A string from behind its opening quote. -/
def string? (cs : List Char) : Option (String × List Char) := do
  let (content, rest) ← quoted? (cs.length + 1) cs
  return (String.ofList content, rest)

/-! ### Numbers -/

/-- Digits at the start of a text, at least one. -/
def digits? (cs : List Char) : Option (List Char × List Char) :=
  match cs.takeWhile Char.isDigit with
  | [] => none
  | ds => some (ds, cs.drop ds.length)

/-- The whole part of a number, which has no needless zeros. -/
def wholePart? (cs : List Char) : Option (List Char × List Char) :=
  match cs with
  | '0' :: rest => if rest.head?.any Char.isDigit then none else some (['0'], rest)
  | _ => digits? cs

/-- The fraction of a number, if there is one. -/
def fraction? : Read (List Char)
  | '.' :: cs => do
    let (ds, rest) ← digits? cs
    return ('.' :: ds, rest)
  | cs => some ([], cs)

/-- The exponent of a number, if there is one. -/
def exponent? : Read (List Char)
  | 'e' :: '+' :: cs | 'E' :: '+' :: cs => do
    let (ds, rest) ← digits? cs
    return ('e' :: '+' :: ds, rest)
  | 'e' :: '-' :: cs | 'E' :: '-' :: cs => do
    let (ds, rest) ← digits? cs
    return ('e' :: '-' :: ds, rest)
  | 'e' :: cs | 'E' :: cs => do
    let (ds, rest) ← digits? cs
    return ('e' :: ds, rest)
  | cs => some ([], cs)

/-- A number. -/
def number? (cs : List Char) : Option (Data × List Char) := do
  let (sign, cs) : List Char × List Char :=
    match cs with
    | '-' :: rest => (['-'], rest)
    | _ => ([], cs)
  let (whole, rest) ← wholePart? cs
  let (fraction, rest) ← fraction? rest
  let (exponent, rest) ← exponent? rest
  return (.number (String.ofList (sign ++ whole ++ fraction ++ exponent)), rest)

/-! ### Values -/

/-- A text without a word in front. -/
def dropWord? (word : String) (cs : List Char) : Option (List Char) :=
  if word.toList.isPrefixOf cs then some (cs.drop word.length) else none

/-- Items separated by commas from the first item on, up to a closing
mark; at most `bound` of them. -/
def items? {α : Type} (close : Char) (item? : Read α) : Nat → Read (List α)
  | 0, _ => none
  | bound + 1, cs => do
    let (a, rest) ← item? (skipGap cs)
    match skipGap rest with
    | ',' :: more =>
      let (later, final) ← items? close item? bound more
      return (a :: later, final)
    | c :: more => if c = close then some ([a], more) else none
    | [] => none

/-- Items separated by commas, up to a closing mark. -/
def bracketed? {α : Type} (close : Char) (item? : Read α) (cs : List Char) :
    Option (List α × List Char) :=
  match skipGap cs with
  | c :: rest => if c = close then some ([], rest) else items? close item? (cs.length + 1) cs
  | [] => none

/-- A member of an object, given how values are read. -/
def member? (value? : Read Data) : Read (String × Data)
  | '"' :: cs => do
    let (key, rest) ← string? cs
    match skipGap rest with
    | ':' :: more =>
      let (value, final) ← value? (skipGap more)
      return ((key, value), final)
    | _ => none
  | _ => none

/-- A value nested at most to a depth. -/
def value? : Nat → Read Data
  | 0, _ => none
  | _ + 1, [] => none
  | depth + 1, c :: cs =>
    if c = '"' then do
      let (content, rest) ← string? cs
      return (.string content, rest)
    else if c = '[' then do
      let (found, rest) ← bracketed? ']' (value? depth) cs
      return (.list found, rest)
    else if c = '{' then do
      let (found, rest) ← bracketed? '}' (member? (value? depth)) cs
      return (.object found, rest)
    else if c = 'n' then (dropWord? "null" (c :: cs)).map fun rest => (.null, rest)
    else if c = 't' then (dropWord? "true" (c :: cs)).map fun rest => (.bool true, rest)
    else if c = 'f' then (dropWord? "false" (c :: cs)).map fun rest => (.bool false, rest)
    else number? (c :: cs)

/-- How deep values may be nested. -/
def depthLimit : Nat := 128

/-- The value of a text. -/
def read? (text : List Char) : Option Data := do
  let (found, rest) ← value? depthLimit (skipGap text)
  if (skipGap rest).isEmpty then some found else none

/-! ### Writing -/

/-- A hexadecimal digit. -/
def hexDigit (n : Nat) : Char :=
  if n < 10 then Char.ofNat (48 + n) else Char.ofNat (87 + n)

/-- The written form of a character inside of quotes. -/
def escape (c : Char) : List Char :=
  if c = '"' then ['\\', '"']
  else if c = '\\' then ['\\', '\\']
  else if c = '\n' then ['\\', 'n']
  else if c = '\r' then ['\\', 'r']
  else if c = '\t' then ['\\', 't']
  else if c.toNat = 8 then ['\\', 'b']
  else if c.toNat = 12 then ['\\', 'f']
  else if c.toNat < 32 then
    ['\\', 'u', '0', '0', hexDigit (c.toNat / 16), hexDigit (c.toNat % 16)]
  else [c]

/-- A string in quotes. -/
def quote (content : String) : String :=
  String.ofList ('"' :: content.toList.flatMap escape ++ ['"'])

mutual

/-- The text of a value. -/
def written : Data → String
  | .null => "null"
  | .bool value => if value then "true" else "false"
  | .number text => text
  | .string content => quote content
  | .list items => "[" ++ String.intercalate "," (writtenItems items) ++ "]"
  | .object members => "\x7b" ++ String.intercalate "," (writtenMembers members) ++ "\x7d"

/-- The texts of the items of a list. -/
def writtenItems : List Data → List String
  | [] => []
  | item :: items => written item :: writtenItems items

/-- The texts of the members of an object. -/
def writtenMembers : List (String × Data) → List String
  | [] => []
  | member :: members => writtenMember member :: writtenMembers members

/-- The text of a member. -/
def writtenMember : String × Data → String
  | (key, value) => quote key ++ ":" ++ written value

end

end GraphMigrate.Json
