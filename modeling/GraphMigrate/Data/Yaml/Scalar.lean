/-
Scalars of YAML.

A scalar is written plainly, in quotes, or as a block of lines.  Plain
and quoted scalars may run over several lines, which are folded: a single
line end stands for a blank, and empty lines stand for line ends.

* `plainRun`: the part of a line that a plain scalar takes up;
* `singleQuoted?`, `doubleQuoted?`: scalars in quotes;
* `BlockHeader`, `blockText`: scalars as blocks of lines;
* `isNull`: the plain scalars that stand for nothing.
-/
import GraphMigrate.Data.Json
import GraphMigrate.Text.Blank

namespace GraphMigrate.Yaml

/-- Space, tab and line end, which separate tokens. -/
def isSeparator (c : Char) : Bool := c == ' ' || c == '\t' || c == '\n'

/-- Whether a text starts with a separator or is empty. -/
def startsSeparated (cs : List Char) : Bool := cs.head?.all isSeparator

/-- Marks of flow collections. -/
def isFlowMark (c : Char) : Bool :=
  c == ',' || c == '[' || c == ']' || c == '{' || c == '}'

/-- Marks that start no plain scalar. -/
def isIndicator (c : Char) : Bool :=
  isFlowMark c || "#&*!|>'\"%@".toList.contains c || c.toNat == 0x60

/-- Whether a colon in front of a text ends a key. -/
def endsKey (inFlow : Bool) (cs : List Char) : Bool :=
  startsSeparated cs || (inFlow && cs.head?.any isFlowMark)

/-- The part of a line that a plain scalar takes up, blanks behind it
included. -/
def plainRun (inFlow afterBlank : Bool) : List Char → List Char
  | [] => []
  | c :: cs =>
    if c = '\n' || (c = ':' && endsKey inFlow cs) || (c = '#' && afterBlank)
        || (inFlow && isFlowMark c) then []
    else c :: plainRun inFlow (isInlineBlank c) cs

/-- A text without the blanks behind it. -/
def dropEndBlanks (cs : List Char) : List Char := (cs.reverse.dropWhile isInlineBlank).reverse

/-- A text without the blanks in front of it. -/
def dropBlanks (cs : List Char) : List Char := cs.dropWhile isInlineBlank

/-- Whether a plain scalar may start here. -/
def startsPlain (inFlow : Bool) : List Char → Bool
  | [] => false
  | c :: cs =>
    if c = '-' || c = '?' || c = ':' then
      !(startsSeparated cs) && !(inFlow && cs.head?.any isFlowMark)
    else
      !isIndicator c && !isSeparator c

/-- The part of a line that a plain scalar takes up. -/
def plainLine (inFlow : Bool) (cs : List Char) : List Char :=
  dropEndBlanks (plainRun inFlow false cs)

/-- The plain scalars that stand for nothing. -/
def isNull (text : String) : Bool := ["", "~", "null", "Null", "NULL"].contains text

/-! ### Folding -/

/-- The line ends at the start of a text, blanks between them included,
and the text behind the blanks that follow. -/
def lineEnds (cs : List Char) : Nat × List Char :=
  go 0 cs cs.length
where
  go (count : Nat) (cs : List Char) : Nat → Nat × List Char
    | 0 => (count, cs)
    | bound + 1 =>
      match dropBlanks cs with
      | '\n' :: rest => go (count + 1) rest bound
      | rest => if count = 0 then (0, cs) else (count, rest)

/-- What line ends in a folded scalar stand for. -/
def folded (count : Nat) : List Char :=
  if count = 1 then [' '] else List.replicate (count - 1) '\n'

/-! ### Quoted scalars -/

/-- The content of a scalar in single quotes, from behind the opening
one; the content so far stands in reverse. -/
def singleQuoted? : Nat → List Char → List Char → Option (List Char × List Char)
  | 0, _, _ => none
  | _ + 1, _, [] => none
  | bound + 1, done, c :: cs =>
    if c = '\'' then
      match cs with
      | '\'' :: rest => singleQuoted? bound ('\'' :: done) rest
      | _ => some (done.reverse, cs)
    else if c = '\n' then
      let (count, rest) := lineEnds (c :: cs)
      singleQuoted? bound (folded count ++ done.dropWhile isInlineBlank) rest
    else singleQuoted? bound (c :: done) cs

/-- The number that hexadecimal digits stand for. -/
def hexNumber? (ds : List Char) : Option Nat :=
  ds.foldl (fun n d => do return (← n) * 16 + (← Json.hexValue? d)) (some 0)

/-- A character by its number, written with a number of digits. -/
def numbered? (width : Nat) (cs : List Char) : Option (Char × List Char) := do
  let n ← hexNumber? (cs.take width)
  if cs.length < width || (0xD800 ≤ n && n ≤ 0xDFFF) || 0x10FFFF < n then none
  else some (Char.ofNat n, cs.drop width)

/-- The character that an escape stands for, from behind its backslash. -/
def escaped? : List Char → Option (Char × List Char)
  | '0' :: cs => some (Char.ofNat 0, cs)
  | 'a' :: cs => some (Char.ofNat 7, cs)
  | 'b' :: cs => some (Char.ofNat 8, cs)
  | 't' :: cs | '\t' :: cs => some ('\t', cs)
  | 'n' :: cs => some ('\n', cs)
  | 'v' :: cs => some (Char.ofNat 11, cs)
  | 'f' :: cs => some (Char.ofNat 12, cs)
  | 'r' :: cs => some ('\r', cs)
  | 'e' :: cs => some (Char.ofNat 27, cs)
  | ' ' :: cs => some (' ', cs)
  | '"' :: cs => some ('"', cs)
  | '/' :: cs => some ('/', cs)
  | '\\' :: cs => some ('\\', cs)
  | 'N' :: cs => some (Char.ofNat 0x85, cs)
  | '_' :: cs => some (Char.ofNat 0xA0, cs)
  | 'L' :: cs => some (Char.ofNat 0x2028, cs)
  | 'P' :: cs => some (Char.ofNat 0x2029, cs)
  | 'x' :: cs => numbered? 2 cs
  | 'u' :: cs => numbered? 4 cs
  | 'U' :: cs => numbered? 8 cs
  | _ => none

/-- The content of a scalar in double quotes, from behind the opening
one; the content so far stands in reverse.  A backslash at the end of a
line joins it to the next one. -/
def doubleQuoted? : Nat → List Char → List Char → Option (List Char × List Char)
  | 0, _, _ => none
  | _ + 1, _, [] => none
  | bound + 1, done, c :: cs =>
    if c = '"' then some (done.reverse, cs)
    else if c = '\\' then
      match cs with
      | '\n' :: _ =>
        let (count, rest) := lineEnds cs
        doubleQuoted? bound (List.replicate (count - 1) '\n' ++ done) rest
      | _ => do
        let (e, rest) ← escaped? cs
        doubleQuoted? bound (e :: done) rest
    else if c = '\n' then
      let (count, rest) := lineEnds (c :: cs)
      doubleQuoted? bound (folded count ++ done.dropWhile isInlineBlank) rest
    else doubleQuoted? bound (c :: done) cs

/-- A scalar in quotes. -/
def quoted? : List Char → Option (List Char × List Char)
  | '"' :: cs => doubleQuoted? (cs.length + 1) [] cs
  | '\'' :: cs => singleQuoted? (cs.length + 1) [] cs
  | _ => none

/-! ### Blocks of lines -/

/-- What becomes of the line ends behind a block. -/
inductive Chomping where
  | strip
  | clip
  | keep
  deriving DecidableEq, Repr

/-- What stands behind the mark of a block. -/
structure BlockHeader where
  isFolded : Bool
  chomping : Chomping := .clip
  indentation : Option Nat := none
  deriving Repr

/-- The header of a block from its mark on, and the text behind it on the
same line. -/
def blockHeader? : List Char → Option (BlockHeader × List Char)
  | '|' :: cs => some (options { isFolded := false } cs 2)
  | '>' :: cs => some (options { isFolded := true } cs 2)
  | _ => none
where
  options (header : BlockHeader) (cs : List Char) : Nat → BlockHeader × List Char
    | 0 => (header, cs)
    | bound + 1 =>
      match cs with
      | '-' :: rest => options { header with chomping := .strip } rest bound
      | '+' :: rest => options { header with chomping := .keep } rest bound
      | d :: rest =>
        if d.isDigit && d != '0' then
          options { header with indentation := some (d.toNat - 48) } rest bound
        else (header, cs)
      | [] => (header, cs)

/-- A line of a block, `none` for one of blanks alone. -/
abbrev BlockLine := Option (List Char)

/-- The lines of a folded block, put together.  Lines that are indented
further keep the line ends around them. -/
def foldLines : List BlockLine → List Char
  | [] => []
  | lines => go true 0 lines
where
  go (afterIndented : Bool) (ends : Nat) : List BlockLine → List Char
    | [] => []
    | none :: later => go afterIndented (ends + 1) later
    | some line :: later =>
      let isIndented := line.head?.any isInlineBlank
      let gap :=
        if afterIndented || isIndented then List.replicate ends '\n'
        else if ends = 0 then []
        else folded ends
      gap ++ line ++ go isIndented 1 later

/-- The lines of a literal block, put together. -/
def joinLines : List BlockLine → List Char
  | [] => []
  | [line] => line.getD []
  | line :: later => line.getD [] ++ '\n' :: joinLines later

/-- The content of a block with lines. -/
def blockText (header : BlockHeader) (lines : List BlockLine) : String :=
  let body := (lines.reverse.dropWhile Option.isNone).reverse
  let extra := lines.length - body.length
  let text := if header.isFolded then foldLines body else joinLines body
  let final : List Char :=
    match header.chomping with
    | .strip => []
    | .clip => if body.isEmpty then [] else ['\n']
    | .keep => List.replicate (if body.isEmpty then extra else extra + 1) '\n'
  String.ofList (text ++ final)

end GraphMigrate.Yaml
