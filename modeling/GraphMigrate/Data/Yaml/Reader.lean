/-
Plain data as YAML.

Block collections are told apart by the columns at which their entries
start; flow collections are written in brackets and braces.  A node may
be given a name by an anchor and be repeated by an alias.

* `Read`: readers of characters that know their column;
* `key?`: a key with its colon, by which a block mapping is recognised;
* `flowNode`, `blockNode`: nodes of the two kinds of collections;
* `read?`: the value of a text, which holds a single document.
-/
import GraphMigrate.Data.Yaml.Scalar

namespace GraphMigrate.Yaml

/-- The rest of a text, the column at which it starts, and the nodes that
have names. -/
structure State where
  rest : List Char
  column : Nat := 0
  anchors : List (String × Data) := []
  deriving Inhabited

/-- A reader of characters, which may fail. -/
abbrev Read := StateT State Option

namespace Read

/-- Fails. -/
def fail {α : Type} : Read α := fun _ => none

/-- The rest of the text. -/
def rest : Read (List Char) := do return (← get).rest

/-- The column of the next character. -/
def column : Read Nat := do return (← get).column

/-- The column behind characters that start at a column. -/
def columnBehind (column : Nat) : List Char → Nat
  | [] => column
  | c :: cs => columnBehind (if c = '\n' then 0 else column + 1) cs

/-- Uses characters. -/
def advance (count : Nat) : Read Unit :=
  modify fun s => { s with
    rest := s.rest.drop count
    column := columnBehind s.column (s.rest.take count) }

/-- Uses characters up to a text that is the end of the rest. -/
def advanceTo (final : List Char) : Read Unit := do
  advance ((← rest).length - final.length)

/-- Uses spaces and tabs and tells whether there were any. -/
def skipBlanks : Read Bool := do
  let count := ((← rest).takeWhile isInlineBlank).length
  advance count
  return 0 < count

/-- Uses a comment, if one starts here. -/
def skipComment : Read Unit := do
  let cs ← rest
  if cs.head? == some '#' then advance (cs.takeWhile (· != '\n')).length

/-- Uses blanks and a comment up to the end of the line, and tells
whether the line ends there. -/
def finishLine : Read Bool := do
  let atStart := (← column) == 0
  let blanks ← skipBlanks
  if blanks || atStart then skipComment
  return (← rest).head?.all (· == '\n')

/-- Requires that nothing but a comment stands in front of the line end. -/
def expectLineEnd : Read Unit := do
  unless ← finishLine do fail

/-- Uses empty lines and comments in front of the next content, which no
tab may indent. -/
def skipToContent : Read Unit := do
  go ((← rest).length + 1)
where
  go : Nat → Read Unit
    | 0 => fail
    | bound + 1 => do
      let atStart := (← column) == 0
      let tab := ((← rest).takeWhile isInlineBlank).contains '\t'
      if ← finishLine then
        if (← rest).isEmpty then return
        advance 1
        go bound
      else if atStart && tab then fail

/-- Whether a text starts with a mark that ends a document. -/
def startsMarker (cs : List Char) : Bool :=
  ("---".toList.isPrefixOf cs || "...".toList.isPrefixOf cs) && startsSeparated (cs.drop 3)

/-- Whether the document ends here. -/
def atEnd : Read Bool := do
  let s ← get
  return s.rest.isEmpty || (s.column == 0 && startsMarker s.rest)

/-- Gives a name to a node. -/
def bind (anchor : Option String) (data : Data) : Read Unit :=
  match anchor with
  | none => return
  | some name => modify fun s => { s with anchors := (name, data) :: s.anchors }

end Read

open Read

/-! ### Scalars -/

/-- The value of a plain scalar. -/
def plainData (text : String) : Data := if isNull text then .null else .string text

/-- Whether the next line goes on with a plain scalar; if so, how many
line ends come first and the text behind them. -/
def continuation? (minColumn : Nat) (inFlow : Bool) (cs : List Char) :
    Option (Nat × List Char) :=
  match lineEnds cs with
  | (0, _) => none
  | (count, next) =>
    let before := cs.take (cs.length - next.length)
    let column := columnBehind 0 before
    if column < minColumn || next.isEmpty || next.head? == some '#'
        || (column == 0 && startsMarker next) || (plainLine inFlow next).isEmpty then none
    else some (count, next)

/-- A plain scalar from here on, over at most `bound` lines. -/
def plainLines (minColumn : Nat) (inFlow : Bool) : Nat → Read (List Char)
  | 0 => fail
  | bound + 1 => do
    let line := plainLine inFlow (← rest)
    advance line.length
    match continuation? minColumn inFlow (← rest) with
    | none => return line
    | some (count, next) =>
      advanceTo next
      return line ++ folded count ++ (← plainLines minColumn inFlow bound)

/-- A plain scalar. -/
def plain (minColumn : Nat) (inFlow : Bool) : Read Data := do
  if startsPlain inFlow (← rest) then
    return plainData (String.ofList (← plainLines minColumn inFlow ((← rest).length + 1)))
  else
    fail

/-- A scalar in quotes. -/
def quotedScalar : Read Data := do
  match quoted? (← rest) with
  | none => fail
  | some (content, final) =>
    advanceTo final
    return .string (String.ofList content)

/-- A name behind the mark of an anchor or alias. -/
def markedName : Read String := do
  advance 1
  let name := (← rest).takeWhile fun c => !isSeparator c && !isFlowMark c
  advance name.length
  if name.isEmpty then fail else return String.ofList name

/-- The node that an alias repeats. -/
def repeated : Read Data := do
  let name ← markedName
  match (← get).anchors.lookup name with
  | some data => return data
  | none => fail

/-- What may stand in front of a node: a name for it, and tags, which
mean nothing here. -/
def properties : Read (Option String) := do
  go none ((← rest).length + 1)
where
  go (anchor : Option String) : Nat → Read (Option String)
    | 0 => fail
    | bound + 1 => do
      match (dropBlanks (← rest)).head? with
      | some '&' =>
        let _ ← skipBlanks
        go (some (← markedName)) bound
      | some '!' =>
        let _ ← skipBlanks
        advance ((← rest).takeWhile fun c => !isSeparator c && !isFlowMark c).length
        go anchor bound
      | _ => return anchor

/-! ### Flow collections -/

/-- Uses blanks, comments and line ends inside a flow collection, whose
lines have to be indented. -/
def skipFlowGap (minColumn : Nat) : Read Unit := do
  skipToContent
  if (← column) + 1 < minColumn then fail

/-- A pair of a mapping, as a mapping if it stands on its own. -/
def pair (key value : Data) : Read (String × Data) :=
  match key with
  | .string text => return (text, value)
  | .null => return ("null", value)
  | _ => fail

/-- Items of a flow collection up to its closing mark. -/
def flowItems {α : Type} (minColumn : Nat) (close : Char) (item : Read α) :
    Nat → Read (List α)
  | 0 => fail
  | bound + 1 => do
    skipFlowGap minColumn
    if (← rest).head? == some close then
      advance 1
      return []
    let a ← item
    skipFlowGap minColumn
    match (← rest).head? with
    | some ',' =>
      advance 1
      return a :: (← flowItems minColumn close item bound)
    | some c =>
      if c = close then
        advance 1
        return [a]
      else fail
    | none => fail

/-- Whether a colon that ends a key stands here. -/
def atFlowColon (isQuoted : Bool) : Read Bool := do
  match ← rest with
  | ':' :: cs => return isQuoted || endsKey true cs
  | _ => return false

/-- A value behind the colon of a flow pair, which may be missing. -/
def flowValue (minColumn : Nat) (node : Read Data) : Read Data := do
  advance 1
  skipFlowGap minColumn
  if (← rest).head?.any fun c => c == ',' || c == '}' || c == ']' then return .null else node

/-- A pair of a flow mapping, given how nodes are read. -/
def flowPair (minColumn : Nat) (node : Read Data) : Read (String × Data) := do
  let isQuoted := (← rest).head?.any fun c => c == '"' || c == '\''
  let key ← if ← atFlowColon false then pure Data.null else node
  skipFlowGap minColumn
  if ← atFlowColon isQuoted then pair key (← flowValue minColumn node) else pair key .null

/-- An item of a flow sequence, which may be a pair, given how nodes are
read. -/
def flowItem (minColumn : Nat) (node : Read Data) : Read Data := do
  let isQuoted := (← rest).head?.any fun c => c == '"' || c == '\''
  let key ← node
  skipFlowGap minColumn
  if ← atFlowColon isQuoted then
    return .object [← pair key (← flowValue minColumn node)]
  else
    return key

/-- A node inside a flow collection, nested at most to a depth. -/
def flowNode (minColumn : Nat) : Nat → Read Data
  | 0 => fail
  | depth + 1 => do
    let anchor ← properties
    skipFlowGap minColumn
    let cs ← rest
    let data ←
      match cs.head? with
      | some '[' => (do
        advance 1
        return Data.list
          (← flowItems minColumn ']' (flowItem minColumn (flowNode minColumn depth)) cs.length))
      | some '{' => (do
        advance 1
        return Data.object
          (← flowItems minColumn '}' (flowPair minColumn (flowNode minColumn depth)) cs.length))
      | some '*' => repeated
      | some '"' | some '\'' => quotedScalar
      | _ => plain minColumn true
    bind anchor data
    return data

/-! ### Block collections -/

/-- A key with its colon at the start of a line, and the text behind
them. -/
def key? (cs : List Char) : Option (String × List Char) := do
  let (text, final) ←
    if cs.head?.any fun c => c == '"' || c == '\'' then do
      let (content, final) ← quoted? cs
      if (cs.take (cs.length - final.length)).contains '\n' then none
      else some (content, final)
    else if startsPlain false cs then
      let line := plainLine false cs
      some (line, cs.drop line.length)
    else none
  match dropBlanks final with
  | ':' :: behind => if startsSeparated behind then some (String.ofList text, behind) else none
  | _ => none

/-- Whether a text starts with the dash of a sequence entry. -/
def startsEntry : List Char → Bool
  | '-' :: cs => startsSeparated cs
  | _ => false

/-- The lines of a block that are indented to a column, or less deep if
they are blank; the line end in front of them is used already. -/
def blockLines (indentation : Nat) : Nat → List Char → List BlockLine × List Char
  | 0, cs => ([], cs)
  | bound + 1, cs =>
    let line := cs.takeWhile (· != '\n')
    let rest := cs.drop line.length
    let spaces := (line.takeWhile (· == ' ')).length
    let isBlankLine := spaces == line.length
    if rest.isEmpty && line.isEmpty then ([], [])
    else if !isBlankLine && (spaces < indentation || (indentation == 0 && startsMarker cs)) then
      ([], cs)
    else
      let content : BlockLine :=
        if spaces == line.length && spaces ≤ indentation then none
        else some (line.drop indentation)
      match rest with
      | _ :: later =>
        let (more, final) := blockLines indentation bound later
        (content :: more, final)
      | [] => ([content], [])

/-- The indentation of the first line that is not blank, if any is. -/
def firstIndentation? : Nat → List Char → Option Nat
  | 0, _ => none
  | bound + 1, cs =>
    let line := cs.takeWhile (· != '\n')
    let spaces := (line.takeWhile (· == ' ')).length
    if spaces < line.length then some spaces
    else
      match cs.drop line.length with
      | _ :: later => firstIndentation? bound later
      | [] => none

/-- A scalar written as a block of lines. -/
def blockScalar (minColumn : Nat) : Read Data := do
  match blockHeader? (← rest) with
  | none => fail
  | some (header, final) =>
    advanceTo final
    expectLineEnd
    advance 1
    let cs ← rest
    let bound := cs.length + 1
    let found := (firstIndentation? bound cs).getD minColumn
    let indentation :=
      match header.indentation with
      | some n => (minColumn - 1) + n
      | none => max found minColumn
    let (lines, rest) := blockLines indentation bound cs
    advanceTo rest
    return .string (blockText header lines)

/-- A scalar, alias or flow collection in a block collection. -/
def blockLeaf (minColumn depth : Nat) : Read Data := do
  match (← rest).head? with
  | some '|' | some '>' => blockScalar minColumn
  | some c =>
    let data ←
      if c == '[' || c == '{' then flowNode minColumn depth
      else if c == '*' then repeated
      else if c == '"' || c == '\'' then quotedScalar
      else plain minColumn false
    expectLineEnd
    return data
  | none => fail

/-- The value of a sequence entry or mapping entry at a column, from
behind its mark, given how nodes at least at a column are read.  Where
the entry allows it, a sequence may stand at the same column. -/
def entryValue (node : Nat → Read Data) (entryColumn : Nat)
    (allowsSequence : Bool) : Read Data := do
  skipToContent
  if ← atEnd then return .null
  let here ← column
  if entryColumn < here then node (entryColumn + 1)
  else if allowsSequence && here == entryColumn && startsEntry (← rest) then node entryColumn
  else return .null

/-- The entries of a block sequence at a column, given how nodes are read. -/
def sequenceEntries (node : Nat → Read Data) (entryColumn : Nat) : Nat → Read (List Data)
  | 0 => fail
  | bound + 1 => do
    advance 1
    let item ← entryValue node entryColumn false
    skipToContent
    if ← atEnd then return [item]
    let here ← column
    if here == entryColumn && startsEntry (← rest) then
      return item :: (← sequenceEntries node entryColumn bound)
    else if entryColumn < here then fail
    else return [item]

/-- The value of a mapping entry, from behind its colon: what stands on
the same line is no block collection. -/
def mappingValue (node : Nat → Read Data) (leaf : Nat → Read Data) (entryColumn : Nat) :
    Read Data := do
  let anchor ← properties
  let data ←
    if ← finishLine then entryValue node entryColumn true else leaf (entryColumn + 1)
  bind anchor data
  return data

/-- The entries of a block mapping at a column, given how nodes and
leaves are read. -/
def mappingEntries (node leaf : Nat → Read Data) (entryColumn : Nat) :
    Nat → Read (List (String × Data))
  | 0 => fail
  | bound + 1 => do
    match key? (← rest) with
    | none => fail
    | some (key, final) =>
      advanceTo final
      let value ← mappingValue node leaf entryColumn
      skipToContent
      if ← atEnd then return [(key, value)]
      let here ← column
      if here == entryColumn then
        return (key, value) :: (← mappingEntries node leaf entryColumn bound)
      else if entryColumn < here then fail
      else return [(key, value)]

/-- The members that a mapping takes over from those under its merge key;
its own members come first. -/
def mergeMembers (members : List (String × Data)) : List (String × Data) :=
  let own := members.filter (·.1 != "<<")
  let inherited : List (String × Data) := members.flatMap fun (key, value) =>
    if key == "<<" then
      match value with
      | .object more => more
      | .list items => items.flatMap fun item =>
        match item with
        | .object more => more
        | _ => []
      | _ => []
    else []
  own ++ inherited.filter fun (key, _) => !(own.map (·.1)).contains key

/-- A node in a block collection whose content stands at least at a
column, nested at most to a depth. -/
def blockNode : Nat → Nat → Read Data
  | 0, _ => fail
  | depth + 1, minColumn => do
    let anchor ← properties
    if ← finishLine then skipToContent
    let cs ← rest
    let here ← column
    let data ←
      if here < minColumn || (← atEnd) then pure .null
      else if startsEntry cs then (do
        return Data.list (← sequenceEntries (blockNode depth) here cs.length))
      else if (key? cs).isSome then (do
        let members ← mappingEntries (blockNode depth) (fun m => blockLeaf m depth) here cs.length
        return Data.object (mergeMembers members))
      else blockLeaf minColumn depth
    bind anchor data
    return data

/-! ### Documents -/

/-- Uses the lines of directives in front of a document, and tells
whether there were any. -/
def skipDirectives (seen : Bool) : Nat → Read Bool
  | 0 => fail
  | bound + 1 => do
    skipToContent
    if (← column) == 0 && (← rest).head? == some '%' then
      advance ((← rest).takeWhile (· != '\n')).length
      skipDirectives true bound
    else
      return seen

/-- Uses a mark that starts a document, if it is there. -/
def skipStart : Read Bool := do
  let s ← get
  if s.column == 0 && "---".toList.isPrefixOf s.rest && startsSeparated (s.rest.drop 3) then
    advance 3
    return true
  else
    return false

/-- Uses the marks that end a document. -/
def skipEnds : Nat → Read Unit
  | 0 => fail
  | bound + 1 => do
    skipToContent
    let s ← get
    if s.column == 0 && "...".toList.isPrefixOf s.rest && startsSeparated (s.rest.drop 3) then
      advance 3
      expectLineEnd
      skipEnds bound

/-- The only document of a text. -/
def document : Read Data := do
  let bound := (← rest).length + 1
  let directed ← skipDirectives false bound
  let started ← skipStart
  if directed && !started then fail
  skipToContent
  let data ← if ← atEnd then pure Data.null else blockNode bound 0
  skipEnds bound
  if (← rest).isEmpty then return data else fail

/-- A text whose lines all end in line feeds. -/
def normalizeEnds : List Char → List Char
  | '\r' :: '\n' :: cs => '\n' :: normalizeEnds cs
  | c :: cs => (if c = '\r' then '\n' else c) :: normalizeEnds cs
  | [] => []

/-- A text without a byte order mark in front. -/
def dropMark : List Char → List Char
  | c :: cs => if c.toNat = 0xFEFF then cs else c :: cs
  | [] => []

/-- The value of a text. -/
def read? (text : List Char) : Option Data :=
  (document.run { rest := normalizeEnds (dropMark text) }).map (·.1)

end GraphMigrate.Yaml
