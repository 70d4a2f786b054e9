/-
Printing documents.

Definitions are printed with an empty line between them, members of
braces one on a line, two spaces deeper than their braces.  Values,
arguments and declared variables of operations stand on one line;
declared arguments stand on lines of their own once one of them has a
description or a directive.  The values inside them, and the default
values of input fields, are then broken into lines as well.

* `Layout`: whether lines may be broken, and how far they are indented;
* `quoted`, `described`: the written forms of strings;
* `Value.written`, `Selection.written`, `Definition.written`,
  `Document.written`.
-/
import GraphMigrate.Document.Syntax
import GraphMigrate.Document.Token

namespace GraphMigrate.Document

/-! ### Layouts -/

/-- Where text is put: on one line, or on lines indented to a level. -/
inductive Layout where
  | flat
  | broken (level : Nat)
  deriving DecidableEq, Repr

namespace Layout

/-- A line end with the indentation of the line behind it. -/
def newLine (level : Nat) : String := "\n" ++ String.join (List.replicate level "  ")

/-- What stands between parts that have lines of their own where lines
may be broken. -/
def gap : Layout → String
  | flat => " "
  | broken level => newLine level

/-- One level deeper. -/
def deeper : Layout → Layout
  | flat => flat
  | broken level => broken (level + 1)

/-- Items that were written one level deeper, with commas, between an
opening and a closing mark. -/
def enclosed (layout : Layout) (opening closing : String) (items : List String) : String :=
  match items, layout with
  | [], _ => opening ++ closing
  | items, flat => opening ++ String.intercalate ", " items ++ closing
  | items, broken level =>
    opening ++ String.join (items.map fun item => newLine (level + 1) ++ item ++ ",")
      ++ newLine level ++ closing

end Layout

open Layout (newLine)

/-- Items that were written one level deeper, in braces. -/
def braced (level : Nat) (items : List String) : String :=
  match items with
  | [] => "\x7b\x7d"
  | items =>
    "\x7b" ++ String.join (items.map (newLine (level + 1) ++ ·)) ++ newLine level ++ "\x7d"

/-- Items in braces behind a blank, or nothing if there are none. -/
def bracedUnlessEmpty (level : Nat) (items : List String) : String :=
  if items.isEmpty then "" else " " ++ braced level items

/-! ### Strings -/

/-- An upper-case hexadecimal digit. -/
def hexDigit (n : Nat) : Char :=
  if n < 10 then Char.ofNat (48 + n) else Char.ofNat (55 + n)

/-- The written form of a character inside of quotes. -/
def escape (c : Char) : List Char :=
  if c = '"' then ['\\', '"']
  else if c = '\\' then ['\\', '\\']
  else if c.toNat = 8 then ['\\', 'b']
  else if c = '\n' then ['\\', 'n']
  else if c.toNat = 12 then ['\\', 'f']
  else if c = '\r' then ['\\', 'r']
  else if c.toNat < 32 ∧ c ≠ '\t' then
    ['\\', 'u', '0', '0', hexDigit (c.toNat / 16), hexDigit (c.toNat % 16)]
  else [c]

/-- A string in quotes. -/
def quoted (content : List Char) : String :=
  String.ofList ('"' :: content.flatMap escape ++ ['"'])

/-- A text in which three quotes in a row are escaped. -/
def escapeQuotes : List Char → List Char
  | '"' :: '"' :: '"' :: cs => '\\' :: '"' :: '"' :: '"' :: escapeQuotes cs
  | c :: cs => c :: escapeQuotes cs
  | [] => []

/-- Whether a block string can have a meaning: no line ends in a carriage
return, the first and the last line are not blank, and some line is not
indented. -/
def isBlockMeaning (content : List Char) : Bool :=
  let all := lines content
  !content.contains '\r' && !(all.head?.any isBlankLine) && !(all.getLast?.any isBlankLine)
    && all.any fun line => indentation? line == some 0

/-- Whether a block string with a meaning has its quotes on lines of their
own. -/
def needsLines (content : List Char) : Bool :=
  content.contains '\n' || 70 < byteLength content
    || content.getLast?.any fun c => c == '"' || c == '\\'

/-- A block string on lines indented to a level. -/
def blockQuoted (level : Nat) (content : List Char) : String :=
  let marks := "\"\"\""
  if needsLines content then
    let written := (lines content).map fun line =>
      if line.isEmpty then "\n" else newLine level ++ String.ofList (escapeQuotes line)
    marks ++ String.join written ++ newLine level ++ marks
  else
    marks ++ String.ofList (escapeQuotes content) ++ marks

/-- A string, as a block where lines may be broken, it can be one, and it
is a description or has several lines. -/
def stringText (layout : Layout) (isDescription : Bool) (content : String) : String :=
  let cs := content.toList
  match layout with
  | .flat => quoted cs
  | .broken level =>
    if (isDescription || cs.contains '\n') && isBlockMeaning cs then blockQuoted level cs
    else quoted cs

/-- A description and the gap behind it. -/
def described (layout : Layout) : Option String → String
  | none => ""
  | some content => stringText layout true content ++ layout.gap

/-! ### Values and types -/

mutual

/-- A value. -/
def Value.written (layout : Layout) : Value → String
  | .variable name => "$" ++ name
  | .int text => text
  | .float text => text
  | .string content => stringText layout false content
  | .boolean value => if value then "true" else "false"
  | .null => "null"
  | .symbol name => name
  | .list items => layout.enclosed "[" "]" (Value.writtenItems layout.deeper items)
  | .object fields => layout.enclosed "\x7b" "\x7d" (Value.writtenFields layout.deeper fields)

/-- The items of a list. -/
def Value.writtenItems (layout : Layout) : List Value → List String
  | [] => []
  | item :: items => item.written layout :: Value.writtenItems layout items

/-- The fields of an object. -/
def Value.writtenFields (layout : Layout) : List (String × Value) → List String
  | [] => []
  | field :: fields => Value.writtenField layout field :: Value.writtenFields layout fields

/-- One field of an object. -/
def Value.writtenField (layout : Layout) : String × Value → String
  | (name, value) => name ++ ": " ++ value.written layout

end

/-- A reference to a type. -/
def TypeReference.written : TypeReference → String
  | .named name => name
  | .list item => "[" ++ item.written ++ "]"
  | .required inner => inner.written ++ "!"

/-- An argument. -/
def Argument.written (argument : Argument) : String :=
  argument.name ++ ": " ++ argument.value.written .flat

/-- Arguments in parentheses, if there are any. -/
def argumentsText (arguments : List Argument) : String :=
  if arguments.isEmpty then "" else Layout.flat.enclosed "(" ")" (arguments.map (·.written))

/-- An applied directive. -/
def Directive.written (directive : Directive) : String :=
  "@" ++ directive.name ++ argumentsText directive.arguments

/-- Applied directives, each behind a blank. -/
def directivesText (directives : List Directive) : String :=
  String.join (directives.map fun directive => " " ++ directive.written)

/-- A default value, if there is one. -/
def fallbackText (layout : Layout) : Option Value → String
  | none => ""
  | some value => " = " ++ value.written layout

/-! ### Operations and fragments -/

/-- A field without its selections. -/
def Field.written (field : Field) : String :=
  (match field.alias? with
    | none => ""
    | some key => key ++ ": ")
  ++ field.name ++ argumentsText field.arguments ++ directivesText field.directives

mutual

/-- A member of a selection set, on lines indented to a level. -/
def Selection.written (level : Nat) : Selection → String
  | .field head selections =>
    head.written ++ bracedUnlessEmpty level (Selection.writtenAll (level + 1) selections)
  | .spread name directives => "..." ++ name ++ directivesText directives
  | .inline condition directives selections =>
    "..." ++ (match condition with
      | none => ""
      | some name => " on " ++ name)
    ++ directivesText directives ++ " "
    ++ braced level (Selection.writtenAll (level + 1) selections)

/-- The members of a selection set. -/
def Selection.writtenAll (level : Nat) : List Selection → List String
  | [] => []
  | selection :: selections => selection.written level :: Selection.writtenAll level selections

end

/-- A declared variable. -/
def VariableDefinition.written (declared : VariableDefinition) : String :=
  "$" ++ declared.name ++ ": " ++ declared.type.written ++ fallbackText .flat declared.fallback
    ++ directivesText declared.directives

/-- An operation that selects and declares nothing else. -/
def Operation.isPlain (operation : Operation) : Bool :=
  operation.kind == .query && operation.name.isNone && operation.variableDefinitions.isEmpty
    && operation.directives.isEmpty

/-- An operation.  A plain one that comes first has no head. -/
def Operation.written (isFirst : Bool) (operation : Operation) : String :=
  let head :=
    if isFirst && operation.isPlain then ""
    else
      operation.kind.keyword
        ++ (match operation.name with
          | none => ""
          | some name => " " ++ name)
        ++ (if operation.variableDefinitions.isEmpty then ""
          else Layout.flat.enclosed "(" ")" (operation.variableDefinitions.map (·.written)))
        ++ directivesText operation.directives ++ " "
  head ++ braced 0 (Selection.writtenAll 1 operation.selections)

/-- A fragment. -/
def Fragment.written (fragment : Fragment) : String :=
  "fragment " ++ fragment.name ++ " on " ++ fragment.condition
    ++ directivesText fragment.directives ++ " "
    ++ braced 0 (Selection.writtenAll 1 fragment.selections)

/-! ### Definitions of types -/

/-- A declared argument or input field. -/
def InputValue.written (layout : Layout) (declared : InputValue) : String :=
  described layout declared.description ++ declared.name ++ ": " ++ declared.type.written
    ++ fallbackText layout declared.fallback ++ directivesText declared.directives

/-- Declared arguments, if there are any. -/
def declaredArgumentsText (level : Nat) (arguments : List InputValue) : String :=
  if arguments.isEmpty then ""
  else
    let layout : Layout :=
      if arguments.any fun a => a.description.isSome || !a.directives.isEmpty then .broken level
      else .flat
    layout.enclosed "(" ")" (arguments.map (·.written layout.deeper))

/-- A declared field, on lines indented to a level. -/
def FieldDefinition.written (level : Nat) (field : FieldDefinition) : String :=
  described (.broken level) field.description ++ field.name
    ++ declaredArgumentsText level field.arguments ++ ": " ++ field.type.written
    ++ directivesText field.directives

/-- A declared enum value, on lines indented to a level. -/
def EnumValue.written (level : Nat) (value : EnumValue) : String :=
  described (.broken level) value.description ++ value.name ++ directivesText value.directives

/-- Implemented interfaces, if there are any. -/
def interfacesText (interfaces : List String) : String :=
  if interfaces.isEmpty then "" else " implements " ++ String.intercalate " & " interfaces

/-- The keyword of a type. -/
def TypeBody.keyword : TypeBody → String
  | .scalar => "scalar"
  | .object _ _ => "type"
  | .interface _ _ => "interface"
  | .union _ => "union"
  | .enum _ => "enum"
  | .input _ => "input"

/-- What stands between the name of a type and its directives. -/
def TypeBody.clause : TypeBody → String
  | .object interfaces _ | .interface interfaces _ => interfacesText interfaces
  | _ => ""

/-- What stands behind the directives of a type. -/
def TypeBody.members : TypeBody → String
  | .scalar => ""
  | .object _ fields | .interface _ fields =>
    bracedUnlessEmpty 0 (fields.map (·.written 1))
  | .union names => if names.isEmpty then "" else " = " ++ String.intercalate " | " names
  | .enum values => bracedUnlessEmpty 0 (values.map (·.written 1))
  | .input fields => bracedUnlessEmpty 0 (fields.map (·.written (.broken 1)))

/-- A definition or extension of a type. -/
def TypeDefinition.written (type : TypeDefinition) : String :=
  described (.broken 0) type.description ++ (if type.isExtension then "extend " else "")
    ++ type.body.keyword ++ " " ++ type.name ++ type.body.clause
    ++ directivesText type.directives ++ type.body.members

/-- The definition of a directive. -/
def DirectiveDefinition.written (directive : DirectiveDefinition) : String :=
  described (.broken 0) directive.description ++ "directive @" ++ directive.name
    ++ declaredArgumentsText 0 directive.arguments
    ++ (if directive.repeatable then " repeatable" else "")
    ++ " on " ++ String.intercalate " | " directive.locations

/-- A definition or extension of the schema. -/
def SchemaDefinition.written (schema : SchemaDefinition) : String :=
  let roots := schema.roots.map fun (kind, name) => kind.keyword ++ ": " ++ name
  described (.broken 0) schema.description ++ (if schema.isExtension then "extend " else "")
    ++ "schema" ++ directivesText schema.directives
    ++ (if schema.isExtension then bracedUnlessEmpty 0 roots else " " ++ braced 0 roots)

/-- A member of a document. -/
def Definition.written (isFirst : Bool) : Definition → String
  | .operation o => o.written isFirst
  | .fragment f => f.written
  | .type t => t.written
  | .directive d => d.written
  | .schema s => s.written

/-- A document, which ends with a line end. -/
def written (document : Document) : String :=
  match document.definitions with
  | [] => ""
  | first :: later =>
    first.written true
      ++ String.join (later.map fun definition => "\n\n" ++ definition.written false) ++ "\n"

end GraphMigrate.Document
