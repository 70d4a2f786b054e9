/-
Documents of the query language.

A document holds operations and fragments, which select fields, and
definitions of types and directives.  Numbers and names are kept as they
are written, strings by what they mean.  Every field remembers the byte
offset at which it starts in its document.

* `Value`, `Argument`, `Directive`;
* `Field`, `Selection`: a member of a selection set is a field, a
  fragment spread or an inline fragment;
* `Definition`, `Document`.
-/
namespace GraphMigrate.Document

/-- A value, or a variable in its place. -/
inductive Value where
  | variable (name : String)
  | int (text : String)
  | float (text : String)
  | string (content : String)
  | boolean (value : Bool)
  | null
  | symbol (name : String)
  | list (items : List Value)
  | object (fields : List (String × Value))
  deriving Repr, Inhabited

/-- A reference to a type. -/
inductive TypeReference where
  | named (name : String)
  | list (item : TypeReference)
  | required (inner : TypeReference)
  deriving DecidableEq, Repr, Inhabited

namespace TypeReference

/-- The named type inside the lists. -/
def innerName : TypeReference → String
  | named name => name
  | list item => item.innerName
  | required inner => inner.innerName

end TypeReference

/-- A named argument. -/
structure Argument where
  name : String
  value : Value
  deriving Repr, Inhabited

/-- An applied directive. -/
structure Directive where
  name : String
  arguments : List Argument
  deriving Repr, Inhabited

/-- What is said of a selected field before its own selections. -/
structure Field where
  offset : Nat
  alias? : Option String
  name : String
  arguments : List Argument
  directives : List Directive
  deriving Repr, Inhabited

namespace Field

/-- The key under which the field stands in a response. -/
def responseKey (field : Field) : String := field.alias?.getD field.name

end Field

/-- A member of a selection set. -/
inductive Selection where
  | field (field : Field) (selections : List Selection)
  | spread (name : String) (directives : List Directive)
  | inline (condition : Option String) (directives : List Directive)
      (selections : List Selection)
  deriving Repr, Inhabited

/-- The kinds of operations. -/
inductive OperationKind where
  | query
  | mutation
  | subscription
  deriving DecidableEq, Repr, Inhabited

namespace OperationKind

/-- The keyword of an operation. -/
def keyword : OperationKind → String
  | query => "query"
  | mutation => "mutation"
  | subscription => "subscription"

/-- The operation that a keyword starts. -/
def ofKeyword? : String → Option OperationKind
  | "query" => some query
  | "mutation" => some mutation
  | "subscription" => some subscription
  | _ => none

end OperationKind

/-- A declared variable. -/
structure VariableDefinition where
  name : String
  type : TypeReference
  fallback : Option Value
  directives : List Directive
  deriving Repr, Inhabited

/-- An operation. -/
structure Operation where
  kind : OperationKind
  name : Option String
  variableDefinitions : List VariableDefinition
  directives : List Directive
  selections : List Selection
  deriving Repr, Inhabited

/-- A fragment. -/
structure Fragment where
  name : String
  condition : String
  directives : List Directive
  selections : List Selection
  deriving Repr, Inhabited

/-- A declared argument or input field. -/
structure InputValue where
  description : Option String
  name : String
  type : TypeReference
  fallback : Option Value
  directives : List Directive
  deriving Repr, Inhabited

/-- A declared field. -/
structure FieldDefinition where
  description : Option String
  name : String
  arguments : List InputValue
  type : TypeReference
  directives : List Directive
  deriving Repr, Inhabited

/-- A declared enum value. -/
structure EnumValue where
  description : Option String
  name : String
  directives : List Directive
  deriving Repr, Inhabited

/-- What a type consists of. -/
inductive TypeBody where
  | scalar
  | object (interfaces : List String) (fields : List FieldDefinition)
  | interface (interfaces : List String) (fields : List FieldDefinition)
  | union (members : List String)
  | enum (values : List EnumValue)
  | input (fields : List InputValue)
  deriving Repr, Inhabited

/-- A type definition, or an extension of one. -/
structure TypeDefinition where
  isExtension : Bool
  description : Option String
  name : String
  directives : List Directive
  body : TypeBody
  deriving Repr, Inhabited

/-- The definition of a directive. -/
structure DirectiveDefinition where
  description : Option String
  name : String
  arguments : List InputValue
  repeatable : Bool
  locations : List String
  deriving Repr, Inhabited

/-- The root operations of a schema, or more of them. -/
structure SchemaDefinition where
  isExtension : Bool
  description : Option String
  directives : List Directive
  roots : List (OperationKind × String)
  deriving Repr, Inhabited

/-- A member of a document. -/
inductive Definition where
  | operation (operation : Operation)
  | fragment (fragment : Fragment)
  | type (type : TypeDefinition)
  | directive (directive : DirectiveDefinition)
  | schema (schema : SchemaDefinition)
  deriving Repr, Inhabited

end GraphMigrate.Document

namespace GraphMigrate

/-- The definitions of a document. -/
structure Document where
  definitions : List Document.Definition
  deriving Repr, Inhabited

end GraphMigrate
