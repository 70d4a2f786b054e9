/-
Schema definitions found in a script.

The model says what is defined and where: every part carries the span
of the text it was read from, and rewriting works on those spans.

* `FieldMap`: fields, arguments or enum values written as an object
  literal, with spreads and computed keys kept in their places;
* `FieldConfig`: the configuration of a single one of them;
* `FieldsSource`: where a map comes from, when it is not written out;
* `Resolver`: a function written inline, its parameters and its body;
* `Definitions`: all definitions of a script, in the order in which
  they are found.
-/
import GraphMigrate.Diagnostic

namespace GraphMigrate

/-- What kind of things a map holds. -/
inductive MapKind where
  | output
  | input
  | arguments
  | enumValues
  deriving DecidableEq, Repr, Inhabited

namespace MapKind

/-- What one of the things in a map is called. -/
def display : MapKind → String
  | .output => "field"
  | .input => "input field"
  | .arguments => "arg"
  | .enumValues => "enum value"

end MapKind

/-! ### Resolvers -/

/-- How a pattern property binds its key. -/
inductive PatternBinding where
  /-- `key` or `key = value`. -/
  | shorthand
  /-- `key: pattern`. -/
  | renamed
  deriving DecidableEq, Repr

/-- A property of an object pattern. -/
structure PatternProperty where
  key : String
  keySpan : Span
  binding : PatternBinding
  deriving DecidableEq, Repr

/-- A parameter written as an object pattern; computed keys are left out. -/
structure ObjectParameter where
  span : Span
  properties : List PatternProperty
  hasRest : Bool
  deriving DecidableEq, Repr

/-- A parameter of a resolver. -/
inductive Parameter where
  | name (text : String) (span : Span)
  | object (pattern : ObjectParameter)
  | other (kind : String) (span : Span)
  deriving DecidableEq, Repr

/-- The body of a resolver. -/
inductive ResolverBody where
  | block (span : Span) (first : Option Span)
  | expression (span : Span)
  deriving DecidableEq, Repr

/-- A function written inline. -/
structure Resolver where
  span : Span
  parameters : List Parameter
  body : ResolverBody
  deriving DecidableEq, Repr

/-- A property that holds a function; the function is absent when it is
not written inline. -/
structure ResolverProperty where
  span : Span
  function : Option Resolver
  deriving DecidableEq, Repr

/-! ### Fields -/

/-- A property of a field configuration; spreads and computed keys have
no name. -/
structure ConfigProperty where
  name : Option String
  span : Span
  deriving DecidableEq, Repr, Inhabited

/-- The value of the property `type`. -/
inductive TypeExpression where
  | list (span : Span)
  | named (name : String) (span : Span)
  | other (span : Span)
  deriving DecidableEq, Repr

namespace TypeExpression

/-- The span of the value. -/
def span : TypeExpression → Span
  | list s | named _ s | other s => s

/-- Whether the value wraps a type into a list. -/
def isList : TypeExpression → Bool
  | list _ => true
  | _ => false

end TypeExpression

mutual

/-- Named entries written as an object literal. -/
inductive FieldMap where
  | mk (kind : MapKind) (span : Span) (entries : List MapEntry)
  deriving Repr

/-- An entry of a map. -/
inductive MapEntry where
  /-- A named entry; `shorthand` when the key stands for the value too. -/
  | field (key : String) (keySpan : Span) (shorthand : Bool) (span : Span) (value : FieldValue)
  /-- Entries merged in from elsewhere. -/
  | spread (label : String) (span : Span)
  /-- An entry with a computed key. -/
  | computed (span : Span)
  deriving Repr

/-- The value of a named entry. -/
inductive FieldValue where
  | config (config : FieldConfig)
  | reference (name : String) (span : Span)
  | call (callee : String) (span : Span)
  | other (span : Span)
  deriving Repr

/-- The configuration of a field, written inline. -/
inductive FieldConfig where
  | mk (span : Span) (properties : List ConfigProperty) (type : Option TypeExpression)
      (arguments : Option FieldsSource) (resolve : Option ResolverProperty) (deprecated : Bool)
  deriving Repr

/-- Where the entries of a map come from. -/
inductive FieldsSource where
  | inline (map : FieldMap)
  | deferred (map : FieldMap)
  | reference (name : String) (span : Span)
  | call (callee : String) (span : Span)
  | unsupported (span : Span)
  deriving Repr

end

instance : Inhabited FieldMap := ⟨.mk .output default []⟩
instance : Inhabited FieldConfig := ⟨.mk default [] none none none false⟩

namespace FieldConfig

/-- The span of the object literal. -/
def span : FieldConfig → Span
  | mk s _ _ _ _ _ => s

/-- The properties in the order of the text. -/
def properties : FieldConfig → List ConfigProperty
  | mk _ ps _ _ _ _ => ps

/-- The value of `type`. -/
def type : FieldConfig → Option TypeExpression
  | mk _ _ t _ _ _ => t

/-- Where the arguments come from. -/
def arguments : FieldConfig → Option FieldsSource
  | mk _ _ _ a _ _ => a

/-- The property `resolve`. -/
def resolve : FieldConfig → Option ResolverProperty
  | mk _ _ _ _ r _ => r

/-- Whether a reason for deprecation is given. -/
def deprecated : FieldConfig → Bool
  | mk _ _ _ _ _ d => d

end FieldConfig

namespace FieldValue

/-- The configuration, if it is written inline. -/
def config? : FieldValue → Option FieldConfig
  | config c => some c
  | _ => none

/-- The span of the value. -/
def span : FieldValue → Span
  | config c => c.span
  | reference _ s | call _ s | other s => s

end FieldValue

/-- A named entry of a map on its own. -/
structure NamedEntry where
  key : String
  keySpan : Span
  shorthand : Bool
  span : Span
  value : FieldValue
  deriving Repr

namespace MapEntry

/-- The named entry, if it is one. -/
def field? : MapEntry → Option NamedEntry
  | field key keySpan shorthand span value => some ⟨key, keySpan, shorthand, span, value⟩
  | spread _ _ | computed _ => none

end MapEntry

namespace FieldMap

/-- What the map holds. -/
def kind : FieldMap → MapKind
  | mk k _ _ => k

/-- The span of the object literal. -/
def span : FieldMap → Span
  | mk _ s _ => s

/-- The entries in the order of the text. -/
def entries : FieldMap → List MapEntry
  | mk _ _ es => es

/-- The named entries. -/
def fields (map : FieldMap) : List NamedEntry := map.entries.filterMap MapEntry.field?

/-- The first named entry with a key. -/
def get? (map : FieldMap) (key : String) : Option NamedEntry :=
  map.fields.find? fun field => field.key == key

/-- Whether there is an entry with a key. -/
def contains (map : FieldMap) (key : String) : Bool := (map.get? key).isSome

/-- The number of entries of every kind. -/
def size (map : FieldMap) : Nat := map.entries.length

end FieldMap

namespace FieldsSource

/-- The map, where it is known. -/
def map? : FieldsSource → Option FieldMap
  | inline m | deferred m => some m
  | reference _ _ | call _ _ | unsupported _ => none

end FieldsSource

/-! ### Definitions -/

/-- A mutation: where its maps stand among those found, and the function
that computes its payload. -/
structure Mutation where
  span : Span
  inputMap : Option Nat
  outputMap : Option Nat
  payload : Option ResolverProperty
  deriving DecidableEq, Repr

/-- A field configuration that is a variable of its own. -/
structure NamedConfig where
  name : String
  config : FieldConfig
  deriving Repr

/-- The definitions of a script, each kind in the order of finding. -/
structure Definitions where
  outputMaps : List FieldMap := []
  inputMaps : List FieldMap := []
  argumentMaps : List FieldMap := []
  fieldConfigs : List NamedConfig := []
  mutations : List Mutation := []
  enumValues : List FieldsSource := []
  diagnostics : List Diagnostic := []
  deriving Repr, Inhabited

namespace Definitions

/-- The configurations in output maps, then those that are variables. -/
def outputFieldConfigs (definitions : Definitions) : List FieldConfig :=
  (definitions.outputMaps.flatMap FieldMap.fields).filterMap (·.value.config?) ++
    definitions.fieldConfigs.map (·.config)

end Definitions

end GraphMigrate
