/-
Schemas.

A schema holds the types that a document defines, each with its
extensions merged in, besides the types that every schema has, and it
knows at which types the operations start.

* `Schema.ofDocument?`: the schema that a document defines.  It has none
  if it selects anything, defines something twice, or extends something
  that is not defined or is of another kind;
* `Schema.root?`: the type at which an operation starts;
* `Schema.fieldType?`: the type of a field.
-/
import GraphMigrate.Document.Syntax
import GraphMigrate.Document.Reader

namespace GraphMigrate.Document

/-- A type of a schema. -/
structure SchemaType where
  name : String
  body : TypeBody
  deriving Repr, Inhabited

/-- What a schema says about types and operations. -/
structure Schema where
  types : List SchemaType
  roots : List (OperationKind × String)
  deriving Repr, Inhabited

/-! ### Types that every schema has -/

/-- A field without arguments. -/
def plainField (name : String) (type : TypeReference) : FieldDefinition :=
  ⟨none, name, [], type, []⟩

/-- A nullable type. -/
def nullable (name : String) : TypeReference := .named name

/-- A type that is not nullable. -/
def nonNull (name : String) : TypeReference := .required (.named name)

/-- A nullable list of items that are not nullable. -/
def listOf (name : String) : TypeReference := .list (nonNull name)

/-- The type of schemas. -/
def schemaFields : List FieldDefinition :=
  [plainField "description" (nullable "String"),
    plainField "types" (.required (listOf "__Type")),
    plainField "queryType" (nonNull "__Type"),
    plainField "mutationType" (nullable "__Type"),
    plainField "subscriptionType" (nullable "__Type"),
    plainField "directives" (.required (listOf "__Directive"))]

/-- The type of types. -/
def typeFields : List FieldDefinition :=
  [plainField "kind" (nonNull "__TypeKind"),
    plainField "name" (nullable "String"),
    plainField "description" (nullable "String"),
    plainField "fields" (listOf "__Field"),
    plainField "interfaces" (listOf "__Type"),
    plainField "possibleTypes" (listOf "__Type"),
    plainField "enumValues" (listOf "__EnumValue"),
    plainField "inputFields" (listOf "__InputValue"),
    plainField "ofType" (nullable "__Type"),
    plainField "specifiedByURL" (nullable "String")]

/-- The fields that say whether something is deprecated, and why. -/
def deprecationFields : List FieldDefinition :=
  [plainField "isDeprecated" (nonNull "Boolean"),
    plainField "deprecationReason" (nullable "String")]

/-- The fields that name and describe something. -/
def namingFields : List FieldDefinition :=
  [plainField "name" (nonNull "String"), plainField "description" (nullable "String")]

/-- The type of fields. -/
def fieldFields : List FieldDefinition :=
  namingFields
    ++ [plainField "args" (.required (listOf "__InputValue")),
      plainField "type" (nonNull "__Type")]
    ++ deprecationFields

/-- The type of arguments and input fields. -/
def inputValueFields : List FieldDefinition :=
  namingFields
    ++ [plainField "type" (nonNull "__Type"), plainField "defaultValue" (nullable "String")]
    ++ deprecationFields

/-- The type of directives. -/
def directiveFields : List FieldDefinition :=
  namingFields
    ++ [plainField "isRepeatable" (nonNull "Boolean"),
      plainField "locations" (.required (listOf "__DirectiveLocation")),
      plainField "args" (.required (listOf "__InputValue"))]

/-- The kinds of types. -/
def typeKinds : List String :=
  ["SCALAR", "OBJECT", "INTERFACE", "UNION", "ENUM", "INPUT_OBJECT", "LIST", "NON_NULL"]

/-- An enum whose values have no descriptions. -/
def plainEnum (values : List String) : TypeBody := .enum (values.map (⟨none, ·, []⟩))

/-- The types that every schema has. -/
def builtInTypes : List SchemaType :=
  [⟨"__Schema", .object [] schemaFields⟩,
    ⟨"__Type", .object [] typeFields⟩,
    ⟨"__TypeKind", plainEnum typeKinds⟩,
    ⟨"__Field", .object [] fieldFields⟩,
    ⟨"__InputValue", .object [] inputValueFields⟩,
    ⟨"__EnumValue", .object [] (namingFields ++ deprecationFields)⟩,
    ⟨"__Directive", .object [] directiveFields⟩,
    ⟨"__DirectiveLocation", plainEnum directiveLocations⟩,
    ⟨"Int", .scalar⟩, ⟨"Float", .scalar⟩, ⟨"String", .scalar⟩, ⟨"Boolean", .scalar⟩,
    ⟨"ID", .scalar⟩]

/-! ### Merging extensions -/

/-- A type body with a part of the same kind added to it. -/
def TypeBody.extend? : TypeBody → TypeBody → Option TypeBody
  | .scalar, .scalar => some .scalar
  | .object is fs, .object js gs => some (.object (is ++ js) (fs ++ gs))
  | .interface is fs, .interface js gs => some (.interface (is ++ js) (fs ++ gs))
  | .union ms, .union ns => some (.union (ms ++ ns))
  | .enum vs, .enum ws => some (.enum (vs ++ ws))
  | .input fs, .input gs => some (.input (fs ++ gs))
  | _, _ => none

/-- A list that holds nothing twice. -/
def isNodup {α : Type} [BEq α] : List α → Bool
  | [] => true
  | a :: as => !as.contains a && isNodup as

/-- A type body that names nothing twice. -/
def TypeBody.isConsistent : TypeBody → Bool
  | .scalar => true
  | .object is fs | .interface is fs => isNodup is && isNodup (fs.map (·.name))
  | .union ms => isNodup ms
  | .enum vs => isNodup (vs.map (·.name))
  | .input fs => isNodup (fs.map (·.name))

/-- The definitions of types in a document. -/
def typeDefinitions (document : Document) : List TypeDefinition :=
  document.definitions.filterMap fun definition =>
    match definition with
    | .type t => some t
    | _ => none

/-- The definitions of directives in a document. -/
def directiveDefinitions (document : Document) : List DirectiveDefinition :=
  document.definitions.filterMap fun definition =>
    match definition with
    | .directive d => some d
    | _ => none

/-- The definitions and extensions of the schema in a document. -/
def schemaDefinitions (document : Document) : List SchemaDefinition :=
  document.definitions.filterMap fun definition =>
    match definition with
    | .schema s => some s
    | _ => none

/-- Whether a document holds operations or fragments. -/
def isExecutable (document : Document) : Bool :=
  document.definitions.any fun definition =>
    match definition with
    | .operation _ | .fragment _ => true
    | _ => false

/-- The types of a document before their extensions, in front of those
that every schema has. -/
def definedTypes (document : Document) : List SchemaType :=
  ((typeDefinitions document).filter (!·.isExtension)).map (fun t => ⟨t.name, t.body⟩)
    ++ builtInTypes

/-- The extensions of types in a document. -/
def typeExtensions (document : Document) : List SchemaType :=
  ((typeDefinitions document).filter (·.isExtension)).map (fun t => ⟨t.name, t.body⟩)

/-- A type with its extensions merged in. -/
def SchemaType.merged? (extensions : List SchemaType) (type : SchemaType) :
    Option SchemaType := do
  let mine := extensions.filter (·.name == type.name)
  let body ← mine.foldlM (fun body extension => body.extend? extension.body) type.body
  if body.isConsistent then some ⟨type.name, body⟩ else none

/-- The kinds of operations with the types at which they start unless a
schema definition says otherwise. -/
def impliedRoots : List (OperationKind × String) :=
  [(.query, "Query"), (.mutation, "Mutation"), (.subscription, "Subscription")]

/-- An object type. -/
def SchemaType.isObject (type : SchemaType) : Bool :=
  match type.body with
  | .object _ _ => true
  | _ => false

/-- The types at which operations start. -/
def roots? (schemas : List SchemaDefinition) (types : List SchemaType) :
    Option (List (OperationKind × String)) :=
  let added := (schemas.filter (·.isExtension)).flatMap (·.roots)
  let found : Option (List (OperationKind × String)) :=
    match schemas.filter (!·.isExtension) with
    | [] =>
      let implied := impliedRoots.filter fun (_, name) =>
        types.any fun t => t.name == name && t.isObject
      if implied.isEmpty && schemas.any (·.isExtension) then none else some (implied ++ added)
    | [one] => some (one.roots ++ added)
    | _ => none
  found.filter fun roots => isNodup (roots.map (·.1))

namespace Schema

/-- The schema that a document defines. -/
def ofDocument? (document : Document) : Option Schema := do
  let defined := definedTypes document
  let extensions := typeExtensions document
  if isExecutable document then none
  if !isNodup (defined.map (·.name)) then none
  if !isNodup ((directiveDefinitions document).map (·.name)) then none
  if !(extensions.all fun e => defined.any (·.name == e.name)) then none
  let types ← defined.mapM (·.merged? extensions)
  let roots ← roots? (schemaDefinitions document) types
  return ⟨types, roots⟩

/-- The schema that a text defines. -/
def parse? (text : String) : Option Schema := do
  ofDocument? (← Document.parse? text.toList)

/-- The type at which an operation starts. -/
def root? (schema : Schema) (kind : OperationKind) : Option String :=
  (schema.roots.find? (·.1 == kind)).map (·.2)

/-- The body of a type. -/
def body? (schema : Schema) (name : String) : Option TypeBody :=
  (schema.types.find? (·.name == name)).map (·.body)

/-- The fields that a type declares. -/
def declaredFields : TypeBody → List FieldDefinition
  | .object _ fields | .interface _ fields => fields
  | _ => []

/-- Whether values of a type know the name of their type. -/
def knowsTypeName : TypeBody → Bool
  | .object _ _ | .interface _ _ | .union _ => true
  | _ => false

/-- The type of a field of a type.  The type at which queries start also
has fields that describe the schema. -/
def fieldType? (schema : Schema) (type field : String) : Option TypeReference := do
  let body ← schema.body? type
  match (declaredFields body).find? (·.name == field) with
  | some declared => some declared.type
  | none =>
    let isQueryRoot := schema.root? .query == some type
    if field == "__typename" && knowsTypeName body then some (nonNull "String")
    else if field == "__schema" && isQueryRoot then some (nonNull "__Schema")
    else if field == "__type" && isQueryRoot then some (nullable "__Type")
    else none

/-- Whether a type has a field. -/
def hasField (schema : Schema) (type field : String) : Bool :=
  (schema.fieldType? type field).isSome

end Schema

end GraphMigrate.Document
