/-
The names that mark schema definitions.

Definitions are recognised by the names of constructors, helpers and
types.  A project that wraps them in its own helpers extends the lists.

* `Vocabulary`: the lists, with the usual names as defaults;
* `Vocabulary.declarationKind?`: what a variable of a named type
  defines; the lists are tried in order.
-/
namespace GraphMigrate

/-- What a variable with a recognised type annotation defines. -/
inductive DeclarationKind where
  | outputFieldMap
  | inputFieldMap
  | argumentMap
  | fieldConfig
  | mutationConfig
  deriving DecidableEq, Repr

/-- The names that mark schema definitions. -/
structure Vocabulary where
  /-- Constructors whose `fields` are output fields. -/
  objectTypes : List String := ["GraphQLObjectType", "GraphQLInterfaceType"]
  /-- Constructors whose `fields` are input fields. -/
  inputObjectTypes : List String := ["GraphQLInputObjectType"]
  /-- Constructors whose `values` are enum values. -/
  enumTypes : List String := ["GraphQLEnumType"]
  /-- Constructors that wrap a type into a list. -/
  listTypes : List String := ["GraphQLList"]
  /-- Calls that take a mutation configuration first. -/
  mutationHelpers : List String := ["mutationWithClientMutationId"]
  /-- Calls that wrap an argument map. -/
  argumentDecorators : List String := ["pageable"]
  /-- Types of output field maps. -/
  fieldConfigMapTypes : List String := ["GraphQLFieldConfigMap"]
  /-- Types of input field maps. -/
  inputFieldConfigMapTypes : List String := ["GraphQLInputFieldConfigMap"]
  /-- Types of argument maps. -/
  argumentMapTypes : List String := ["GraphQLFieldConfigArgumentMap"]
  /-- Types of single field configurations. -/
  fieldConfigTypes : List String := ["GraphQLFieldConfig"]
  /-- Types of mutation configurations. -/
  mutationConfigTypes : List String := ["MutationConfig"]
  /-- Generic types that stand for a function returning their argument. -/
  thunkTypes : List String := ["Thunk"]
  deriving DecidableEq, Repr, Inhabited

namespace Vocabulary

/-- What a variable of a named type defines. -/
def declarationKind? (v : Vocabulary) (typeName : String) : Option DeclarationKind :=
  if v.fieldConfigMapTypes.contains typeName then some .outputFieldMap
  else if v.inputFieldConfigMapTypes.contains typeName then some .inputFieldMap
  else if v.argumentMapTypes.contains typeName then some .argumentMap
  else if v.fieldConfigTypes.contains typeName then some .fieldConfig
  else if v.mutationConfigTypes.contains typeName then some .mutationConfig
  else none

end Vocabulary

end GraphMigrate
