/-
Names of schema definitions.

Fields, arguments and input fields in snake case get names in camel
case, while the code behind them goes on to see the old names: a renamed
field without a resolver gets one that reads the old property, and a
resolver that consumes renamed arguments or inputs has its parameter
rewritten, so that its body needs no change.

* `Rename`, `plan`: the keys of a map that are renamed.  A name that is
  taken by another key, or given to one, is not given again;
* `fieldDraft`: a renamed output field;
* `patternEdits`: a parameter that takes arguments apart;
* `parameterEdits`: a parameter that holds all arguments under one name
  is taken apart, and put together again at the start of the body;
* `renameDefinitions`: the migration.
-/
import GraphMigrate.Migration.Basic
import GraphMigrate.Naming
import GraphMigrate.Rewriting.Entry
import GraphMigrate.Rewriting.Key

namespace GraphMigrate

open Naming (camelize needsCamelize)

/-! ### Planning -/

/-- A field and the name that it gets. -/
structure Rename where
  field : NamedEntry
  newName : String
  deriving Repr

/-- The renames of a map and notes on the names that stay. -/
structure Plan where
  renames : List Rename := []
  notes : List Diagnostic := []
  deriving Repr, Inhabited

namespace Plan

/-- A plan with a note in front. -/
def note (diagnostic : Diagnostic) (plan : Plan) : Plan :=
  { plan with notes := diagnostic :: plan.notes }

/-- A plan with a rename in front. -/
def rename (rename : Rename) (plan : Plan) : Plan :=
  { plan with renames := rename :: plan.renames }

end Plan

/-- The note on a field whose new name is taken. -/
def collisionNote (kind : MapKind) (field : NamedEntry) (newName : String) : Diagnostic :=
  .warning
    ("Skipping renaming `" ++ field.key ++ "` as another " ++ kind.display
      ++ " by the name of `" ++ newName
      ++ "` already exists and is presumed to supersede it")
    field.span

/-- Plans the renames of fields, given the names that are taken. -/
def planFrom (kind : MapKind) (taken : List String) : List NamedEntry → Plan
  | [] => {}
  | f :: fs =>
    if kind == .output && f.key == "__id" then
      (planFrom kind taken fs).note (.info "Skipping `__id` field" f.span)
    else if !needsCamelize f.key then planFrom kind taken fs
    else
      let newName := camelize f.key
      if taken.contains newName then
        (planFrom kind taken fs).note (collisionNote kind f newName)
      else
        (planFrom kind (newName :: taken.filter (· != f.key)) fs).rename ⟨f, newName⟩

/-- Plans the renames of a map. -/
def plan (map : FieldMap) : Plan := planFrom map.kind (map.fields.map (·.key)) map.fields

/-! ### Output fields -/

/-- The property that reads the old name of a field from its object. -/
def sourceResolver (oldName : String) : String :=
  "resolve: (\x7b " ++ oldName ++ " \x7d) => " ++ oldName

/-- Gives a renamed field a resolver, unless it has one. -/
def resolverDraft (text : List Char) (rename : Rename) : Draft :=
  let oldName := rename.field.key
  match rename.field.value with
  | .config config =>
    if config.resolve.isNone then
      .ofEdits [appendProperty text config.span config.properties (sourceResolver oldName)]
    else .empty
  | value =>
    .info
      ("Skipping addition of resolver for `" ++ oldName
        ++ "` as its config is not defined inline")
      value.span

/-- The edit of the key of a renamed field. -/
def Rename.edit (rename : Rename) : Edit := renameKey rename.field rename.newName

/-- The draft for a renamed output field. -/
def fieldDraft (text : List Char) (rename : Rename) : Draft :=
  .ofEdits [rename.edit] ++ resolverDraft text rename

/-- The draft for the output fields of a map. -/
def outputDraft (text : List Char) (map : FieldMap) : Draft :=
  let planned := plan map
  .ofNotes (opaqueNotes map ++ planned.notes)
    ++ .concat (planned.renames.map (fieldDraft text))

/-! ### Resolver parameters -/

/-- The name under which a pattern takes a key after the renames.  A key
that is not in the map comes in through a spread, and is renamed where
it is defined. -/
def patternName? (map : FieldMap) (renames : List Rename) (key : String) : Option String :=
  if needsCamelize key then
    match renames.find? (·.field.key == key) with
    | some rename => some rename.newName
    | none => if map.contains key then none else some (camelize key)
  else
    none

/-- The edit of a property of a pattern whose key is renamed. -/
def patternEdit (property : PatternProperty) (newName : String) : Edit :=
  match property.binding with
  | .shorthand => .insert property.keySpan.start (newName ++ ": ")
  | .renamed => .replace property.keySpan newName

/-- The edits of a parameter that takes arguments apart. -/
def patternEdits (map : FieldMap) (renames : List Rename) (pattern : ObjectParameter) :
    List Edit :=
  pattern.properties.filterMap fun property =>
    (patternName? map renames property.key).map (patternEdit property)

/-- Members between braces. -/
def inBraces (members : List String) : String :=
  "\x7b " ++ String.intercalate ", " members ++ " \x7d"

/-- The members for what keeps its name, if there is anything. -/
def restMembers (map : FieldMap) (renames : List Rename) (name : String) : List String :=
  if renames.length < map.size then ["..." ++ name] else []

/-- The pattern that takes the renamed arguments apart. -/
def argumentPattern (map : FieldMap) (renames : List Rename) (name : String) : String :=
  inBraces (renames.map (·.newName) ++ restMembers map renames ("_" ++ name))

/-- The object that has the renamed arguments under their old names. -/
def rebuiltArguments (map : FieldMap) (renames : List Rename) (name : String) : String :=
  inBraces (renames.map (fun rename => rename.field.key ++ ": " ++ rename.newName)
    ++ restMembers map renames ("_" ++ name))

/-- The statement that declares a parameter under its old name. -/
def redeclaration (language : Language) (map : FieldMap) (renames : List Rename)
    (name : String) : String :=
  "const " ++ name ++ (if language.hasTypes then ": any" else "") ++ " = "
    ++ rebuiltArguments map renames name ++ ";"

/-- The edit that puts a declaration at the start of a body.  A body that
is an expression becomes a block. -/
def declarationEdit (text : List Char) (resolver : Resolver) (declaration : String) : Edit :=
  match resolver.body with
  | .block _ (some first) =>
    .insert first.start (declaration ++ "\n\n" ++ lineIndent text first.start)
  | .block span none => .insert (span.start + 1) (" " ++ declaration ++ " ")
  | .expression span =>
    let indent := lineIndent text resolver.span.start
    .replace span
      ("\x7b\n" ++ indent ++ "  " ++ declaration ++ "\n\n" ++ indent ++ "  return "
        ++ span.sliceText text ++ ";\n" ++ indent ++ "\x7d")

/-- The edits of a parameter that holds all arguments under one name. -/
def parameterEdits (text : List Char) (language : Language) (map : FieldMap)
    (renames : List Rename) (resolver : Resolver) (name : String) (span : Span) : List Edit :=
  [.replace span (argumentPattern map renames name),
    declarationEdit text resolver (redeclaration language map renames name)]

/-- What a resolver is given in a parameter. -/
def MapKind.capturedName : MapKind → String
  | .input => "inputs"
  | _ => "args"

/-- The draft for the parameter of a resolver at a position. -/
def resolverParameterDraft (text : List Char) (language : Language) (map : FieldMap)
    (renames : List Rename) (resolver : Resolver) (position : Nat) :
    Except MigrationError Draft :=
  match resolver.parameters[position]? with
  | none =>
    .ok (.info
      ("Skipping renaming of " ++ map.kind.capturedName
        ++ " as they are not captured as a parameter of the resolver")
      resolver.span)
  | some (.object pattern) => .ok (.ofEdits (patternEdits map renames pattern))
  | some (.name name span) =>
    .ok (.ofEdits (parameterEdits text language map renames resolver name span))
  | some (.other kind span) => .error (.unexpectedParameter kind span.start)

/-- The draft for the function that consumes a map, if there is one. -/
def consumerDraft (text : List Char) (language : Language) (map : FieldMap)
    (renames : List Rename) (consumer : Option ResolverProperty) (position : Nat)
    (opaqueNote : String) : Except MigrationError Draft :=
  match consumer with
  | none => .ok .empty
  | some ⟨_, some resolver⟩ =>
    resolverParameterDraft text language map renames resolver position
  | some ⟨span, none⟩ => .ok (.info opaqueNote span)

/-! ### Arguments -/

/-- The draft for the arguments of a field and the resolver that consumes
them. -/
def argumentsDraft (text : List Char) (language : Language) (config : FieldConfig) :
    Except MigrationError Draft :=
  match config.arguments.bind (·.map?) with
  | none => .ok .empty
  | some map =>
    let planned := plan map
    if planned.renames.isEmpty then .ok (.ofNotes planned.notes)
    else do
      let consumer ← consumerDraft text language map planned.renames config.resolve 1
        "Skipping renaming of args in resolver that is not defined inline"
      return .ofNotes planned.notes ++ .ofEdits (planned.renames.map (·.edit)) ++ consumer

/-- The draft for a map of arguments on its own. -/
def argumentMapDraft (map : FieldMap) : Draft :=
  let planned := plan map
  ⟨planned.renames.map (·.edit), planned.notes⟩

/-! ### Input fields -/

/-- The draft for the function that consumes the inputs of a mutation. -/
def mutationDraft (text : List Char) (language : Language) (inputMaps : List FieldMap)
    (mutation : Mutation) : Except MigrationError Draft :=
  match mutation.inputMap.bind (inputMaps[·]?) with
  | none => .ok .empty
  | some map =>
    let renames := (plan map).renames
    if renames.isEmpty then .ok .empty
    else
      consumerDraft text language map renames mutation.payload 0
        "Skipping renaming of inputs in mutate function that is not defined inline"

/-- A comment with the shapes of the inputs before and after, for code
that passes them on without taking them as a parameter. -/
def inputComment (text : List Char) (map : FieldMap) (renames : List Rename) : String :=
  let indent := lineIndent text map.span.start
  let rest := restMembers map renames "_newFields"
  let newFields := inBraces (renames.map (·.newName) ++ rest)
  let oldFields :=
    inBraces (renames.map (fun rename => rename.newName ++ ": " ++ rename.field.key) ++ rest)
  "/*\n" ++ indent ++ "\x7b\n" ++ indent ++ "  const " ++ newFields ++ " = newFields;\n"
    ++ indent ++ "  const oldFields = " ++ oldFields ++ ";\n" ++ indent ++ "\x7d\n"
    ++ indent ++ "*/"

/-- Notes the input fields of a type that is not built in, whose own
fields the migration does not know. -/
def customInputNotes (map : FieldMap) : List Diagnostic :=
  map.fields.filterMap fun f =>
    match f.value.config?.bind (·.type) with
    | some (.named name span) =>
      if "GraphQL".toList.isPrefixOf name.toList then none
      else some (.info
        ("Skipping renaming of nested input values in mutate function for custom input "
          ++ "object type") span)
    | _ => none

/-- The draft for the input fields of a map. -/
def inputDraft (text : List Char) (map : FieldMap) : Draft :=
  let renames := (plan map).renames
  let comment : List Edit :=
    if renames.isEmpty then [] else [.insert map.span.stop (inputComment text map renames)]
  ⟨renames.map (·.edit) ++ comment, customInputNotes map⟩

/-! ### The migration -/

/-- The draft that renames all definitions of a script. -/
def renameDraft (text : List Char) (language : Language) (definitions : Definitions) :
    Except MigrationError Draft := do
  let arguments ← definitions.outputFieldConfigs.mapM (argumentsDraft text language)
  let mutations ←
    definitions.mutations.mapM (mutationDraft text language definitions.inputMaps)
  return .concat
    ([.ofNotes definitions.diagnostics]
      ++ definitions.outputMaps.map (outputDraft text) ++ arguments
      ++ definitions.argumentMaps.map argumentMapDraft
      ++ definitions.inputMaps.map (fun map => .ofNotes (plan map).notes) ++ mutations
      ++ definitions.inputMaps.map (inputDraft text))

/-- Gives fields, arguments and input fields names in camel case. -/
def renameDefinitions (context : Context) (file : SourceFile) :
    Except MigrationError Outcome := do
  let definitions ← file.definitions context.vocabulary
  let draft ← renameDraft file.chars file.language definitions
  return draft.finish file.text

end GraphMigrate
