/-
Raw response types of test fixtures.

Test helpers render a query against fixture data.  Their queries get a
directive that makes the compiler write the type of the raw response,
and the fixtures are cast to that type, which is imported on top.

* `Helper`, `helpers`: the helpers and the options that they take;
* `requestRawTypes`: the directive on every operation of a document;
* `castDraft`: the cast of a fixture;
* `helperCall`: the draft for one call, and the operations it names;
* `importLines`: the imports that are missing;
* `typeFixtures`: the migration.
-/
import GraphMigrate.Migration.DocumentNames

namespace GraphMigrate

open Script (Node Source Template)

/-- A helper that renders a query against fixture data. -/
structure Helper where
  callee : String
  fixture : String
  /-- An older name of the fixture option. -/
  formerFixture : Option String
  deriving DecidableEq, Repr

/-- The helpers that are known. -/
def helpers : List Helper :=
  [⟨"renderRelayTree", "mockData", some "mockResolvers"⟩, ⟨"createTestEnv", "defaultData", none⟩]

/-! ### Options -/

/-- The name of an option; methods and computed keys have none. -/
def optionName? (source : Source) : Node → Option String
  | .keyed ⟨form, span⟩ _ _ =>
    match form with
    | .name _ | .quoted => some (Source.trimQuotes (source.quote span))
    | .numeral | .computed => none
  | .shorthand _ span => some (source.quote span)
  | _ => none

/-- The first option with a name. -/
def findOption? (source : Source) (options : List Node) (name : String) : Option Node :=
  options.find? fun option => optionName? source option == some name

/-- The template that an option holds. -/
def optionTemplate? (tags : List String) (source : Source) : Node → Option Template
  | .keyed _ _ value => Template.ofNode? tags source value
  | _ => none

/-! ### Documents -/

/-- The directive that requests the type of the raw response. -/
def rawResponseDirective : String := "raw_response_type"

/-- Whether an operation has the directive. -/
def requestsRawType (operation : Document.Operation) : Bool :=
  operation.directives.any (·.name == rawResponseDirective)

/-- An operation with the directive, behind the others if it is new. -/
def requestRawType (operation : Document.Operation) : Document.Operation :=
  if requestsRawType operation then operation
  else { operation with directives := operation.directives ++ [⟨rawResponseDirective, []⟩] }

/-- A definition with the directive, if it is an operation. -/
def requestRawTypeIn : Document.Definition → Document.Definition
  | .operation o => .operation (requestRawType o)
  | other => other

/-- A document with the directive on every operation. -/
def requestRawTypes (document : Document) : Document :=
  ⟨document.definitions.map requestRawTypeIn⟩

/-- The operations of a document. -/
def operations (document : Document) : List Document.Operation :=
  document.definitions.filterMap fun definition =>
    match definition with
    | .operation o => some o
    | _ => none

/-- The names of the operations that have one. -/
def operationNames (document : Document) : List String :=
  (operations document).filterMap (·.name)

/-- Notes the operations without a name. -/
def anonymousNotes (template : Template) (document : Document) : List Diagnostic :=
  ((operations document).filter (·.name.isNone)).map fun _ =>
    .warning "Skipping typing of fixture for anonymous operation" template.span

/-- What is done about a call, and the operations whose types it needs. -/
structure Typing where
  draft : Draft := {}
  operations : List String := []
  deriving Repr, Inhabited

namespace Typing

/-- A typing that goes on with a draft. -/
def andThen (typing : Typing) (draft : Draft) : Typing :=
  { typing with draft := typing.draft ++ draft }

/-- Typings one after another. -/
def concat (typings : List Typing) : Typing :=
  ⟨.concat (typings.map (·.draft)), typings.flatMap (·.operations)⟩

end Typing

/-- Adds the directive to the document of a template.  The type is to be
named after the last operation with a name. -/
def documentTyping (template : Template) (document : Document) : Typing × Option String :=
  let notes := anonymousNotes template document
  let names := operationNames document
  if (operations document).all requestsRawType then
    (⟨.ofNotes notes, names⟩, names.getLast?)
  else
    match templateText? (requestRawTypes document) with
    | none => (⟨.ofNotes notes ++ .warn unprintableNote template.span, []⟩, none)
    | some text => (⟨⟨[.replace template.segment text], notes⟩, names⟩, names.getLast?)

/-- Adds the directive to the query of a helper. -/
def queryTyping (tags : List String) (source : Source) (helper : Helper) (query : Node) :
    Except MigrationError (Typing × Option String) :=
  match optionTemplate? tags source query with
  | none =>
    let note := "Skipping `" ++ helper.callee
      ++ "` call whose query is not a GraphQL tagged template"
    .ok (⟨.warn note query.span, []⟩, none)
  | some template =>
    if template.interpolated then .ok (⟨.warn interpolationNote template.span, []⟩, none)
    else do return documentTyping template (← template.document)

/-! ### Fixtures -/

/-- The name of the type of an operation's raw response. -/
def rawTypeName (operation : String) : String := operation ++ "RawResponse"

/-- The note on a fixture whose type may not be checked by its cast. -/
def looseCastNote : String :=
  "Usage of a value other than an object literal may pass type-checking when it "
    ++ "isn't supposed to, be sure to check that the result is being typed and not as `any`"

/-- The note on a fixture that is no literal, call or name. -/
def oddFixtureNote : String := "Unexpected fixture value type"

/-- Casts the value of a fixture behind its end.  A value with a cast
stays. -/
def castValue (typeName : String) (value : Node) : Draft :=
  match value with
  | .wrapped .cast _ _ _ => .empty
  | .object _ span => .insert span.stop (" as " ++ typeName)
  | .call _ _ _ span | .name _ span =>
    .insert span.stop (" as " ++ typeName) ++ .warn looseCastNote span
  | other => .warn oddFixtureNote other.span

/-- Casts a fixture to the type of an operation's raw response. -/
def castDraft (language : Language) (source : Source) (fixture : Node) (operation : String) :
    Draft :=
  if language.hasTypes then
    match fixture with
    | .shorthand _ span =>
      let name := source.quote span
      .replace span (name ++ ": " ++ name ++ " as " ++ rawTypeName operation)
        ++ .warn looseCastNote span
    | .keyed _ _ value => castValue (rawTypeName operation) value
    | other => .warn oddFixtureNote other.span
  else
    .warn "Skipping typing of fixture in a JavaScript source" fixture.span

/-- The fixture among the options of a helper, with a warning if it goes
by its older name. -/
def fixture? (source : Source) (helper : Helper) (options : List Node) :
    Option (Node × Draft) :=
  match findOption? source options helper.fixture with
  | some option => some (option, .empty)
  | none => do
    let former ← helper.formerFixture
    let option ← findOption? source options former
    let note := "Update deprecated usage of " ++ former ++ " to use " ++ helper.fixture
      ++ " instead!"
    return (option, .warn note option.span)

/-! ### Calls -/

/-- What is done about a call of a helper with options. -/
def optionsTyping (context : Context) (language : Language) (source : Source)
    (helper : Helper) (options : List Node) (offset : Nat) : Except MigrationError Typing :=
  match findOption? source options "query" with
  | none => .error (.missingOption "query" helper.callee offset)
  | some query => do
    match ← queryTyping context.tags source helper query with
    | (typing, none) => return typing
    | (typing, some operation) =>
      match fixture? source helper options with
      | none => .error (.missingOption helper.fixture helper.callee offset)
      | some (fixture, note) =>
        return (typing.andThen note).andThen (castDraft language source fixture operation)

/-- The helper that a node calls, with the arguments and the start of the
call. -/
def calledHelper? : Node → Option (Helper × List Node × Nat)
  | .call (.name callee _) arguments _ span =>
    (helpers.find? (·.callee == callee)).map fun helper => (helper, arguments, span.start)
  | _ => none

/-- What is done about a node that may be a call of a helper. -/
def helperCall (context : Context) (language : Language) (source : Source) (node : Node) :
    Except MigrationError Typing :=
  match calledHelper? node with
  | none => .ok {}
  | some (helper, arguments, offset) =>
    match arguments.head?.map Locator.argumentValue with
    | some (.object options _) => optionsTyping context language source helper options offset
    | _ => .error (.expectedOptions helper.callee offset)

/-! ### Imports -/

/-- The names that a script imports one by one. -/
def importedNames (source : Source) : List String :=
  source.script.items.flatMap fun item =>
    match item with
    | .imports names _ => names
    | _ => []

/-- A list without its repetitions; of equal members the first stays. -/
def distinct (names : List String) : List String :=
  names.foldl (fun found name => if found.contains name then found else found ++ [name]) []

/-- The line that imports the type of an operation's raw response. -/
def importLine (operation : String) : String :=
  "import \x7b " ++ rawTypeName operation ++ " \x7d from \"__generated__/" ++ operation
    ++ ".graphql\";\n"

/-- The operations whose types are not imported, the last one first. -/
def missingImports (imported operations : List String) : List String :=
  (distinct operations.reverse).filter fun operation =>
    !imported.contains (rawTypeName operation)

/-- The imports that are missing. -/
def importLines (imported operations : List String) : String :=
  String.join ((missingImports imported operations).map importLine)

/-- The draft that adds imports on top of a script. -/
def importDraft (imported operations : List String) : Draft :=
  let lines := importLines imported operations
  if lines.isEmpty then .empty else .insert 0 lines

/-! ### The migration -/

/-- Types the fixtures of test helpers. -/
def typeFixtures (context : Context) (file : SourceFile) : Except MigrationError Outcome := do
  let source ← file.parse
  let typings ← source.script.preorder.mapM (helperCall context file.language source)
  let typing := Typing.concat typings
  let draft := typing.draft ++ importDraft (importedNames source) typing.operations
  return draft.finish file.text

end GraphMigrate
