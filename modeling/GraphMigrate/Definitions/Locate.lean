/-
Finding schema definitions in a script.

Every node of a script is visited in order, and the ones that define
something are analysed where they stand:

* constructor calls of object, interface, input and enum types, with
  the fields or values written out or returned by a function;
* calls of mutation helpers;
* variables with a recognised type annotation.

Parentheses, casts and the like around a value do not count.  A
definition that cannot be followed leaves a warning; one whose shape is
not understood stops the search.

* `LocateError`: the shapes that stop the search, and their wording;
* `Locator.fieldMap`, `Locator.fieldConfig`, `Locator.argumentsSource`:
  maps and configurations, which contain each other;
* `Locator.visit`, `locate`: one node, and a whole script.
-/
import GraphMigrate.Definitions.Model
import GraphMigrate.Definitions.Vocabulary
import GraphMigrate.Script.Source

namespace GraphMigrate

open Script (Node Source)

/-- Shapes of definitions that are not guessed at. -/
inductive LocateError where
  | expectedConfigObject (callee : String) (offset : Nat)
  | missingProperty (property callee : String) (offset : Nat)
  | unknownPropertyKind (kind : String) (offset : Nat)
  deriving DecidableEq, Repr

namespace LocateError

/-- Where the offending node starts. -/
def offset : LocateError → Nat
  | expectedConfigObject _ o | missingProperty _ _ o | unknownPropertyKind _ o => o

/-- The wording of an error. -/
def message : LocateError → String
  | expectedConfigObject callee o =>
    "Expected a config object as first argument of `" ++ callee ++ "` (byte " ++ toString o ++ ")"
  | missingProperty property callee o =>
    "Missing `" ++ property ++ "` property in `" ++ callee ++ "` config (byte " ++ toString o ++ ")"
  | unknownPropertyKind kind o =>
    "Unknown property type `" ++ kind ++ "` (byte " ++ toString o ++ ")"

end LocateError

/-- The span of a property; the modifiers of a method do not count. -/
def propertySpan : Node → Span
  | .method key _ _ _ _ s => ⟨key.span.start, s.stop⟩
  | n => n.span

/-- The name of an expression that is a name or ends in a member's. -/
def expressionName? (n : Node) : Option String :=
  match n.unwrap with
  | .name text _ => some text
  | .member _ field _ _ => field
  | _ => none

/-- The properties of a block's last statement when that returns an
object literal, with the span of the literal. -/
def returnedObject? : Node → Option (List Node × Span)
  | .block statements _ =>
    match statements.getLast? with
    | some (.ret (some value) _) =>
      match value.unwrap with
      | .object properties s => some (properties, s)
      | _ => none
    | _ => none
  | _ => none

/-- The value of a property that was looked up by its key. -/
inductive PropertyValue where
  | expression (value : Node)
  | name (text : String) (span : Span)
  | method (parameters : List Node) (body : Option Node) (span : Span)

namespace Locator

/-- What the search works with. -/
structure Setting where
  source : Source
  vocabulary : Vocabulary

/-- A step of the search: it adds to what was found or stops. -/
abbrev Search := ReaderT Setting (StateT Definitions (Except LocateError))

/-- Stops the search. -/
def stop {α : Type} (e : LocateError) : Search α := fun _ _ => .error e

/-- Leaves a warning. -/
def warn (message : String) (span : Span) : Search Unit :=
  modify fun d => { d with diagnostics := d.diagnostics ++ [.warning message span] }

/-- The first property with a name, among those that hold a value. -/
def findProperty? (source : Source) (name : String) : List Node → Option (Span × PropertyValue)
  | [] => none
  | p :: ps =>
    let found : Option PropertyValue :=
      match p with
      | .keyed key _ value =>
        if source.keyName? key == some name then some (.expression value) else none
      | .shorthand text s => if text == name then some (.name text s) else none
      | .method key _ parameters body _ s =>
        if source.keyName? key == some name then some (.method parameters body s) else none
      | _ => none
    match found with
    | some value => some (propertySpan p, value)
    | none => findProperty? source name ps

/-- How the callee of a call is named in messages: as it is written. -/
def calleeLabel (source : Source) : Node → String
  | .keyword word _ => word
  | callee => source.quote callee.span

/-! ### Resolvers -/

/-- The property of an object pattern, unless its key is computed. -/
def patternProperty? (source : Source) : Node → Option PatternProperty
  | .patternKeyed key _ _ =>
    (source.keyName? key).map fun name => ⟨name, key.span, .renamed⟩
  | .patternName text s _ => some ⟨text, s, .shorthand⟩
  | _ => none

/-- Whether a pattern property takes the rest. -/
def isPatternRest : Node → Bool
  | .patternRest _ _ => true
  | _ => false

/-- What an unusual parameter is called in messages. -/
def patternKindName : Script.PatternKind → String
  | .withDefault => "default value"
  | .array => "array pattern"
  | .rest => "rest element"
  | .expression => "expression"

/-- A parameter of a function.  A name reaches to the end of its type
annotation; decorators do not count. -/
def parameter (source : Source) : Node → Parameter
  | .binding text s none => .name text s
  | .binding text s (some typing) => .name text ⟨s.start, typing.span.stop⟩
  | .objectPattern properties _ s =>
    .object ⟨s, properties.filterMap (patternProperty? source), properties.any isPatternRest⟩
  | .pattern kind _ s => .other (patternKindName kind) s
  | .decorated _ inner => parameter source inner
  | n => .other "expression" n.span

/-- The body of a function whose statements stand in braces. -/
def blockBody : Node → ResolverBody
  | .block statements s => .block s (statements.head?.map Node.span)
  | n => .block n.span none

/-- A function written with its statements in braces; without a body
there is none. -/
def functionResolver? (source : Source) (parameters : List Node) (body : Option Node)
    (s : Span) : Option Resolver :=
  body.map fun b => ⟨s, parameters.map (parameter source), blockBody b⟩

/-- The function that an expression is. -/
def resolver? (source : Source) (n : Node) : Option Resolver :=
  match n.unwrap with
  | .arrow parameters body _ s =>
    let inside : ResolverBody :=
      match body with
      | .block _ _ => blockBody body
      | e => .expression e.span
    some ⟨s, parameters.map (parameter source), inside⟩
  | .function parameters body _ s => functionResolver? source parameters body s
  | _ => none

/-- The function that the value of a property is. -/
def PropertyValue.resolver? (source : Source) : PropertyValue → Option Resolver
  | .expression value => Locator.resolver? source value
  | .method parameters body s => functionResolver? source parameters body s
  | .name _ _ => none

/-- The value of the property `type`. -/
def typeExpression (setting : Setting) (n : Node) : TypeExpression :=
  match n.unwrap with
  | .construct callee _ _ s =>
    if (expressionName? callee).any setting.vocabulary.listTypes.contains then .list s
    else .other s
  | .name text s => .named text s
  | e => .other e.span

/-! ### Maps and configurations -/

/-- The message about a map that is not written out. -/
def skippingArguments : String :=
  "Skipping args that are not defined as an object expression"

mutual

/-- The entries of a map, property by property. -/
def entries (kind : MapKind) : List Node → Search (List MapEntry)
  | [] => return []
  | p :: ps => do
    let e ← entry kind p
    let es ← entries kind ps
    return e :: es

/-- The entry that a property of a map makes. -/
def entry (kind : MapKind) : Node → Search MapEntry
  | .spread dots value => do
    let span : Span := ⟨dots, value.span.stop⟩
    let label := (← read).source.quote value.span
    warn ("Skipping spread of `" ++ label ++ "`") span
    return .spread label span
  | .keyed key _ value => do
    let span : Span := ⟨key.span.start, value.span.stop⟩
    match (← read).source.keyName? key with
    | none =>
      warn ("Skipping " ++ kind.display ++ " with a computed key") span
      return .computed span
    | some name =>
      let value ← fieldValue value
      return .field name key.span false span value
  | .shorthand text s => return .field text s true s (.reference text s)
  | .method key _ _ _ _ _ => stop (.unknownPropertyKind "method" key.span.start)
  | .accessor .getter _ _ _ s => stop (.unknownPropertyKind "getter" s.start)
  | .accessor .setter _ _ _ s => stop (.unknownPropertyKind "setter" s.start)
  | .assigned _ s _ => stop (.unknownPropertyKind "assignment" s.start)
  | n => return .computed n.span

/-- The value of a named entry. -/
def fieldValue : Node → Search FieldValue
  | .wrapped _ inner _ _ => fieldValue inner
  | .object properties s => do
    return .config (← fieldConfig s (.mk s [] none none none false) properties)
  | .name text s => return .reference text s
  | .call callee _ _ s => do return .call (calleeLabel (← read).source callee) s
  | n => return .other n.span

/-- A configuration, property by property: a later property replaces an
earlier one of the same name. -/
def fieldConfig (s : Span) (config : FieldConfig) : List Node → Search FieldConfig
  | [] => return config
  | p :: ps => do
    let config ← configProperty config p
    fieldConfig s config ps

/-- A configuration with one more property. -/
def configProperty : FieldConfig → Node → Search FieldConfig
  | .mk s properties type arguments resolve deprecated, .keyed key _ value => do
    let setting ← read
    let span : Span := ⟨key.span.start, value.span.stop⟩
    let name := setting.source.keyName? key
    let properties := properties ++ [⟨name, span⟩]
    if name == some "type" then
      return .mk s properties (some (typeExpression setting value)) arguments resolve deprecated
    else if name == some "args" then
      let found ← argumentsSource value
      return .mk s properties type (some found) resolve deprecated
    else if name == some "resolve" then
      let found : ResolverProperty := ⟨span, resolver? setting.source value⟩
      return .mk s properties type arguments (some found) deprecated
    else if name == some "deprecationReason" then
      return .mk s properties type arguments resolve true
    else
      return .mk s properties type arguments resolve deprecated
  | .mk s properties type arguments resolve deprecated, .shorthand text span => do
    let properties := properties ++ [⟨some text, span⟩]
    if text == "type" then
      return .mk s properties (some (.named text span)) arguments resolve deprecated
    else if text == "args" then
      return .mk s properties type (some (.reference text span)) resolve deprecated
    else if text == "resolve" then
      return .mk s properties type arguments (some ⟨span, none⟩) deprecated
    else if text == "deprecationReason" then
      return .mk s properties type arguments resolve true
    else
      return .mk s properties type arguments resolve deprecated
  | .mk s properties type arguments resolve deprecated,
      .method key _ parameters body _ function => do
    let source := (← read).source
    let span : Span := ⟨key.span.start, function.stop⟩
    let name := source.keyName? key
    let properties := properties ++ [⟨name, span⟩]
    if name == some "resolve" then
      let found : ResolverProperty := ⟨span, functionResolver? source parameters body function⟩
      return .mk s properties type arguments (some found) deprecated
    else
      return .mk s properties type arguments resolve deprecated
  | .mk s properties type arguments resolve deprecated, n => do
    let source := (← read).source
    let name : Option String :=
      match n with
      | .accessor _ key _ _ _ => source.keyName? key
      | .assigned text _ _ => some text
      | _ => none
    return .mk s (properties ++ [⟨name, propertySpan n⟩]) type arguments resolve deprecated

/-- Where the arguments of a field come from.  A recognised decorator
stands for its first argument. -/
def argumentsSource : Node → Search FieldsSource
  | .wrapped _ inner _ _ => argumentsSource inner
  | .object properties s => do
    return .inline (.mk .arguments s (← entries .arguments properties))
  | .name text s => do
    warn skippingArguments s
    return .reference text s
  | .call callee arguments _ s => do
    let setting ← read
    if (expressionName? callee).any setting.vocabulary.argumentDecorators.contains then
      match arguments with
      | [] =>
        warn skippingArguments s
        return .unsupported s
      | .spread _ _ :: _ =>
        warn skippingArguments s
        return .unsupported s
      | first :: _ => argumentsSource first
    else
      warn skippingArguments s
      return .call (calleeLabel setting.source callee) s
  | n => do
    warn skippingArguments n.span
    return .unsupported n.span

end

/-- A map written as an object literal. -/
def fieldMap (kind : MapKind) (properties : List Node) (s : Span) : Search FieldMap := do
  return .mk kind s (← entries kind properties)

/-- The map that a function returns. -/
def functionSource (kind : MapKind) (body : Option Node) (s : Span) : Search FieldsSource :=
  match body.bind returnedObject? with
  | some (properties, t) => do return .deferred (← fieldMap kind properties t)
  | none => return .unsupported s

/-- The map that an arrow function returns. -/
def arrowSource (kind : MapKind) (body : Node) (s : Span) : Search FieldsSource :=
  let found : Option (List Node × Span) :=
    match body with
    | .block _ _ => returnedObject? body
    | e =>
      match e.unwrap with
      | .object properties t => some (properties, t)
      | _ => none
  match found with
  | some (properties, t) => do return .deferred (← fieldMap kind properties t)
  | none => return .unsupported s

/-- Where a map comes from that may be returned by a function. -/
def thunkSource (kind : MapKind) (n : Node) : Search FieldsSource :=
  match n.unwrap with
  | .object properties s => do return .inline (← fieldMap kind properties s)
  | .arrow _ body _ s => arrowSource kind body s
  | .function _ body _ s => functionSource kind body s
  | .name text s => return .reference text s
  | .call callee _ _ s => do return .call (calleeLabel (← read).source callee) s
  | e => return .unsupported e.span

/-- Where the map comes from that a property holds. -/
def fieldsSource (kind : MapKind) : PropertyValue → Search FieldsSource
  | .expression value => thunkSource kind value
  | .name text s => return .reference text s
  | .method _ body s => functionSource kind body s

/-! ### Definitions -/

/-- Leaves a warning about fields that cannot be followed. -/
def reportUnfollowed : FieldsSource → Search Unit
  | .inline _ | .deferred _ => return
  | .reference _ s => warn "Skipping fields declared as variable reference" s
  | .call _ s | .unsupported s =>
    warn "Skipping fields that do not hold either an object or a thunk returning one" s

/-- Adds an output map; the answer is its place. -/
def addOutputMap (found : FieldsSource) : Search (Option Nat) := do
  reportUnfollowed found
  match found.map? with
  | none => return none
  | some map =>
    let place := (← get).outputMaps.length
    modify fun d => { d with outputMaps := d.outputMaps ++ [map] }
    return some place

/-- Adds an input map; the answer is its place. -/
def addInputMap (found : FieldsSource) : Search (Option Nat) := do
  reportUnfollowed found
  match found.map? with
  | none => return none
  | some map =>
    let place := (← get).inputMaps.length
    modify fun d => { d with inputMaps := d.inputMaps ++ [map] }
    return some place

/-- What a recognised constructor defines, and the property that holds it. -/
def constructorKind? (v : Vocabulary) (callee : String) : Option (MapKind × String) :=
  if v.objectTypes.contains callee then some (.output, "fields")
  else if v.inputObjectTypes.contains callee then some (.input, "fields")
  else if v.enumTypes.contains callee then some (.enumValues, "values")
  else none

/-- An argument without the dots that may stand before it. -/
def argumentValue : Node → Node
  | .spread _ value => value
  | n => n

/-- Analyses a constructor call. -/
def constructorCall (callee : Node) (arguments : List Node) (s : Span) : Search Unit := do
  let setting ← read
  match expressionName? callee with
  | none => return
  | some name =>
    match constructorKind? setting.vocabulary name with
    | none => return
    | some (kind, property) =>
      match arguments.head?.map fun a => (argumentValue a).unwrap with
      | some (.object properties _) =>
        match findProperty? setting.source property properties with
        | none => stop (.missingProperty property name s.start)
        | some (_, value) =>
          let found ← fieldsSource kind value
          match kind with
          | .enumValues =>
            modify fun d => { d with enumValues := d.enumValues ++ [found] }
          | .input => discard (addInputMap found)
          | .output | .arguments => discard (addOutputMap found)
      | _ => stop (.expectedConfigObject name s.start)

/-- Analyses a mutation configuration written as an object literal. -/
def mutationConfig (properties : List Node) (s : Span) : Search Unit := do
  let source := (← read).source
  let inputMap ←
    match findProperty? source "inputFields" properties with
    | some (_, value) => (do addInputMap (← fieldsSource .input value))
    | none => pure none
  let outputMap ←
    match findProperty? source "outputFields" properties with
    | some (_, value) => (do addOutputMap (← fieldsSource .output value))
    | none => pure none
  let payload := (findProperty? source "mutateAndGetPayload" properties).map
    fun (span, value) => (⟨span, PropertyValue.resolver? source value⟩ : ResolverProperty)
  modify fun d => { d with mutations := d.mutations ++ [⟨s, inputMap, outputMap, payload⟩] }

/-- The message about a mutation configuration that is not written out. -/
def skippingMutation : String :=
  "Skipping mutation config that's not defined as object expression"

/-- Analyses a call of a mutation helper. -/
def mutationHelperCall (callee : Node) (arguments : List Node) (s : Span) : Search Unit := do
  let vocabulary := (← read).vocabulary
  if (expressionName? callee).any vocabulary.mutationHelpers.contains then
    match arguments.head?.map fun a => (argumentValue a).unwrap with
    | some (.object properties t) => mutationConfig properties t
    | some other => warn skippingMutation other.span
    | none => warn "Skipping mutation helper call without a config" s

/-- What a variable with a type annotation defines.  A type that stands
for a function defines what its argument does, if that is a map. -/
def annotatedKind? (v : Vocabulary) : Node → Option DeclarationKind
  | .type (some reference) _ _ =>
    if v.thunkTypes.contains reference.name then
      match reference.argument.bind v.declarationKind? with
      | some .outputFieldMap => some .outputFieldMap
      | some .inputFieldMap => some .inputFieldMap
      | _ => none
    else v.declarationKind? reference.name
  | _ => none

/-- Analyses a variable with a type annotation and a value. -/
def typedDeclaration (name : String) (typing value : Node) : Search Unit := do
  match annotatedKind? (← read).vocabulary typing with
  | none => return
  | some .outputFieldMap => discard (addOutputMap (← thunkSource .output value))
  | some .inputFieldMap => discard (addInputMap (← thunkSource .input value))
  | some .argumentMap =>
    match value.unwrap with
    | .object properties s =>
      let map ← fieldMap .arguments properties s
      modify fun d => { d with argumentMaps := d.argumentMaps ++ [map] }
    | other => warn skippingArguments other.span
  | some .fieldConfig =>
    match value.unwrap with
    | .object properties s =>
      let config ← fieldConfig s (.mk s [] none none none false) properties
      modify fun d => { d with fieldConfigs := d.fieldConfigs ++ [⟨name, config⟩] }
    | _ => return
  | some .mutationConfig =>
    match value.unwrap with
    | .object properties s => mutationConfig properties s
    | other => warn skippingMutation other.span

/-- Analyses a node, if it defines something. -/
def visit : Node → Search Unit
  | .construct callee arguments _ s => constructorCall callee arguments s
  | .call callee arguments _ s => mutationHelperCall callee arguments s
  | .declarator (.binding name _ (some typing)) (some value) _ =>
    typedDeclaration name typing value
  | _ => return

end Locator

/-- The definitions of a script. -/
def locate (vocabulary : Vocabulary) (source : Source) : Except LocateError Definitions := do
  let (_, found) ← ((source.script.preorder.forM Locator.visit).run ⟨source, vocabulary⟩).run {}
  return found

end GraphMigrate
