/-
One way of paginating.

A list that is paginated by arguments of its own gives way to the
connection field beside it: the list is removed, and the connection
takes over its name.

* `isPaginated`, `connection?`: lists with arguments for pagination, and
  the connection field of a list;
* `replacedKeys`: the keys of the lists that are removed;
* `connectionRenames`: the connections that are renamed;
* `unifyPagination`: the migration.
-/
import GraphMigrate.Migration.Basic
import GraphMigrate.Naming
import GraphMigrate.Rewriting.Entry
import GraphMigrate.Rewriting.Key

namespace GraphMigrate

/-- Arguments that paginate a list. -/
def paginationArguments : List String := ["size", "limit"]

/-- Whether arguments that are known paginate a list. -/
def isPaginated (arguments : Option FieldsSource) : Bool :=
  (arguments.bind (·.map?)).any fun map => paginationArguments.any map.contains

/-- The key of the connection field beside a list. -/
def connection? (map : FieldMap) (key : String) : Option String :=
  [key ++ "Connection", key ++ "_connection"].findSome? fun name =>
    (map.get? name).map (·.key)

/-- What becomes of a field. -/
inductive ListVerdict where
  /-- It is no list with arguments for pagination. -/
  | kept
  /-- It is paginated, but nobody can tell whether it is a list. -/
  | unclear (span : Span)
  /-- There is no connection field beside it. -/
  | alone
  /-- A connection field takes its place. -/
  | replaced
  deriving DecidableEq, Repr

/-- Judges a field of a map. -/
def judgeList (map : FieldMap) (field : NamedEntry) : ListVerdict :=
  match field.value with
  | .config config =>
    if isPaginated config.arguments then
      match config.type with
      | some (.list _) => if (connection? map field.key).isSome then .replaced else .alone
      | some other => .unclear other.span
      | none => .unclear config.span
    else
      .kept
  | _ => .kept

/-- The draft for a field that was judged. -/
def listDraft (text : List Char) (field : NamedEntry) : ListVerdict → Draft
  | .kept => .empty
  | .unclear span => .warn "Skipping type not defined as GraphQLList inline" span
  | .alone =>
    .warn ("Skipping removal of `" ++ field.key ++ "` as no connection field exists for it")
      field.span
  | .replaced => .ofEdits [removeEntry text field.span]

/-- Removes the lists that have a connection field. -/
def removeLists (text : List Char) (map : FieldMap) : Draft :=
  .concat (map.fields.map fun f => listDraft text f (judgeList map f))

/-- The keys of the lists that are removed. -/
def replacedKeys (map : FieldMap) : List String :=
  (map.fields.filter fun f => judgeList map f == .replaced).map (·.key)

/-- A field with the name of the list in whose place it steps, and
whether that name is still free. -/
structure ConnectionRename where
  field : NamedEntry
  bare : String
  isFree : Bool
  deriving Repr

/-- The connection fields among fields.  A name that is taken, or goes to
an earlier connection, is not free. -/
def connectionRenames (taken : List String) : List NamedEntry → List ConnectionRename
  | [] => []
  | f :: fs =>
    match Naming.stripConnectionSuffix? f.key with
    | none => connectionRenames taken fs
    | some bare =>
      if taken.contains bare then ⟨f, bare, false⟩ :: connectionRenames taken fs
      else ⟨f, bare, true⟩ :: connectionRenames (bare :: taken) fs

/-- The draft for a connection field. -/
def ConnectionRename.draft (rename : ConnectionRename) : Draft :=
  if rename.isFree then .ofEdits [renameKey rename.field rename.bare]
  else
    .warn "Skipping renaming of connection as a field with the new name exists"
      rename.field.span

/-- The keys of a map that are not removed. -/
def survivingKeys (map : FieldMap) : List String :=
  (map.fields.map (·.key)).filter fun key => !(replacedKeys map).contains key

/-- Renames the connection fields of a map. -/
def renameConnections (map : FieldMap) : Draft :=
  .concat ((connectionRenames (survivingKeys map) map.fields).map (·.draft))

/-- The draft for the output fields of a map. -/
def paginationDraft (text : List Char) (map : FieldMap) : Draft :=
  .ofNotes (opaqueNotes map) ++ removeLists text map ++ renameConnections map

/-- Replaces paginated lists by the connection fields beside them. -/
def unifyPagination (context : Context) (file : SourceFile) : Except MigrationError Outcome := do
  let definitions ← file.definitions context.vocabulary
  let draft := Draft.concat
    (.ofNotes definitions.diagnostics :: definitions.outputMaps.map (paginationDraft file.chars))
  return draft.finish file.text

end GraphMigrate
