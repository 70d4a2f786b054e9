/-
Settings from plain data.

The two notations differ in what they let pass for a record: in JSON the
values of its fields may be listed in their order, in YAML nothing at all
stands for a record without fields, as it does for an empty list.  A field
that is not given has its default; unknown fields count only at the top.

* `Format.record?`: the fields of a record;
* `Settings.ofData?`: the settings that plain data stand for.
-/
import GraphMigrate.Settings.Basic

namespace GraphMigrate

/-- The notations in which settings are written. -/
inductive Format where
  | json
  | yaml
  deriving DecidableEq, Repr

namespace Format

/-- Whether any key stands twice among those that count. -/
def repeats (keys : List String) : Bool :=
  match keys with
  | [] => false
  | key :: later => later.contains key || repeats later

/-- The members of an object that are fields of a record; in YAML no
member may stand twice, in JSON no field. -/
def fields? (format : Format) (names : List String) (members : List (String × Data)) :
    Option (List (String × Data)) :=
  let known := members.filter fun (key, _) => names.contains key
  let counted :=
    match format with
    | .json => known
    | .yaml => members
  if repeats (counted.map (·.1)) then none else some known

/-- The fields of a record that are given. -/
def record? (format : Format) (names : List String) : Data → Option (List (String × Data))
  | .object members => format.fields? names members
  | .list items =>
    if format == .json && items.length ≤ names.length then some (names.zip items) else none
  | .null => if format == .yaml then some [] else none
  | _ => none

/-- A string. -/
def string? : Data → Option String
  | .string content => some content
  | _ => none

/-- A list. -/
def list? (format : Format) : Data → Option (List Data)
  | .list items => some items
  | .null => if format == .yaml then some [] else none
  | _ => none

/-- A list of strings. -/
def strings? (format : Format) (data : Data) : Option (List String) := do
  (← format.list? data).mapM string?

/-- A string that may be missing. -/
def optional? : Data → Option (Option String)
  | .null => some none
  | .string content => some (some content)
  | _ => none

/-- A field of a record, with a default for one that is not given. -/
def field? {α : Type} (fields : List (String × Data)) (name : String)
    (decode? : Data → Option α) (default : α) : Option α :=
  match fields.lookup name with
  | none => some default
  | some data => decode? data

end Format

open Format

namespace Vocabulary

/-- The names of the lists of a vocabulary, in their order. -/
def fieldNames : List String :=
  ["objectTypes", "inputObjectTypes", "enumTypes", "listTypes", "mutationHelpers",
    "argumentDecorators", "fieldConfigMapTypes", "inputFieldConfigMapTypes", "argumentMapTypes",
    "fieldConfigTypes", "mutationConfigTypes", "thunkTypes"]

/-- The vocabulary that plain data stand for. -/
def ofData? (format : Format) (data : Data) : Option Vocabulary := do
  let given ← format.record? fieldNames data
  let names (field : String) (default : List String) : Option (List String) :=
    field? given field format.strings? default
  let usual : Vocabulary := {}
  return {
    objectTypes := ← names "objectTypes" usual.objectTypes
    inputObjectTypes := ← names "inputObjectTypes" usual.inputObjectTypes
    enumTypes := ← names "enumTypes" usual.enumTypes
    listTypes := ← names "listTypes" usual.listTypes
    mutationHelpers := ← names "mutationHelpers" usual.mutationHelpers
    argumentDecorators := ← names "argumentDecorators" usual.argumentDecorators
    fieldConfigMapTypes := ← names "fieldConfigMapTypes" usual.fieldConfigMapTypes
    inputFieldConfigMapTypes := ← names "inputFieldConfigMapTypes" usual.inputFieldConfigMapTypes
    argumentMapTypes := ← names "argumentMapTypes" usual.argumentMapTypes
    fieldConfigTypes := ← names "fieldConfigTypes" usual.fieldConfigTypes
    mutationConfigTypes := ← names "mutationConfigTypes" usual.mutationConfigTypes
    thunkTypes := ← names "thunkTypes" usual.thunkTypes }

end Vocabulary

namespace IdPolicy

/-- The rule that plain data stand for; both of its fields are given. -/
def rule? (format : Format) (data : Data) : Option IdRule := do
  let given ← format.record? ["rename", "requires"] data
  return ⟨← string? (← given.lookup "rename"), ← format.strings? (← given.lookup "requires")⟩

/-- The policy that plain data stand for. -/
def ofData? (format : Format) (data : Data) : Option IdPolicy := do
  let given ← format.record? ["rules", "placeholder"] data
  let usual : IdPolicy := {}
  let rules? (found : Data) : Option (List IdRule) := do
    (← format.list? found).mapM (rule? format)
  return {
    rules := ← field? given "rules" rules? usual.rules
    placeholder := ← field? given "placeholder" string? usual.placeholder }

end IdPolicy

namespace Settings

/-- The names of the settings, in their order. -/
def fieldNames : List String := ["schema", "tags", "vocabulary", "ids", "extensions", "ignore"]

/-- Whether data name a setting that there is not. -/
def namesUnknown : Data → Bool
  | .object members => members.any fun (key, _) => !fieldNames.contains key
  | _ => false

/-- The settings that plain data stand for. -/
def ofData? (format : Format) (data : Data) : Option Settings := do
  if namesUnknown data then none
  let given ← format.record? fieldNames data
  let usual : Settings := {}
  return {
    schema := ← field? given "schema" optional? usual.schema
    tags := ← field? given "tags" format.strings? usual.tags
    vocabulary := ← field? given "vocabulary" (Vocabulary.ofData? format) usual.vocabulary
    ids := ← field? given "ids" (IdPolicy.ofData? format) usual.ids
    extensions := ← field? given "extensions" format.strings? usual.extensions
    ignore := ← field? given "ignore" format.strings? usual.ignore }

end Settings

end GraphMigrate
