/-
Settings of a project.

Every setting has a default, so a project without settings has the
default ones.

* `Settings`: the settings; `Settings.toData`: the same as plain data;
* `Settings.schemaPath`: where the schema is;
* `Settings.isSupported`, `Settings.isIgnored`: which files are migrated;
* `Settings.context`: what migrations are given.
-/
import GraphMigrate.Data.Basic
import GraphMigrate.Migration.Basic
import GraphMigrate.Path
import GraphMigrate.Settings.Glob
import GraphMigrate.Text.Blank

namespace GraphMigrate

/-- The settings of a project. -/
structure Settings where
  /-- Where the schema is, from the place of the settings. -/
  schema : Option String := none
  /-- The tags of templates that hold documents. -/
  tags : List String := ["graphql"]
  vocabulary : Vocabulary := {}
  ids : IdPolicy := {}
  /-- The extensions of files that are migrated, without a dot. -/
  extensions : List String := ["ts", "tsx", "js", "jsx"]
  /-- Patterns of files that are not migrated. -/
  ignore : List String := []
  deriving DecidableEq, Repr, Inhabited

namespace Vocabulary

/-- The lists of a vocabulary by their names. -/
def toData (v : Vocabulary) : Data :=
  .object
    [("objectTypes", .strings v.objectTypes),
      ("inputObjectTypes", .strings v.inputObjectTypes),
      ("enumTypes", .strings v.enumTypes),
      ("listTypes", .strings v.listTypes),
      ("mutationHelpers", .strings v.mutationHelpers),
      ("argumentDecorators", .strings v.argumentDecorators),
      ("fieldConfigMapTypes", .strings v.fieldConfigMapTypes),
      ("inputFieldConfigMapTypes", .strings v.inputFieldConfigMapTypes),
      ("argumentMapTypes", .strings v.argumentMapTypes),
      ("fieldConfigTypes", .strings v.fieldConfigTypes),
      ("mutationConfigTypes", .strings v.mutationConfigTypes),
      ("thunkTypes", .strings v.thunkTypes)]

end Vocabulary

namespace IdPolicy

/-- A rule as plain data. -/
def ruleData (rule : IdRule) : Data :=
  .object [("rename", .string rule.rename), ("requires", .strings rule.required)]

/-- A policy as plain data. -/
def toData (policy : IdPolicy) : Data :=
  .object
    [("rules", .list (policy.rules.map ruleData)), ("placeholder", .string policy.placeholder)]

end IdPolicy

namespace Settings

/-- Settings as plain data. -/
def toData (settings : Settings) : Data :=
  .object
    [("schema", .optional settings.schema), ("tags", .strings settings.tags),
      ("vocabulary", settings.vocabulary.toData), ("ids", settings.ids.toData),
      ("extensions", .strings settings.extensions), ("ignore", .strings settings.ignore)]

/-- Where the schema is if nothing says otherwise. -/
def defaultSchema : String := "data/schema.graphql"

/-- Where the schema is.  An explicit path comes first, then one from the
surroundings unless it is blank, then the one of the settings. -/
def schemaPath (settings : Settings) (base : String) (surrounding explicit : Option String) :
    String :=
  match explicit, surrounding.filter fun path => !(trim path.toList).isEmpty with
  | some path, _ => path
  | none, some path => path
  | none, none => Path.join base (settings.schema.getD defaultSchema)

/-- Whether files with the extension of a path are migrated. -/
def isSupported (settings : Settings) (path : String) : Bool :=
  (Path.extension? path).any settings.extensions.contains

/-- Whether a pattern keeps a path from being migrated. -/
def isIgnored (settings : Settings) (path : String) : Bool :=
  settings.ignore.any fun pattern =>
    match Glob.parse pattern with
    | .ok glob => glob.isMatch path
    | .error _ => false

/-- What migrations are given. -/
def context (settings : Settings) (schema : Option Document.Schema) : Context :=
  { vocabulary := settings.vocabulary, tags := settings.tags, ids := settings.ids, schema }

end Settings

end GraphMigrate
