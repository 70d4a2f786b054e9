/-
Loading settings.

The notation follows from the extension of the path.  Settings that can
be read are then checked: a setting that would make every migration fail
or do nothing is refused.

* `Settings.check`: what is wrong with settings;
* `SettingsError`: why settings cannot be loaded, and its wording;
* `Settings.load`: the settings in a text.
-/
import GraphMigrate.Data.Json
import GraphMigrate.Data.Yaml.Reader
import GraphMigrate.Settings.Decode

namespace GraphMigrate

/-- What is wrong with settings. -/
inductive SettingsFault where
  | noTags
  | badTag (tag : String)
  | noExtensions
  | badExtension (extension : String)
  | badPattern (pattern : String) (cause : GlobError)
  | emptySchema
  | emptyPlaceholder
  | emptyRename
  deriving DecidableEq, Repr

namespace SettingsFault

/-- The wording of a fault. -/
def message : SettingsFault → String
  | noTags => "`tags` must name at least one template tag"
  | badTag tag => "Tag '" ++ tag ++ "' is not a valid identifier"
  | noExtensions => "`extensions` must not be empty"
  | badExtension extension =>
    "Extension '" ++ extension ++ "' must be given without the leading dot"
  | badPattern pattern cause =>
    "Invalid ignore pattern '" ++ pattern ++ "': " ++ cause.message
  | emptySchema => "`schema` must not be empty"
  | emptyPlaceholder => "`ids.placeholder` must not be empty"
  | emptyRename => "Every `ids.rules` entry needs a `rename` field"

end SettingsFault

/-- Why settings cannot be loaded. -/
inductive SettingsError where
  | unsupported (path : String)
  | unreadable (path : String) (format : Format)
  | invalid (path : String) (fault : SettingsFault)
  deriving DecidableEq, Repr

namespace SettingsError

/-- The wording of an error. -/
def message : SettingsError → String
  | unsupported path => "Unsupported config format: " ++ path
  | unreadable path .json => "Invalid config in " ++ path ++ ": JSON parse error"
  | unreadable path .yaml => "Invalid config in " ++ path ++ ": YAML parse error"
  | invalid path fault => "Invalid config in " ++ path ++ ": " ++ fault.message

end SettingsError

namespace Settings

/-! ### Checking -/

/-- Characters that start a tag. -/
def isTagStart (c : Char) : Bool := c.isAlpha || c == '_' || c == '$'

/-- Characters that continue a tag. -/
def isTagPart (c : Char) : Bool := c.isAlphanum || c == '_' || c == '$'

/-- A name that can be the tag of a template. -/
def isTag (text : String) : Bool :=
  match text.toList with
  | [] => false
  | c :: cs => isTagStart c && cs.all isTagPart

/-- An extension without a dot in front. -/
def isExtension (text : String) : Bool :=
  match text.toList with
  | [] => false
  | c :: _ => c != '.'

/-- A text of white space alone. -/
def isBlankText (text : String) : Bool := (trim text.toList).isEmpty

/-- The fault of a list of tags. -/
def tagFault? (tags : List String) : Option SettingsFault :=
  if tags.isEmpty then some .noTags else (tags.find? (!isTag ·)).map .badTag

/-- The fault of a list of extensions. -/
def extensionFault? (extensions : List String) : Option SettingsFault :=
  if extensions.isEmpty then some .noExtensions
  else (extensions.find? (!isExtension ·)).map .badExtension

/-- The fault of a list of patterns. -/
def patternFault? (patterns : List String) : Option SettingsFault :=
  patterns.findSome? fun pattern =>
    match Glob.parse pattern with
    | .ok _ => none
    | .error cause => some (.badPattern pattern cause)

/-- The fault of a path of the schema. -/
def schemaFault? (schema : Option String) : Option SettingsFault :=
  if schema == some "" then some .emptySchema else none

/-- The fault of a policy. -/
def policyFault? (policy : IdPolicy) : Option SettingsFault :=
  if isBlankText policy.placeholder then some .emptyPlaceholder
  else if policy.rules.any (isBlankText ·.rename) then some .emptyRename
  else none

/-- The first fault of settings. -/
def fault? (settings : Settings) : Option SettingsFault :=
  (tagFault? settings.tags) <|> (extensionFault? settings.extensions)
    <|> (patternFault? settings.ignore) <|> (schemaFault? settings.schema)
    <|> (policyFault? settings.ids)

/-- Settings without a fault. -/
def check (path : String) (settings : Settings) : Except SettingsError Settings :=
  match settings.fault? with
  | some fault => .error (.invalid path fault)
  | none => .ok settings

/-! ### Loading -/

/-- The notation of files with an extension. -/
def format? : String → Option Format
  | "yml" | "yaml" => some .yaml
  | "json" => some .json
  | _ => none

/-- The plain data in a text.  A blank text stands for nothing in YAML. -/
def data? (format : Format) (contents : String) : Option Data :=
  match format with
  | .json => Json.read? contents.toList
  | .yaml => if isBlankText contents then some .null else Yaml.read? contents.toList

/-- The settings in the text of a file. -/
def load (path contents : String) : Except SettingsError Settings :=
  match format? ((Path.extension? path).getD "") with
  | none => .error (.unsupported path)
  | some format =>
    match (data? format contents).bind (ofData? format) with
    | none => .error (.unreadable path format)
    | some settings => settings.check path

end Settings

end GraphMigrate
