/-
Settings that are written and read again.

Settings are written as an object with a member for each of them, and read
from the members that are there.  Members with the default value may be left
out, at the top as well as among the lists of the vocabulary and in the
policy, but none may be added at the top.

* `field?_without`: a field is read as it was written, or left out;
* `Vocabulary.ofData?_without`, `IdPolicy.ofData?_without`,
  `Settings.ofData?_abridged`: what is left of vocabularies, policies and
  settings stands for them;
* `Settings.settings_are_read_back`: **settings that load are written as a text
  that loads as them, with any defaults left out, and as none that loads with
  an unknown setting**.
-/
import GraphMigrate.Proofs.Data.WrittenJson
import GraphMigrate.Proofs.Settings.Validity
import Mathlib.Tactic

namespace GraphMigrate

open Format
open Json (depthLimit isPlain read? written)

/-! ### Objects without some members -/

namespace Data

/-- The members of an object. -/
def members : Data → List (String × Data)
  | .object members => members
  | _ => []

/-- An object without the members of some names. -/
def without (left : List String) (data : Data) : Data :=
  .object (data.members.filter fun member => !left.contains member.1)

/-- Two objects have the same members of some names. -/
def Agree (names : List String) (data other : Data) : Prop :=
  ∀ name ∈ names, data.members.lookup name = other.members.lookup name

lemma without_nil {data : Data} : data.without [] = .object data.members := by
  simp [without]

lemma lookup_without (left : List String) (name : String) (data : Data) :
    (data.without left).members.lookup name =
      if name ∈ left then none else data.members.lookup name := by
  rw [without, members]
  generalize data.members = members
  induction members with
  | nil => simp
  | cons member members ih =>
      obtain ⟨key, value⟩ := member
      by_cases hkey : key ∈ left
      · rw [List.filter_cons_of_neg (by simpa using hkey), ih]
        split_ifs with hname
        · rfl
        · have hother : (name == key) = false :=
            beq_false_of_ne fun hsame => hname (hsame ▸ hkey)
          rw [List.lookup_cons, hother]
      · rw [List.filter_cons_of_pos (by simpa using hkey), List.lookup_cons, List.lookup_cons, ih]
        cases hname : name == key with
        | true => exact (if_neg (eq_of_beq hname ▸ hkey)).symm
        | false => rfl

end Data

lemma repeats_eq_false_iff {keys : List String} : repeats keys = false ↔ keys.Nodup := by
  induction keys with
  | nil => simp [repeats]
  | cons key keys ih => simp [repeats, ih]

/-- An object is a record with its members as fields, also where some of them
are left out. -/
lemma record?_without {names : List String} (hnames : names.Nodup) (data : Data)
    (hdata : data.members.map (·.1) = names) (left : List String) :
    Format.json.record? names (data.without left) = some (data.without left).members := by
  have hsub : ((data.without left).members.map (·.1)).Sublist names :=
    hdata ▸ List.filter_sublist.map _
  have hknown : (data.without left).members.filter (fun member => names.contains member.1) =
      (data.without left).members :=
    List.filter_eq_self.mpr fun member hmember =>
      List.contains_iff_mem.mpr (hsub.subset (List.mem_map_of_mem hmember))
  change Format.json.fields? names (data.without left).members = _
  simp only [fields?, hknown, repeats_eq_false_iff.mpr (hsub.nodup hnames)]
  rfl

/-- **A field is read as it was written, or left out.**  The object may hold the
value in a shorter form, as long as that is read as the value too. -/
lemma field?_without {α : Type} {decode? : Data → Option α} {encode : α → Data}
    {left : List String} {data full usual found : Data} {name : String} {a default : α}
    (hencode : ∀ a, decode? (encode a) = some a) (hagree : Data.Agree left full usual)
    (hfull : full.members.lookup name = some (encode a))
    (husual : usual.members.lookup name = some (encode default))
    (hfound : data.members.lookup name = some found) (hdecode : decode? found = some a) :
    field? (data.without left).members name decode? default = some a := by
  rw [field?, Data.lookup_without]
  split_ifs with hname
  · have hsame : encode default = encode a :=
      Option.some.inj (husual.symm.trans ((hagree name hname).symm.trans hfull))
    exact (hencode default).symm.trans (hsame ▸ hencode a)
  · rw [hfound]
    exact hdecode

/-! ### Strings -/

lemma mapM_map_eq_some {α : Type} {decode? : Data → Option α} {encode : α → Data}
    (hencode : ∀ a, decode? (encode a) = some a) (as : List α) :
    (as.map encode).mapM decode? = some as := by
  induction as with
  | nil => rfl
  | cons a as ih =>
      rw [List.map_cons, List.mapM_cons, hencode, ih]
      rfl

lemma string?_string (content : String) : string? (.string content) = some content := rfl

lemma strings?_strings (contents : List String) :
    Format.json.strings? (.strings contents) = some contents := by
  change (contents.map Data.string).mapM string? = some contents
  exact mapM_map_eq_some string?_string contents

lemma optional?_optional (content : Option String) :
    optional? (.optional content) = some content := by
  cases content <;> rfl

/-! ### Vocabularies and policies -/

lemma Vocabulary.ofData?_without {vocabulary : Vocabulary} {left : List String}
    (h : Data.Agree left vocabulary.toData ({} : Vocabulary).toData) :
    ofData? .json (vocabulary.toData.without left) = some vocabulary := by
  have hfield (name : String) (own usual : List String)
      (hown : vocabulary.toData.members.lookup name = some (.strings own))
      (husual : ({} : Vocabulary).toData.members.lookup name = some (.strings usual)) :
      field? (vocabulary.toData.without left).members name Format.json.strings? usual =
        some own :=
    field?_without strings?_strings h hown husual hown (strings?_strings own)
  have hnames : fieldNames.Nodup := by decide
  have hrecord := record?_without hnames vocabulary.toData rfl left
  rw [ofData?, hrecord, Option.bind_eq_bind, Option.bind_some]
  dsimp only
  rw [hfield "objectTypes" _ _ rfl rfl, hfield "inputObjectTypes" _ _ rfl rfl,
    hfield "enumTypes" _ _ rfl rfl, hfield "listTypes" _ _ rfl rfl,
    hfield "mutationHelpers" _ _ rfl rfl, hfield "argumentDecorators" _ _ rfl rfl,
    hfield "fieldConfigMapTypes" _ _ rfl rfl, hfield "inputFieldConfigMapTypes" _ _ rfl rfl,
    hfield "argumentMapTypes" _ _ rfl rfl, hfield "fieldConfigTypes" _ _ rfl rfl,
    hfield "mutationConfigTypes" _ _ rfl rfl, hfield "thunkTypes" _ _ rfl rfl]
  rfl

lemma Vocabulary.ofData?_toData (vocabulary : Vocabulary) :
    ofData? .json vocabulary.toData = some vocabulary := by
  have h : ofData? .json (vocabulary.toData.without []) = some vocabulary :=
    ofData?_without (List.forall_mem_nil _)
  rwa [Data.without_nil] at h

/-- A rule is read as it was written; it has no defaults. -/
lemma IdPolicy.rule?_ruleData (rule : IdRule) : rule? .json (ruleData rule) = some rule := by
  have hrecord : Format.json.record? ["rename", "requires"] (ruleData rule) =
      some (ruleData rule).members := rfl
  have hrename : (ruleData rule).members.lookup "rename" = some (.string rule.rename) := rfl
  have hrequires : (ruleData rule).members.lookup "requires" = some (.strings rule.required) := rfl
  rw [rule?, hrecord]
  simp only [bind, Option.bind_some, hrename, hrequires, string?, strings?_strings]
  rfl

/-- Rules are read as they were written. -/
lemma IdPolicy.rules?_ruleData (rules : List IdRule) :
    ((Format.json.list? (.list (rules.map ruleData))).bind fun found =>
      found.mapM (rule? .json)) = some rules :=
  mapM_map_eq_some rule?_ruleData rules

lemma IdPolicy.ofData?_without {policy : IdPolicy} {left : List String}
    (h : Data.Agree left policy.toData ({} : IdPolicy).toData) :
    ofData? .json (policy.toData.without left) = some policy := by
  have hnames : ["rules", "placeholder"].Nodup := by decide
  have hrecord := record?_without hnames policy.toData rfl left
  have hrules : field? (policy.toData.without left).members "rules"
      (fun data => (Format.json.list? data).bind fun found => found.mapM (rule? .json))
      ({} : IdPolicy).rules = some policy.rules :=
    field?_without rules?_ruleData h rfl rfl rfl (rules?_ruleData policy.rules)
  have hplaceholder : field? (policy.toData.without left).members "placeholder" string?
      ({} : IdPolicy).placeholder = some policy.placeholder :=
    field?_without string?_string h rfl rfl rfl rfl
  rw [ofData?, hrecord]
  simp only [bind, Option.bind_some]
  rw [hrules, hplaceholder]
  rfl

lemma IdPolicy.ofData?_toData (policy : IdPolicy) :
    ofData? .json policy.toData = some policy := by
  have h : ofData? .json (policy.toData.without []) = some policy :=
    ofData?_without (List.forall_mem_nil _)
  rwa [Data.without_nil] at h

/-! ### Settings -/

/-- Names that are left out of settings, of their vocabulary and of their
policy. -/
structure LeftOut where
  settings : List String := []
  vocabulary : List String := []
  ids : List String := []

namespace Settings

/-- What is left out has its default value. -/
structure IsUsualAt (settings : Settings) (left : LeftOut) : Prop where
  agree : Data.Agree left.settings settings.toData ({} : Settings).toData
  agree_vocabulary : Data.Agree left.vocabulary settings.vocabulary.toData ({} : Vocabulary).toData
  agree_ids : Data.Agree left.ids settings.ids.toData ({} : IdPolicy).toData

/-- Settings as plain data without their vocabulary and their policy in full. -/
def shortened (settings : Settings) (left : LeftOut) : Data :=
  .object
    [("schema", .optional settings.schema), ("tags", .strings settings.tags),
      ("vocabulary", settings.vocabulary.toData.without left.vocabulary),
      ("ids", settings.ids.toData.without left.ids),
      ("extensions", .strings settings.extensions), ("ignore", .strings settings.ignore)]

/-- Settings as plain data, with some of them left out. -/
def abridged (settings : Settings) (left : LeftOut) : Data :=
  (settings.shortened left).without left.settings

/-- Nothing is left out. -/
lemma abridged_empty (settings : Settings) : settings.abridged {} = settings.toData := by
  simp only [abridged, shortened, Data.without_nil]
  rfl

lemma namesUnknown_without (data : Data) (hdata : data.members.map (·.1) = fieldNames)
    (left : List String) : namesUnknown (data.without left) = false := by
  have hsub := (List.filter_sublist (p := fun member : String × Data => !left.contains member.1)
    (l := data.members)).map (·.1)
  rw [hdata] at hsub
  simp only [Data.without, namesUnknown, List.any_eq_false, Bool.not_eq_true,
    Bool.not_eq_false', List.contains_iff_mem]
  exact fun member hmember => hsub.subset (List.mem_map_of_mem hmember)

/-- What is left of settings stands for them if it is the default that is left
out. -/
theorem ofData?_abridged {settings : Settings} {left : LeftOut} (h : settings.IsUsualAt left) :
    ofData? .json (settings.abridged left) = some settings := by
  have hnames : fieldNames.Nodup := by decide
  have hrecord := record?_without hnames (settings.shortened left) rfl left.settings
  have hknown := namesUnknown_without (settings.shortened left) rfl left.settings
  rw [ofData?, abridged, hrecord, hknown]
  simp only [bind, Option.bind_some]
  rw [field?_without optional?_optional h.agree rfl rfl rfl (optional?_optional _),
    field?_without strings?_strings h.agree rfl rfl rfl (strings?_strings _),
    field?_without Vocabulary.ofData?_toData h.agree rfl rfl rfl
      (Vocabulary.ofData?_without h.agree_vocabulary),
    field?_without IdPolicy.ofData?_toData h.agree rfl rfl rfl
      (IdPolicy.ofData?_without h.agree_ids),
    field?_without strings?_strings h.agree rfl rfl rfl (strings?_strings _),
    field?_without strings?_strings h.agree rfl rfl rfl (strings?_strings _)]
  rfl

/-! ### Texts -/

lemma isPlain_strings (depth : ℕ) (contents : List String) :
    isPlain (depth + 2) (.strings contents) := by
  simp [Data.strings, isPlain]

lemma isPlain_without {depth : ℕ} {data : Data} (h : isPlain (depth + 1) data)
    (left : List String) : isPlain (depth + 1) (data.without left) := by
  cases data with
  | object members =>
      have hmembers := List.all_eq_true.mp h
      exact List.all_eq_true.mpr fun member hmember =>
        hmembers member (List.mem_of_mem_filter hmember)
  | _ => rfl

lemma isPlain_policy (depth : ℕ) (policy : IdPolicy) : isPlain (depth + 5) policy.toData := by
  simp [IdPolicy.toData, IdPolicy.ruleData, isPlain, isPlain_strings]

lemma isPlain_vocabulary (depth : ℕ) (vocabulary : Vocabulary) :
    isPlain (depth + 3) vocabulary.toData := by
  simp [Vocabulary.toData, isPlain, isPlain_strings]

/-- Settings are nested six deep: a required field is a string in the list of
a rule, which is in the list of the policy. -/
lemma isPlain_abridged (depth : ℕ) (settings : Settings) (left : LeftOut) :
    isPlain (depth + 6) (settings.abridged left) := by
  refine isPlain_without ?_ _
  have hschema : isPlain (depth + 5) (.optional settings.schema) := by
    cases settings.schema <;> rfl
  simp [shortened, isPlain, isPlain_strings, isPlain_without, isPlain_policy, isPlain_vocabulary,
    hschema]

/-- The text of what is left of settings loads as them. -/
lemma load_written_abridged {path : String} {settings : Settings} {left : LeftOut}
    (hpath : HasFormat path .json) (hvalid : settings.IsValid)
    (hleft : settings.IsUsualAt left) :
    load path (written (settings.abridged left)) = .ok settings := by
  refine load_eq_ok_iff.mpr ⟨⟨.json, hpath, ?_⟩, hvalid⟩
  rw [data?, Json.read?_written (isPlain_abridged 122 settings left), Option.bind_some,
    ofData?_abridged hleft]

lemma namesUnknown_of_mem {members : List (String × Data)} {key : String}
    (hmem : key ∈ members.map (·.1)) (hkey : key ∉ fieldNames) :
    namesUnknown (.object members) := by
  obtain ⟨member, hmember, rfl⟩ := List.mem_map.mp hmem
  exact List.any_eq_true.mpr ⟨member, hmember, by simpa using hkey⟩

/-- A text with an unknown setting does not load, whatever stands behind it. -/
lemma load_written_unknown {path key : String} {front back : List (String × Data)} {value : Data}
    (hpath : HasFormat path .json)
    (hfront : ∀ member ∈ front, isPlain (depthLimit - 1) member.2) (hkey : key ∉ fieldNames) :
    load path (written (.object (front ++ (key, value) :: back))) =
      .error (.unreadable path .json) := by
  have hread : (data? .json (written (.object (front ++ (key, value) :: back)))).bind
      (ofData? .json) = none := by
    rw [data?]
    cases hdata : read? (written (.object (front ++ (key, value) :: back))).toList with
    | none => rfl
    | some data =>
        obtain ⟨members, rfl, hmem⟩ := Json.key_mem_of_read? hfront hdata
        rw [Option.bind_some, ofData?, if_pos (namesUnknown_of_mem hmem hkey)]
        rfl
  rw [load, format?_eq_some_iff.mpr hpath]
  simp only [hread]

/-- **Settings are read back.**  Settings that load are written as a text that
loads as the same settings.  The text may leave out whatever has its default
value: settings, lists of the vocabulary and parts of the policy.  With an
unknown setting at any place in it, the text does not load. -/
theorem settings_are_read_back {source contents path : String} {settings : Settings}
    (h : load source contents = .ok settings) (hpath : Path.extension? path = some "json") :
    load path (written settings.toData) = .ok settings ∧
    (∀ left, settings.IsUsualAt left →
      load path (written (settings.abridged left)) = .ok settings) ∧
    ∀ left front back key value, settings.abridged left = .object (front ++ back) →
      key ∉ fieldNames →
        load path (written (.object (front ++ (key, value) :: back))) =
          .error (.unreadable path .json) := by
  have hvalid : settings.IsValid := (load_eq_ok_iff.mp h).2
  have hnone : settings.IsUsualAt {} :=
    ⟨List.forall_mem_nil _, List.forall_mem_nil _, List.forall_mem_nil _⟩
  refine ⟨?_, fun left => load_written_abridged hpath hvalid, ?_⟩
  · rw [← abridged_empty]
    exact load_written_abridged hpath hvalid hnone
  · intro left front back key value hsplit hkey
    have hplain := isPlain_abridged 122 settings left
    rw [hsplit] at hplain
    exact load_written_unknown hpath
      (fun member hmember => List.all_eq_true.mp hplain member (List.mem_append_left _ hmember))
      hkey

/-- Settings with a tag and a placeholder of their own. -/
def gqlSettings : Settings where
  tags := ["gql"]
  ids := { placeholder := "anyID" }

/-- All that has its default value in them. -/
def gqlLeftOut : LeftOut where
  settings := ["schema", "vocabulary", "extensions", "ignore"]
  ids := ["rules"]

/-- A text with the settings that are not. -/
def gqlText : String :=
  "\x7b\"ids\": \x7b\"placeholder\": \"anyID\"\x7d, \"tags\": [\"gql\"]\x7d"

theorem gqlSettings_are_read_back :
    load "codemods.json" gqlText = .ok gqlSettings ∧
    load "written.json" (written gqlSettings.toData) = .ok gqlSettings ∧
    written (gqlSettings.abridged gqlLeftOut) =
      "\x7b\"tags\":[\"gql\"],\"ids\":\x7b\"placeholder\":\"anyID\"\x7d\x7d" ∧
    load "written.json" (written (gqlSettings.abridged gqlLeftOut)) = .ok gqlSettings ∧
    load "written.json" ("\x7b\"tags\":[\"gql\"],\"tag\":null," ++
      "\"ids\":\x7b\"placeholder\":\"anyID\"\x7d\x7d") =
        .error (.unreadable "written.json" .json) := by
  have hload : load "codemods.json" gqlText = .ok gqlSettings :=
    eq_ok_of_toOption (by decide +kernel)
  have husual : gqlSettings.IsUsualAt gqlLeftOut := by
    refine ⟨?_, List.forall_mem_nil _, ?_⟩
    · intro name hname
      fin_cases hname <;> rfl
    · intro name hname
      fin_cases hname
      rfl
  have hpath : Path.extension? "written.json" = some "json" := by decide +kernel
  obtain ⟨hfull, habridged, hunknown⟩ := settings_are_read_back hload hpath
  refine ⟨hload, hfull, by decide +kernel, habridged _ husual, ?_⟩
  exact hunknown gqlLeftOut [("tags", .strings ["gql"])]
    [("ids", .object [("placeholder", .string "anyID")])] "tag" .null rfl (by decide)

end Settings

end GraphMigrate
