/-
Arguments that stay apart.

A field or a directive may not have two arguments of one name.  A renamer gives
each argument its new name without a look at the others of the same field or
directive, so arguments whose names differ may end up with the same name.

* `Document.reachedNames`, `Document.passedNames`: for each field and each
  directive the names of its arguments, where a renamer comes to them and where
  it passes them by;
* `Document.ArgumentsApart`: documents in which no field and no directive has
  two arguments of one name;
* `ensures_document_newNames`: a renamer gives each name it comes to its new
  name, and leaves the others;
* `arguments_stay_apart_iff`: **arguments stay apart exactly if no field and no
  directive that the renamer comes to has two whose new names are the same**.
-/
import GraphMigrate.Proofs.Document.ChangedNames

namespace GraphMigrate

open Naming (camelize)

namespace Document

/-! ### Arguments side by side -/

/-- The names of the arguments of a directive. -/
def Directive.argumentNames (directive : Directive) : List String :=
  directive.arguments.map (·.name)

/-- The names of the arguments of a field, and those of each directive on it. -/
def Field.argumentNames (field : Field) : List (List String) :=
  field.arguments.map (·.name) :: field.directives.map Directive.argumentNames

/-- The names of arguments of each directive on a definition, and of each field
and directive on a field in it. -/
def Definition.reachedNames (definition : Definition) : List (List String) :=
  definition.marks.map Directive.argumentNames ++
    (Selection.fieldsAll definition.selections).flatMap Field.argumentNames

/-- The names of arguments of each directive on a variable, a fragment spread or
an inline fragment, and in definitions of types, directives and schemas. -/
def Definition.passedNames (definition : Definition) : List (List String) :=
  (definition.variableMarks ++ Selection.fragmentMarksAll definition.selections ++
    definition.systemMarks).map Directive.argumentNames

/-- The names of arguments side by side, where a renamer comes to them. -/
def reachedNames (document : Document) : List (List String) :=
  document.definitions.flatMap Definition.reachedNames

/-- The names of arguments side by side, where a renamer passes them by. -/
def passedNames (document : Document) : List (List String) :=
  document.definitions.flatMap Definition.passedNames

/-- The names of arguments of each field and of each directive. -/
def argumentNames (document : Document) : List (List String) :=
  document.reachedNames ++ document.passedNames

/-- No field and no directive has two arguments of one name. -/
def ArgumentsApart (document : Document) : Prop :=
  ∀ names ∈ document.argumentNames, names.Nodup

instance (document : Document) : Decidable document.ArgumentsApart :=
  inferInstanceAs (Decidable (∀ names ∈ document.argumentNames, names.Nodup))

end Document

open Document

/-! ### New names -/

section Lists

variable {α β γ : Type} {xs : List α} {ys : List β}

lemma map_eq_map_of_forall₂ {f : α → γ} {g : β → γ}
    (h : List.Forall₂ (fun x y => f x = g y) xs ys) : xs.map f = ys.map g := by
  rwa [← List.forall₂_eq_eq_eq, List.forall₂_map_left_iff, List.forall₂_map_right_iff]

lemma flatMap_eq_flatMap_of_forall₂ {f : α → List γ} {g : β → List γ}
    (h : List.Forall₂ (fun x y => f x = g y) xs ys) : xs.flatMap f = ys.flatMap g := by
  rw [List.flatMap_def, List.flatMap_def, map_eq_map_of_forall₂ h]

end Lists

namespace Renamer

/-- The name of an argument after a renamer. -/
def newName (renamer : Renamer) (name : String) : String := (renamer.argument? name).getD name

variable {renamer : Renamer}

lemma ensures_argument_newName (offset : ℕ) (argument : Argument) :
    (renamer.argument offset argument).Ensures
      fun new => renamer.newName argument.name = new.name := by
  rw [Renamer.argument, newName]
  split
  · rename_i hname
    rw [hname]
    exact .pure rfl
  · rename_i new hname
    rw [hname]
    exact (Renaming.ensures_toName new offset).bind fun _ hnew => .pure hnew.symm

lemma ensures_arguments_newNames (offset : ℕ) (arguments : List Argument) :
    Renaming.Ensures (arguments.mapM (renamer.argument offset))
      fun new => (arguments.map (·.name)).map renamer.newName = new.map (·.name) := by
  rw [List.map_map]
  exact (Ensures.mapM (ensures_argument_newName offset) arguments).mono fun _ =>
    map_eq_map_of_forall₂

lemma ensures_directives_newNames (offset : ℕ) (directives : List Directive) :
    Renaming.Ensures (directives.mapM (renamer.directive offset)) fun new =>
      (directives.map Directive.argumentNames).map (List.map renamer.newName) =
        new.map Directive.argumentNames := by
  have hone (directive : Directive) : (renamer.directive offset directive).Ensures
      fun new => directive.argumentNames.map renamer.newName = new.argumentNames := by
    rw [Renamer.directive]
    exact (ensures_arguments_newNames offset _).bind fun _ harguments => .pure harguments
  rw [List.map_map]
  exact (Ensures.mapM hone directives).mono fun _ => map_eq_map_of_forall₂

lemma ensures_visit_newNames (start : ℕ) (parent : Option String) (field : Field) :
    (renamer.visit start parent field).Ensures fun new =>
      field.argumentNames.map (List.map renamer.newName) = new.argumentNames := by
  rw [Renamer.visit]
  -- what becomes of the name of the field itself makes no difference
  refine Ensures.bind (P := fun _ => True) (fun _ _ _ _ _ => ⟨trivial, trivial⟩) fun named _ => ?_
  refine (ensures_arguments_newNames _ _).bind fun arguments harguments => ?_
  refine (ensures_directives_newNames _ _).bind fun directives hdirectives => .pure ?_
  rw [Field.argumentNames, List.map_cons, harguments, hdirectives]
  rfl

/-- What becomes of the names of arguments in selections. -/
structure SelectionsRenamed (renamer : Renamer) (old new : List Selection) : Prop where
  fields : ((Selection.fieldsAll old).flatMap Field.argumentNames).map
    (List.map renamer.newName) = (Selection.fieldsAll new).flatMap Field.argumentNames
  marks : Selection.fragmentMarksAll old = Selection.fragmentMarksAll new

lemma ensures_selections_newNames (start : ℕ) (parent : Option String)
    (selections : List Selection) :
    (renamer.selections start parent selections).Ensures
      (renamer.SelectionsRenamed selections) := by
  refine (ensures_selections_visited (ensures_visit_newNames start) parent selections).mono
    fun _ hnew => ⟨?_, hnew.marks.symm⟩
  rw [List.map_flatMap]
  exact flatMap_eq_flatMap_of_forall₂ hnew.fields

/-- What becomes of the names of arguments in a definition. -/
structure DefinitionRenamed (renamer : Renamer) (old new : Definition) : Prop where
  reached : old.reachedNames.map (List.map renamer.newName) = new.reachedNames
  passed : old.passedNames = new.passedNames

lemma definitionRenamed_of {old new : Definition}
    (hmarks : (old.marks.map Directive.argumentNames).map (List.map renamer.newName) =
      new.marks.map Directive.argumentNames)
    (hvariables : old.variableMarks = new.variableMarks)
    (hsystem : old.systemMarks = new.systemMarks)
    (hselections : renamer.SelectionsRenamed old.selections new.selections) :
    renamer.DefinitionRenamed old new := by
  constructor
  · rw [Definition.reachedNames, List.map_append, hmarks, hselections.fields]
    rfl
  · rw [Definition.passedNames, hvariables, hsystem, hselections.marks]
    rfl

/-- Other definitions hold no arguments that a renamer comes to. -/
lemma definitionRenamed_self {definition : Definition} (h : definition.reachedNames = []) :
    renamer.DefinitionRenamed definition definition :=
  ⟨by rw [h]; rfl, rfl⟩

lemma ensures_definition_newNames (start : ℕ) (definition : Definition) :
    (renamer.definition start definition).Ensures (renamer.DefinitionRenamed definition) := by
  have hmarks := @ensures_directives_newNames renamer start
  have hbelow := @ensures_selections_newNames renamer start
  cases definition with
  | operation o =>
      exact (hmarks o.directives).bind fun _ hmarks => (hbelow _ o.selections).bind
        fun _ hselections => .pure (definitionRenamed_of hmarks rfl rfl hselections)
  | fragment f =>
      exact (hmarks f.directives).bind fun _ hmarks => (hbelow _ f.selections).bind
        fun _ hselections => .pure (definitionRenamed_of hmarks rfl rfl hselections)
  | type t => exact .pure (definitionRenamed_self rfl)
  | directive d => exact .pure (definitionRenamed_self rfl)
  | schema s => exact .pure (definitionRenamed_self rfl)

/-- Each name that a renamer comes to becomes the new one, whatever stands
beside it, and the names that it passes by stay. -/
lemma ensures_document_newNames (start : ℕ) (document : Document) :
    (renamer.document start document).Ensures fun new =>
      document.reachedNames.map (List.map renamer.newName) = new.reachedNames ∧
      document.passedNames = new.passedNames := by
  obtain ⟨definitions⟩ := document
  rw [Renamer.document]
  refine (Ensures.mapM (ensures_definition_newNames start) _).bind fun new hall => .pure ?_
  rw [Document.reachedNames, List.map_flatMap]
  exact ⟨flatMap_eq_flatMap_of_forall₂ (hall.imp fun _ _ h => h.reached),
    flatMap_eq_flatMap_of_forall₂ (hall.imp fun _ _ h => h.passed)⟩

/-- Arguments that stand apart stay so exactly if those that a renamer comes to
have different new names. -/
lemma argumentsApart_iff {start : ℕ} {document renamed : Document} {tally tally' : Tally}
    (h : document.ArgumentsApart)
    (hrun : (renamer.document start document).run tally = .ok (renamed, tally')) :
    renamed.ArgumentsApart ↔ ∀ names ∈ document.reachedNames, ∀ a ∈ names, ∀ b ∈ names,
      renamer.newName a = renamer.newName b → a = b := by
  obtain ⟨-, hreached, hpassed⟩ := ensures_document_newNames start document tally trivial _ _ hrun
  obtain ⟨happart, hkept⟩ := List.forall_mem_append.mp h
  rw [ArgumentsApart, Document.argumentNames, List.forall_mem_append, ← hreached, ← hpassed,
    and_iff_left hkept, List.forall_mem_map]
  exact forall₂_congr fun names hnames => List.nodup_map_iff_inj_on (happart names hnames)

end Renamer

/-! ### The two renamers -/

lemma newName_clientRenamer (name : String) : clientRenamer.newName name = camelize name := by
  rw [Renamer.newName]
  change (camelized? name).getD name = _
  rw [camelized?]
  split_ifs with hneeds
  · rfl
  · exact (if_neg hneeds).symm

lemma newName_identityRenamer (policy : IdPolicy) (schema : Schema) (name : String) :
    (identityRenamer policy schema).newName name = if name = "__id" then "id" else name := by
  rw [Renamer.newName]
  change (identityArgument? name).getD name = _
  rw [identityArgument?]
  by_cases h : name = "__id" <;> simp [h]

/-- After the identities two names are the same exactly if they are `id` and
`__id`. -/
lemma newName_identityRenamer_inj_iff (policy : IdPolicy) (schema : Schema) (names : List String) :
    (∀ a ∈ names, ∀ b ∈ names, (identityRenamer policy schema).newName a =
        (identityRenamer policy schema).newName b → a = b) ↔
      ¬ ("id" ∈ names ∧ "__id" ∈ names) := by
  simp only [newName_identityRenamer]
  constructor
  · rintro hinj ⟨hid, hown⟩
    exact absurd (hinj "id" hid "__id" hown rfl) (by decide)
  · intro hnot a ha b hb hsame
    split_ifs at hsame with hfirst hsecond hsecond
    · exact hfirst.trans hsecond.symm
    · exact absurd ⟨hsame ▸ hb, hfirst ▸ ha⟩ hnot
    · exact absurd ⟨hsame ▸ ha, hsecond ▸ hb⟩ hnot
    · exact hsame

/-- **Arguments stay apart exactly if no field and no directive that the renamer
comes to has two whose new names are the same.**  For camel case these are two
names that are the same in camel case, for identities `id` and `__id`. -/
theorem arguments_stay_apart_iff {start : ℕ} {document : Document} {tally : Tally}
    (h : document.ArgumentsApart) :
    (∀ renamed tally',
      (clientRenamer.document start document).run tally = .ok (renamed, tally') →
        (renamed.ArgumentsApart ↔
          ∀ names ∈ document.reachedNames, ∀ a ∈ names, ∀ b ∈ names,
            camelize a = camelize b → a = b)) ∧
    ∀ policy schema renamed tally',
      ((identityRenamer policy schema).document start document).run tally =
          .ok (renamed, tally') →
        (renamed.ArgumentsApart ↔
          ∀ names ∈ document.reachedNames, ¬ ("id" ∈ names ∧ "__id" ∈ names)) := by
  refine ⟨fun renamed tally' hrun => ?_, fun policy schema renamed tally' hrun => ?_⟩
  · simp only [← newName_clientRenamer]
    exact Renamer.argumentsApart_iff h hrun
  · simp only [← newName_identityRenamer_inj_iff policy schema]
    exact Renamer.argumentsApart_iff h hrun

/-- Arguments with different new names on a field and on a directive. -/
def livePageText : String :=
  "\x7b show(page_no: 1, page: 2) @live(__id: 3, for_all: 4) \x7b name \x7d \x7d"

theorem arguments_stay_apart_on_live_page :
    ∃ document camelized identified tally tally' schema,
      Document.parse? livePageText.toList = some document ∧
      Schema.parse? "type Query \x7b show: Int \x7d" = some schema ∧
      document.ArgumentsApart ∧
      (clientRenamer.document 7 document).run {} = .ok (camelized, tally) ∧
      ((identityRenamer {} schema).document 7 document).run {} = .ok (identified, tally') ∧
      camelized.argumentNames = [["pageNo", "page"], ["__id", "forAll"], []] ∧
      camelized.ArgumentsApart ∧ identified.ArgumentsApart := by
  have hcheck : (Document.parse? livePageText.toList).any (fun document =>
      decide document.ArgumentsApart &&
      decide (∀ names ∈ document.reachedNames, ∀ a ∈ names, ∀ b ∈ names,
        camelize a = camelize b → a = b) &&
      decide (∀ names ∈ document.reachedNames, ¬ ("id" ∈ names ∧ "__id" ∈ names)) &&
      (Schema.parse? "type Query \x7b show: Int \x7d").any fun schema =>
        (((identityRenamer {} schema).document 7 document).run {}).toOption.any fun _ =>
          ((clientRenamer.document 7 document).run {}).toOption.any fun camelized =>
            camelized.1.argumentNames == [["pageNo", "page"], ["__id", "forAll"], []]) = true := by
    decide +kernel
  obtain ⟨document, hparse, hrest⟩ := Option.any_eq_true _ _ |>.mp hcheck
  simp only [Bool.and_eq_true, decide_eq_true_eq] at hrest
  obtain ⟨⟨⟨happart, hcamel⟩, hids⟩, hrest⟩ := hrest
  obtain ⟨schema, hschema, hruns⟩ := Option.any_eq_true _ _ |>.mp hrest
  obtain ⟨⟨identified, tally'⟩, hidentified, hrun⟩ := Option.any_eq_true _ _ |>.mp hruns
  obtain ⟨⟨camelized, tally⟩, hcamelized, hnames⟩ := Option.any_eq_true _ _ |>.mp hrun
  replace hidentified := eq_ok_of_toOption hidentified
  replace hcamelized := eq_ok_of_toOption hcamelized
  obtain ⟨hclient, hidentity⟩ := @arguments_stay_apart_iff 7 document {} happart
  exact ⟨document, camelized, identified, tally, tally', schema, hparse, hschema, happart,
    hcamelized, hidentified, eq_of_beq hnames,
    (hclient camelized tally hcamelized).mpr hcamel,
    (hidentity {} schema identified tally' hidentified).mpr hids⟩

/-- A field with an argument in snake case beside the same one in camel case, and
a directive with `__id` beside `id`. -/
def doublePageText : String :=
  "\x7b show(page_no: 1, pageNo: 2) @live(id: 3, __id: 4) \x7b name \x7d \x7d"

/-- In camel case the field has one argument twice, and after the identities are
renamed the directive has. -/
theorem renamed_arguments_meet :
    ∃ document camelized identified tally tally' schema,
      Document.parse? doublePageText.toList = some document ∧
      Schema.parse? "type Query \x7b show: Int \x7d" = some schema ∧
      document.ArgumentsApart ∧
      (clientRenamer.document 7 document).run {} = .ok (camelized, tally) ∧
      camelized.argumentNames = [["pageNo", "pageNo"], ["id", "__id"], []] ∧
      ¬ camelized.ArgumentsApart ∧
      ((identityRenamer {} schema).document 7 document).run {} = .ok (identified, tally') ∧
      identified.argumentNames = [["page_no", "pageNo"], ["id", "id"], []] ∧
      ¬ identified.ArgumentsApart := by
  have hcheck : (Document.parse? doublePageText.toList).any (fun document =>
      decide document.ArgumentsApart &&
      (Schema.parse? "type Query \x7b show: Int \x7d").any fun schema =>
        (((identityRenamer {} schema).document 7 document).run {}).toOption.any fun identified =>
          ((clientRenamer.document 7 document).run {}).toOption.any fun camelized =>
            camelized.1.argumentNames == [["pageNo", "pageNo"], ["id", "__id"], []] &&
            identified.1.argumentNames == [["page_no", "pageNo"], ["id", "id"], []] &&
            decide (¬ camelized.1.ArgumentsApart ∧ ¬ identified.1.ArgumentsApart)) = true := by
    decide +kernel
  obtain ⟨document, hparse, hrest⟩ := Option.any_eq_true _ _ |>.mp hcheck
  rw [Bool.and_eq_true, decide_eq_true_eq] at hrest
  obtain ⟨happart, hrest⟩ := hrest
  obtain ⟨schema, hschema, hruns⟩ := Option.any_eq_true _ _ |>.mp hrest
  obtain ⟨⟨identified, tally'⟩, hidentified, hrun⟩ := Option.any_eq_true _ _ |>.mp hruns
  obtain ⟨⟨camelized, tally⟩, hcamelized, hresult⟩ := Option.any_eq_true _ _ |>.mp hrun
  simp only [Bool.and_eq_true, beq_iff_eq, decide_eq_true_eq] at hresult
  obtain ⟨⟨hcamel, hids⟩, hmeet, hmeet'⟩ := hresult
  exact ⟨document, camelized, identified, tally, tally', schema, hparse, hschema, happart,
    eq_ok_of_toOption hcamelized, hcamel, hmeet, eq_ok_of_toOption hidentified, hids, hmeet'⟩

end GraphMigrate
