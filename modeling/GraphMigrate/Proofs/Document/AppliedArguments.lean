/-
Arguments at all places of a document.

Arguments stand on fields and on directives, and directives on operations,
fragments, variable definitions, fields, fragment spreads and inline
fragments.  A renamer comes to the arguments of fields and to the directives
on fields, operations and fragments; it passes by the directives on the other
three, whatever they hold.

* `Selection.fields`, `Selection.fragmentMarks`: the fields of a selection,
  and the directives on the spreads and inline fragments in it;
* `Document.reachedArguments`, `Document.passedArguments`,
  `Document.allArguments`: the arguments that a renamer comes to, the others,
  and all of them;
* `ensures_selections_visited`: a walk through selections makes of each field
  what a visit makes of it, and leaves the directives that no visit comes to;
* `ensures_document_settled`: after a renamer none of the arguments it comes
  to has another name to get, and the others are as before;
* `all_arguments_are_renamed_iff`: **all arguments are renamed exactly if none
  of those passed by has a name that is renamed**.
-/
import GraphMigrate.Proofs.Document.CamelCase
import GraphMigrate.Proofs.Document.Identity

namespace GraphMigrate

open Naming (needsCamelize)

namespace Document

/-! ### Places of arguments -/

mutual

/-- The fields of a selection, each before those selected on it. -/
def Selection.fields : Selection → List Field
  | .field head selections => head :: Selection.fieldsAll selections
  | .spread _ _ => []
  | .inline _ _ selections => Selection.fieldsAll selections

/-- The fields of a selection set. -/
def Selection.fieldsAll : List Selection → List Field
  | [] => []
  | selection :: selections => selection.fields ++ Selection.fieldsAll selections

end

mutual

/-- The directives on fragment spreads and inline fragments in a selection. -/
def Selection.fragmentMarks : Selection → List Directive
  | .field _ selections => Selection.fragmentMarksAll selections
  | .spread _ directives => directives
  | .inline _ directives selections => directives ++ Selection.fragmentMarksAll selections

/-- The directives on fragment spreads and inline fragments in a selection
set. -/
def Selection.fragmentMarksAll : List Selection → List Directive
  | [] => []
  | selection :: selections => selection.fragmentMarks ++ Selection.fragmentMarksAll selections

end

/-- What an operation or a fragment selects. -/
def Definition.selections : Definition → List Selection
  | .operation o => o.selections
  | .fragment f => f.selections
  | _ => []

/-- The directives on the variables of an operation. -/
def Definition.variableMarks : Definition → List Directive
  | .operation o => o.variableDefinitions.flatMap (·.directives)
  | _ => []

/-- The arguments of the fields of an operation or a fragment and of the
directives on these fields, and those of the directives on itself. -/
def Definition.reachedArguments (definition : Definition) : List Argument :=
  marked definition.marks ++
    (Selection.fieldsAll definition.selections).flatMap Field.appliedArguments

/-- The arguments of the directives on the variables of an operation and on
the fragment spreads and inline fragments in a definition. -/
def Definition.passedArguments (definition : Definition) : List Argument :=
  marked (definition.variableMarks ++ Selection.fragmentMarksAll definition.selections)

end Document

open Document

/-- The arguments of fields, and of directives on fields, operations and
fragments. -/
def Document.reachedArguments (document : Document) : List Argument :=
  document.definitions.flatMap Definition.reachedArguments

/-- The arguments of directives on variable definitions, fragment spreads and
inline fragments. -/
def Document.passedArguments (document : Document) : List Argument :=
  document.definitions.flatMap Definition.passedArguments

/-- All arguments of fields, and of directives at any place in an operation
or fragment. -/
def Document.allArguments (document : Document) : List Argument :=
  document.reachedArguments ++ document.passedArguments

/-! ### Settled names -/

namespace Renamer

/-- Whether a renamer has no other name for an argument. -/
def Settled (renamer : Renamer) (argument : Argument) : Prop :=
  renamer.argument? argument.name = none

/-- Renamers whose new names stay. -/
def SettlesAtOnce (renamer : Renamer) : Prop :=
  ∀ name new, renamer.argument? name = some new → renamer.argument? new = none

variable {renamer : Renamer}

lemma ensures_argument_settled (h : renamer.SettlesAtOnce) (offset : ℕ) (argument : Argument) :
    (renamer.argument offset argument).Ensures renamer.Settled := by
  rw [Renamer.argument]
  split
  · rename_i hname
    exact .pure hname
  · rename_i new hname
    refine (Renaming.ensures_toName new offset).bind fun name hnew => .pure ?_
    rw [Settled, hnew]
    exact h argument.name new hname

lemma ensures_directive_settled (h : renamer.SettlesAtOnce) (offset : ℕ) (directive : Directive) :
    (renamer.directive offset directive).Ensures
      fun new => ∀ argument ∈ new.arguments, renamer.Settled argument := by
  rw [Renamer.directive]
  exact (Ensures.mapM_forall (ensures_argument_settled h offset) _).bind fun _ harguments =>
    .pure harguments

lemma ensures_directives_settled (h : renamer.SettlesAtOnce) (offset : ℕ)
    (directives : List Directive) :
    Renaming.Ensures (directives.mapM (renamer.directive offset))
      fun new => ∀ argument ∈ marked new, renamer.Settled argument := by
  refine (Ensures.mapM_forall (ensures_directive_settled h offset) _).mono fun new hnew => ?_
  intro argument hargument
  obtain ⟨directive, hdirective, hargument⟩ := List.mem_flatMap.mp hargument
  exact hnew directive hdirective argument hargument

lemma ensures_visit_settled (h : renamer.SettlesAtOnce) (start : ℕ) (parent : Option String)
    (field : Field) :
    (renamer.visit start parent field).Ensures
      fun new => ∀ argument ∈ new.appliedArguments, renamer.Settled argument := by
  rw [Renamer.visit]
  refine Ensures.bind (P := fun _ => True) (fun _ _ _ _ _ => ⟨trivial, trivial⟩) fun named _ => ?_
  refine (Ensures.mapM_forall (ensures_argument_settled h _) _).bind fun arguments harguments => ?_
  refine (ensures_directives_settled h _ _).bind fun directives hdirectives => .pure ?_
  exact List.forall_mem_append.mpr ⟨harguments, hdirectives⟩

/-! ### The tree -/

/-- What becomes of selections in a walk: of each field what a visit makes of
it, while the directives that no visit comes to are as before. -/
structure SelectionsVisited (R : Field → Field → Prop) (old new : List Selection) : Prop where
  fields : List.Forall₂ R (Selection.fieldsAll old) (Selection.fieldsAll new)
  marks : Selection.fragmentMarksAll new = Selection.fragmentMarksAll old

/-- What becomes of selections: arguments that a renamer comes to are settled,
and directives that it passes by are as before. -/
def SelectionsSettled (renamer : Renamer) (old new : List Selection) : Prop :=
  (∀ field ∈ Selection.fieldsAll new, ∀ argument ∈ field.appliedArguments,
    renamer.Settled argument) ∧
  Selection.fragmentMarksAll new = Selection.fragmentMarksAll old

section Walk

variable {visit : Option String → Field → Renaming Field} {R : Field → Field → Prop}

mutual

/-- The walk through a selection. -/
lemma ensures_selection_visited (hvisit : ∀ parent field, (visit parent field).Ensures (R field)) :
    ∀ (parent : Option String) (selection : Selection),
      (selection.mapFields renamer.innerType? visit parent).Ensures
        fun new => SelectionsVisited R [selection] [new]
  | parent, .field head inner => by
      rw [Selection.mapFields]
      refine (hvisit parent head).bind fun new hnew => ?_
      refine (ensures_selections_visited hvisit _ inner).bind fun below hbelow => .pure ⟨?_, ?_⟩
      · simp only [Selection.fieldsAll, Selection.fields, List.append_nil]
        exact .cons hnew hbelow.fields
      · simpa only [Selection.fragmentMarksAll, Selection.fragmentMarks, List.append_nil]
          using hbelow.marks
  | _, .spread name directives => by
      rw [Selection.mapFields]
      exact .pure ⟨.nil, rfl⟩
  | _, .inline condition directives inner => by
      rw [Selection.mapFields]
      refine (ensures_selections_visited hvisit _ inner).bind fun below hbelow => .pure ⟨?_, ?_⟩
      · simpa only [Selection.fieldsAll, Selection.fields, List.append_nil] using hbelow.fields
      · simp only [Selection.fragmentMarksAll, Selection.fragmentMarks, hbelow.marks]

/-- The walk through a selection set. -/
lemma ensures_selections_visited (hvisit : ∀ parent field, (visit parent field).Ensures (R field)) :
    ∀ (parent : Option String) (selections : List Selection),
      Renaming.Ensures (Selection.mapFieldsAll renamer.innerType? visit parent selections)
        (SelectionsVisited R selections)
  | _, [] => by
      rw [Selection.mapFieldsAll]
      exact .pure ⟨.nil, rfl⟩
  | parent, selection :: selections => by
      rw [Selection.mapFieldsAll]
      refine (ensures_selection_visited hvisit parent selection).bind fun first hfirst => ?_
      refine (ensures_selections_visited hvisit parent selections).bind fun later hlater => .pure ?_
      obtain ⟨hfields, hmarks⟩ := hfirst
      simp only [Selection.fieldsAll, Selection.fragmentMarksAll, List.append_nil] at hfields hmarks
      refine ⟨List.rel_append hfields hlater.fields, ?_⟩
      rw [Selection.fragmentMarksAll, Selection.fragmentMarksAll, hmarks, hlater.marks]

end

/-- The walk through a selection set, if each visit settles the arguments of
its field. -/
lemma ensures_selections_settled
    (hvisit : ∀ parent field, (visit parent field).Ensures
      fun new => ∀ argument ∈ new.appliedArguments, renamer.Settled argument)
    (parent : Option String) (selections : List Selection) :
    Renaming.Ensures (Selection.mapFieldsAll renamer.innerType? visit parent selections)
      (renamer.SelectionsSettled selections) := by
  refine (ensures_selections_visited hvisit parent selections).mono fun new hnew => ⟨?_, hnew.marks⟩
  intro field hfield
  obtain ⟨-, -, hsettled⟩ := exists_of_forall₂_right hnew.fields hfield
  exact hsettled

end Walk

/-- What becomes of a definition. -/
def DefinitionSettled (renamer : Renamer) (old new : Definition) : Prop :=
  (∀ argument ∈ new.reachedArguments, renamer.Settled argument) ∧
  new.passedArguments = old.passedArguments

/-- A definition whose own directives and selections are settled. -/
lemma definitionSettled_of {old new : Definition}
    (hmarks : ∀ argument ∈ marked new.marks, renamer.Settled argument)
    (hvariables : new.variableMarks = old.variableMarks)
    (hselections : renamer.SelectionsSettled old.selections new.selections) :
    renamer.DefinitionSettled old new := by
  refine ⟨fun argument hargument => ?_, ?_⟩
  · rcases List.mem_append.mp hargument with hargument | hargument
    · exact hmarks argument hargument
    · obtain ⟨field, hfield, hargument⟩ := List.mem_flatMap.mp hargument
      exact hselections.1 field hfield argument hargument
  · rw [Definition.passedArguments, Definition.passedArguments, hvariables, hselections.2]

/-- Other definitions hold no arguments that a renamer comes to. -/
lemma definitionSettled_self {definition : Definition} (h : definition.reachedArguments = []) :
    renamer.DefinitionSettled definition definition :=
  ⟨h ▸ List.forall_mem_nil _, rfl⟩

lemma ensures_definition_settled (h : renamer.SettlesAtOnce) (start : ℕ)
    (definition : Definition) :
    (renamer.definition start definition).Ensures (renamer.DefinitionSettled definition) := by
  have hselections (parent : Option String) (selections : List Selection) :
      (renamer.selections start parent selections).Ensures
        (renamer.SelectionsSettled selections) :=
    ensures_selections_settled (ensures_visit_settled h start) parent selections
  cases definition with
  | operation o =>
      exact (ensures_directives_settled h start _).bind fun _ hmarks =>
        (hselections _ _).bind fun _ hbelow => .pure (definitionSettled_of hmarks rfl hbelow)
  | fragment f =>
      exact (ensures_directives_settled h start _).bind fun _ hmarks =>
        (hselections _ _).bind fun _ hbelow => .pure (definitionSettled_of hmarks rfl hbelow)
  | type t => exact .pure (definitionSettled_self rfl)
  | directive d => exact .pure (definitionSettled_self rfl)
  | schema s => exact .pure (definitionSettled_self rfl)

/-- After a renamer none of the arguments it comes to has another name to get,
and the others are as before. -/
lemma ensures_document_settled (h : renamer.SettlesAtOnce) (start : ℕ) (document : Document) :
    (renamer.document start document).Ensures fun new =>
      (∀ argument ∈ new.reachedArguments, renamer.Settled argument) ∧
      new.passedArguments = document.passedArguments := by
  obtain ⟨definitions⟩ := document
  rw [Renamer.document]
  refine (Ensures.mapM (ensures_definition_settled h start) _).bind fun new hall => .pure ?_
  simp only [Document.reachedArguments, Document.passedArguments] at hall ⊢
  induction hall with
  | nil => exact ⟨List.forall_mem_nil _, rfl⟩
  | cons hfirst _ ih =>
      rw [List.flatMap_cons, List.flatMap_cons, List.flatMap_cons, hfirst.2, ih.2]
      exact ⟨List.forall_mem_append.mpr ⟨hfirst.1, ih.1⟩, rfl⟩

/-- All arguments are settled exactly if those passed by were. -/
lemma allArguments_settled_iff (h : renamer.SettlesAtOnce) {start : ℕ}
    {document renamed : Document} {tally tally' : Tally}
    (hrun : (renamer.document start document).run tally = .ok (renamed, tally')) :
    (∀ argument ∈ renamed.reachedArguments, renamer.Settled argument) ∧
    ((∀ argument ∈ renamed.allArguments, renamer.Settled argument) ↔
      ∀ argument ∈ document.passedArguments, renamer.Settled argument) := by
  obtain ⟨-, hreached, hpassed⟩ := ensures_document_settled h start document tally trivial _ _ hrun
  refine ⟨hreached, ?_⟩
  rw [Document.allArguments, List.forall_mem_append, hpassed]
  exact and_iff_right hreached

end Renamer

/-! ### The two renamers -/

lemma camelized?_eq_none_iff {name : String} :
    camelized? name = none ↔ needsCamelize name = false := by
  rw [camelized?]
  split <;> simp_all

lemma identityArgument?_eq_none_iff {name : String} :
    identityArgument? name = none ↔ name ≠ "__id" := by
  rw [identityArgument?]
  split <;> simp_all

lemma clientRenamer_settlesAtOnce : clientRenamer.SettlesAtOnce := by
  intro name new hnew
  obtain ⟨hneeds, rfl⟩ := camelized?_eq_some hnew
  refine camelized?_eq_none_iff.mpr (Bool.eq_false_iff.mpr fun hagain => ?_)
  exact Naming.camelize_ne_of_needsCamelize hneeds hagain rfl

lemma identityRenamer_settlesAtOnce (policy : IdPolicy) (schema : Schema) :
    (identityRenamer policy schema).SettlesAtOnce := by
  intro name new hnew
  change identityArgument? name = some new at hnew
  rw [identityArgument?] at hnew
  split at hnew
  · exact Option.some.inj hnew ▸ rfl
  · cases hnew

/-- **Arguments are renamed at all places that a renamer comes to, and at all
places whatever exactly if no argument that it passes by has a name to
rename.**  The places passed by are the directives on variable definitions,
fragment spreads and inline fragments. -/
theorem all_arguments_are_renamed_iff {start : ℕ} {document : Document} {tally : Tally} :
    (∀ renamed tally',
      (clientRenamer.document start document).run tally = .ok (renamed, tally') →
        (∀ argument ∈ renamed.reachedArguments, needsCamelize argument.name = false) ∧
        ((∀ argument ∈ renamed.allArguments, needsCamelize argument.name = false) ↔
          ∀ argument ∈ document.passedArguments, needsCamelize argument.name = false)) ∧
    ∀ policy schema renamed tally',
      ((identityRenamer policy schema).document start document).run tally =
          .ok (renamed, tally') →
        (∀ argument ∈ renamed.reachedArguments, argument.name ≠ "__id") ∧
        ((∀ argument ∈ renamed.allArguments, argument.name ≠ "__id") ↔
          ∀ argument ∈ document.passedArguments, argument.name ≠ "__id") := by
  refine ⟨fun renamed tally' hrun => ?_, fun policy schema renamed tally' hrun => ?_⟩
  · simp only [← camelized?_eq_none_iff]
    exact Renamer.allArguments_settled_iff clientRenamer_settlesAtOnce hrun
  · simp only [← identityArgument?_eq_none_iff]
    exact Renamer.allArguments_settled_iff (identityRenamer_settlesAtOnce policy schema) hrun

/-- Arguments to rename at all places that a renamer comes to, and others at
those that it passes by. -/
def showText : String :=
  "query Q($n: Int @least(value: 1)) @cached(max_age: 1) \x7b " ++
  "show(__id: 2, page_no: $n) @live(for_all: 1) \x7b " ++
  "...F @arguments(size: $n) ... on T @include(if: true) \x7b name \x7d \x7d \x7d " ++
  "fragment F on T @argumentDefinitions(__id: 3, last_n: 4) \x7b name \x7d"

theorem all_arguments_are_renamed_in_show :
    ∃ document camelized identified tally tally' schema,
      Document.parse? showText.toList = some document ∧
      Schema.parse? "type Query \x7b show: Int \x7d" = some schema ∧
      (clientRenamer.document 7 document).run {} = .ok (camelized, tally) ∧
      ((identityRenamer {} schema).document 7 document).run {} = .ok (identified, tally') ∧
      camelized.allArguments.map (·.name) =
        ["maxAge", "__id", "pageNo", "forAll", "__id", "lastN", "value", "size", "if"] ∧
      (∀ argument ∈ camelized.allArguments, needsCamelize argument.name = false) ∧
      ∀ argument ∈ identified.allArguments, argument.name ≠ "__id" := by
  have hcheck : (Document.parse? showText.toList).any (fun document =>
      document.passedArguments.all (fun argument =>
        !needsCamelize argument.name && argument.name != "__id") &&
      (Schema.parse? "type Query \x7b show: Int \x7d").any fun schema =>
        (((identityRenamer {} schema).document 7 document).run {}).toOption.any fun _ =>
          ((clientRenamer.document 7 document).run {}).toOption.any fun camelized =>
            camelized.1.allArguments.map (·.name) ==
              ["maxAge", "__id", "pageNo", "forAll", "__id", "lastN", "value", "size", "if"]) =
      true := by
    decide +kernel
  obtain ⟨document, hparse, hrest⟩ := Option.any_eq_true _ _ |>.mp hcheck
  rw [Bool.and_eq_true, List.all_eq_true] at hrest
  obtain ⟨hpassed, hrest⟩ := hrest
  obtain ⟨schema, hschema, hruns⟩ := Option.any_eq_true _ _ |>.mp hrest
  obtain ⟨⟨identified, tally'⟩, hidentified, hrun⟩ := Option.any_eq_true _ _ |>.mp hruns
  obtain ⟨⟨camelized, tally⟩, hcamelized, hnames⟩ := Option.any_eq_true _ _ |>.mp hrun
  replace hidentified := eq_ok_of_toOption hidentified
  replace hcamelized := eq_ok_of_toOption hcamelized
  simp only [Bool.and_eq_true, Bool.not_eq_true', bne_iff_ne] at hpassed
  obtain ⟨hclient, hidentity⟩ := @all_arguments_are_renamed_iff 7 document {}
  exact ⟨document, camelized, identified, tally, tally', schema, hparse, hschema, hcamelized,
    hidentified, eq_of_beq hnames,
    (hclient camelized tally hcamelized).2.mpr fun argument h => (hpassed argument h).1,
    (hidentity {} schema identified tally' hidentified).2.mpr
      fun argument h => (hpassed argument h).2⟩

/-- The same argument on a fragment and on its spread, and arguments on a
variable definition and on an inline fragment. -/
def spreadText : String :=
  "query Q($n: Int @least(of_all: 1)) \x7b " ++
  "...F @arguments(artist_id: 1) ... on T @include(where_to: 1) \x7b name \x7d \x7d " ++
  "fragment F on T @argumentDefinitions(artist_id: 1) \x7b name \x7d"

/-- The arguments of a fragment and of its spread get different names, and
those on a variable definition and an inline fragment are passed by too. -/
theorem spread_arguments_keep_snake_case :
    ∃ document camelized tally,
      Document.parse? spreadText.toList = some document ∧
      (clientRenamer.document 7 document).run {} = .ok (camelized, tally) ∧
      camelized.reachedArguments.map (·.name) = ["artistID"] ∧
      camelized.passedArguments.map (·.name) = ["of_all", "artist_id", "where_to"] ∧
      ¬ ∀ argument ∈ camelized.allArguments, needsCamelize argument.name = false := by
  have hcheck : (Document.parse? spreadText.toList).any (fun document =>
      ((clientRenamer.document 7 document).run {}).toOption.any fun camelized =>
        camelized.1.reachedArguments.map (·.name) == ["artistID"] &&
        camelized.1.passedArguments.map (·.name) == ["of_all", "artist_id", "where_to"] &&
        camelized.1.allArguments.any fun argument => needsCamelize argument.name) = true := by
    decide +kernel
  obtain ⟨document, hparse, hrun⟩ := Option.any_eq_true _ _ |>.mp hcheck
  obtain ⟨⟨camelized, tally⟩, hok, hresult⟩ := Option.any_eq_true _ _ |>.mp hrun
  simp only [Bool.and_eq_true, beq_iff_eq, List.any_eq_true] at hresult
  obtain ⟨⟨hreached, hpassed⟩, argument, hargument, hneeds⟩ := hresult
  refine ⟨document, camelized, tally, hparse, eq_ok_of_toOption hok, hreached, hpassed, ?_⟩
  intro hall
  rw [hall argument hargument] at hneeds
  cases hneeds

end GraphMigrate
