/-
Documents in camel case and the names that changed.

Camel case counts the names for which it asks, which are those that are other
ones afterwards.  None of them is left to ask for, so a document that is in camel
case stays as it is.

* `Document.inCamelCase`: a document in which each name is put into camel case on
  its own;
* `yields_camelDocument`: the renamer does just that, and counts the names that
  need camel case;
* `run_inCamelCase_again`: **a second time nothing is renamed**;
* `run_inCamelCase`: **what is counted are the names that change**.
-/
import GraphMigrate.Proofs.Document.ChangedNames

namespace GraphMigrate

open Document (Argument Definition Directive Field Selection camelName marked)
open Naming (needsCamelize)

/-! ### Camel case, name by name -/

namespace Document

/-- An argument with its name in camel case. -/
def Argument.inCamelCase (argument : Argument) : Argument :=
  { argument with name := camelName argument.name }

/-- A directive with the names of its arguments in camel case. -/
def Directive.inCamelCase (directive : Directive) : Directive :=
  { directive with arguments := directive.arguments.map Argument.inCamelCase }

/-- A field with all its names in camel case, and an alias if its own changes. -/
def Field.inCamelCase (field : Field) : Field :=
  { field with
    alias? := if needsCamelize field.name then some field.responseKey else field.alias?
    name := camelName field.name
    arguments := field.arguments.map Argument.inCamelCase
    directives := field.directives.map Directive.inCamelCase }

/-- A definition in which each field is put into camel case on its own. -/
def Definition.inCamelCase : Definition → Definition
  | .operation o =>
    .operation { o with
      directives := o.directives.map Directive.inCamelCase
      selections := Selection.withFieldsAll Field.inCamelCase o.selections }
  | .fragment f =>
    .fragment { f with
      directives := f.directives.map Directive.inCamelCase
      selections := Selection.withFieldsAll Field.inCamelCase f.selections }
  | other => other

/-- A document in which each field is put into camel case on its own. -/
def inCamelCase (document : Document) : Document :=
  ⟨document.definitions.map Definition.inCamelCase⟩

/-- How many names need camel case. -/
def countNeeding (names : List String) : ℕ := names.countP needsCamelize

end Document

open Document (countNeeding)

lemma camelName_eq_self_iff {name : String} :
    camelName name = name ↔ needsCamelize name = false := by
  rw [camelName]
  split
  · rename_i hneeds
    simp [hneeds, Naming.camelize_ne_of_needsCamelize hneeds hneeds]
  · rename_i hkept
    simp [Bool.eq_false_iff.mpr hkept]

lemma bne_camelName (name : String) : (name != camelName name) = needsCamelize name := by
  rw [bne_comm, Bool.eq_iff_iff, bne_iff_ne, Ne, camelName_eq_self_iff, Bool.not_eq_false]

lemma needsCamelize_camelName (name : String) : needsCamelize (camelName name) = false := by
  rw [camelName]
  split
  · rename_i hneeds
    exact Naming.needsCamelize_camelize hneeds
  · rename_i hkept
    exact Bool.eq_false_iff.mpr hkept

/-! What the renamer makes of a part of a document, and what it counts there. -/

section Yields

lemma total_countNeeding {α : Type} (names : α → List String) (xs : List α) :
    Tally.total (xs.map fun x => ⟨countNeeding (names x), []⟩) =
      ⟨countNeeding (xs.flatMap names), []⟩ :=
  total_countP _ names xs

lemma plus_countNeeding (names names' : List String) :
    Tally.plus ⟨countNeeding names, []⟩ ⟨countNeeding names', []⟩ =
      ⟨countNeeding (names ++ names'), []⟩ := by
  rw [Tally.plus_mk, countNeeding, countNeeding, ← List.countP_append]
  rfl

lemma yields_camelArgument (offset : ℕ) (argument : Argument) :
    (clientRenamer.argument offset argument).Yields argument.inCamelCase
      ⟨countNeeding [argument.name], []⟩ := by
  have hargument : clientRenamer.argument? argument.name = camelized? argument.name := rfl
  rw [Renamer.argument, hargument, Argument.inCamelCase, countNeeding, List.countP_singleton]
  cases hcamel : camelized? argument.name with
  | none =>
      rw [camelName_of_none hcamel, camelized?_eq_none_iff.mp hcamel]
      exact .pure argument
  | some name =>
      obtain ⟨hneeds, rfl⟩ := camelized?_eq_some hcamel
      rw [camelName, if_pos hneeds, if_pos hneeds]
      exact (Renaming.yields_toName _ offset).andThen

lemma yields_camelArguments (offset : ℕ) (arguments : List Argument) :
    Renaming.Yields (arguments.mapM (clientRenamer.argument offset))
      (arguments.map Argument.inCamelCase) ⟨countNeeding (arguments.map (·.name)), []⟩ := by
  have hall := Renaming.Yields.mapM (yields_camelArgument offset) arguments
  rwa [total_countNeeding, ← List.map_eq_flatMap] at hall

lemma yields_camelDirectives (offset : ℕ) (directives : List Directive) :
    Renaming.Yields (directives.mapM (clientRenamer.directive offset))
      (directives.map Directive.inCamelCase)
      ⟨countNeeding ((marked directives).map (·.name)), []⟩ := by
  have hone (directive : Directive) :
      (clientRenamer.directive offset directive).Yields directive.inCamelCase
        ⟨countNeeding (directive.arguments.map (·.name)), []⟩ :=
    (yields_camelArguments offset directive.arguments).andThen
  have hall := Renaming.Yields.mapM hone directives
  rwa [total_countNeeding, ← List.map_flatMap] at hall

/-- The name of a field and its alias, whose arguments and directives do not
change yet. -/
lemma yields_camelizeField (offset : ℕ) (field : Field) :
    (camelizeField offset field).Yields
      { field with
        alias? := if needsCamelize field.name then some field.responseKey else field.alias?
        name := camelName field.name }
      ⟨countNeeding [field.name], []⟩ := by
  rw [camelizeField, countNeeding, List.countP_singleton]
  cases hcamel : camelized? field.name with
  | none =>
      rw [camelName_of_none hcamel, camelized?_eq_none_iff.mp hcamel]
      exact .pure field
  | some name =>
      obtain ⟨hneeds, rfl⟩ := camelized?_eq_some hcamel
      rw [camelName, if_pos hneeds, if_pos hneeds, if_pos hneeds]
      exact (Renaming.yields_toName _ offset).andThen

lemma yields_camelVisit (start : ℕ) (parent : Option String) (field : Field) :
    (clientRenamer.visit start parent field).Yields field.inCamelCase
      ⟨countNeeding (field.visitedNames.map (·.2)), []⟩ := by
  rw [Renamer.visit]
  refine ((yields_camelizeField _ field).bind ((yields_camelArguments _ _).bind
    (yields_camelDirectives _ _).andThen)).congr ?_
  rw [plus_countNeeding, plus_countNeeding, Field.map_visitedNames, Field.appliedArguments,
    List.map_append]
  rfl

lemma yields_camelSelections (start : ℕ) (parent : Option String) (selections : List Selection) :
    (clientRenamer.selections start parent selections).Yields
      (Selection.withFieldsAll Field.inCamelCase selections)
      ⟨countNeeding ((Selection.fieldsAll selections).flatMap fun field =>
        field.visitedNames.map (·.2)), []⟩ := by
  rw [← total_countNeeding]
  exact yields_withFieldsAll (yields_camelVisit start) parent selections

lemma yields_camelDefinition (start : ℕ) (definition : Definition) :
    (clientRenamer.definition start definition).Yields definition.inCamelCase
      ⟨countNeeding (definition.visitedNames.map (·.2)), []⟩ := by
  rw [Definition.map_visitedNames, ← plus_countNeeding]
  have hmarks := yields_camelDirectives start
  have hbelow := yields_camelSelections start
  cases definition with
  | operation o => exact (hmarks o.directives).bind (hbelow none o.selections).andThen
  | fragment f => exact (hmarks f.directives).bind (hbelow none f.selections).andThen
  | type t => exact .pure _
  | directive d => exact .pure _
  | schema s => exact .pure _

/-- Putting a document into camel case is doing so with each field on its own,
and counts the names that need it. -/
lemma yields_camelDocument (start : ℕ) (document : Document) :
    (clientRenamer.document start document).Yields document.inCamelCase
      ⟨countNeeding (document.visitedNames.map (·.2)), []⟩ := by
  have hall : (clientRenamer.document start document).Yields document.inCamelCase _ :=
    (Renaming.Yields.mapM (yields_camelDefinition start) document.definitions).andThen
  rwa [total_countNeeding, ← Document.map_visitedNames] at hall

end Yields

/-! What the names are afterwards. -/

section Names

lemma map_name_inCamelCase (arguments : List Argument) :
    (arguments.map Argument.inCamelCase).map (·.name) =
      (arguments.map (·.name)).map camelName := by
  rw [List.map_map, List.map_map]
  rfl

lemma marked_inCamelCase (directives : List Directive) :
    marked (directives.map Directive.inCamelCase) =
      (marked directives).map Argument.inCamelCase := by
  rw [marked, List.flatMap_map, marked, List.map_flatMap]
  rfl

lemma visitedNames_field_inCamelCase (field : Field) :
    field.inCamelCase.visitedNames.map (·.2) = (field.visitedNames.map (·.2)).map camelName := by
  have happlied : field.inCamelCase.appliedArguments =
      field.appliedArguments.map Argument.inCamelCase := by
    rw [Field.appliedArguments, Field.appliedArguments, List.map_append, ← marked_inCamelCase]
    rfl
  rw [Field.map_visitedNames, Field.map_visitedNames, happlied, map_name_inCamelCase,
    List.map_cons]
  rfl

lemma visitedNames_definition_inCamelCase (definition : Definition) :
    definition.inCamelCase.visitedNames.map (·.2) =
      (definition.visitedNames.map (·.2)).map camelName := by
  have hall (directives : List Directive) (selections : List Selection) :
      (marked (directives.map Directive.inCamelCase)).map (·.name) ++
          (Selection.fieldsAll (Selection.withFieldsAll Field.inCamelCase selections)).flatMap
            (fun field => field.visitedNames.map (·.2)) =
        ((marked directives).map (·.name) ++ (Selection.fieldsAll selections).flatMap
          fun field => field.visitedNames.map (·.2)).map camelName := by
    simp only [marked_inCamelCase, map_name_inCamelCase, Selection.fieldsAll_withFieldsAll,
      List.flatMap_map, visitedNames_field_inCamelCase, List.map_append, List.map_flatMap]
  rw [Definition.map_visitedNames, Definition.map_visitedNames]
  cases definition with
  | operation o => exact hall o.directives o.selections
  | fragment f => exact hall f.directives f.selections
  | type t => rfl
  | directive d => rfl
  | schema s => rfl

lemma visitedNames_inCamelCase (document : Document) :
    document.inCamelCase.visitedNames.map (·.2) =
      (document.visitedNames.map (·.2)).map camelName := by
  rw [Document.map_visitedNames, Document.map_visitedNames, Document.inCamelCase,
    List.flatMap_map, List.map_flatMap]
  simp only [visitedNames_definition_inCamelCase]

end Names

/-! What is left to count. -/

section Again

lemma map_inCamelCase_eq_self {arguments : List Argument}
    (h : ∀ argument ∈ arguments, needsCamelize argument.name = false) :
    arguments.map Argument.inCamelCase = arguments := by
  conv_rhs => rw [← List.map_id arguments]
  refine List.map_congr_left fun argument hargument => ?_
  rw [Argument.inCamelCase, camelName_eq_self_iff.mpr (h argument hargument)]
  rfl

lemma directives_inCamelCase_eq_self {directives : List Directive}
    (h : ∀ argument ∈ marked directives, needsCamelize argument.name = false) :
    directives.map Directive.inCamelCase = directives := by
  conv_rhs => rw [← List.map_id directives]
  refine List.map_congr_left fun directive hdirective => ?_
  rw [Directive.inCamelCase, map_inCamelCase_eq_self fun argument hargument =>
    h argument (List.mem_flatMap_of_mem hdirective hargument)]
  rfl

lemma field_inCamelCase_eq_self {field : Field}
    (h : ∀ name ∈ field.visitedNames.map (·.2), needsCamelize name = false) :
    field.inCamelCase = field := by
  rw [Field.map_visitedNames, List.forall_mem_cons, List.forall_mem_map, Field.appliedArguments,
    List.forall_mem_append] at h
  obtain ⟨hname, harguments, hdirectives⟩ := h
  rw [Field.inCamelCase, hname, if_neg Bool.false_ne_true, camelName_eq_self_iff.mpr hname,
    map_inCamelCase_eq_self harguments, directives_inCamelCase_eq_self hdirectives]

lemma definition_inCamelCase_eq_self {definition : Definition}
    (h : ∀ name ∈ definition.visitedNames.map (·.2), needsCamelize name = false) :
    definition.inCamelCase = definition := by
  rw [Definition.map_visitedNames, List.forall_mem_append, List.forall_mem_map,
    List.forall_mem_flatMap] at h
  obtain ⟨hmarks, hfields⟩ := h
  have hmarks := directives_inCamelCase_eq_self hmarks
  have hbelow := Selection.withFieldsAll_eq_self fun field hfield =>
    field_inCamelCase_eq_self (hfields field hfield)
  cases definition with
  | operation o =>
      simp only [Definition.marks, Definition.selections] at hmarks hbelow
      rw [Definition.inCamelCase, hmarks, hbelow]
  | fragment f =>
      simp only [Definition.marks, Definition.selections] at hmarks hbelow
      rw [Definition.inCamelCase, hmarks, hbelow]
  | type t => rfl
  | directive d => rfl
  | schema s => rfl

/-- A document without names that need camel case stays as it is. -/
lemma inCamelCase_eq_self {document : Document}
    (h : ∀ name ∈ document.visitedNames.map (·.2), needsCamelize name = false) :
    document.inCamelCase = document := by
  obtain ⟨definitions⟩ := document
  rw [Document.map_visitedNames, List.forall_mem_flatMap] at h
  rw [Document.inCamelCase]
  congr 1
  conv_rhs => rw [← List.map_id definitions]
  exact List.map_congr_left fun definition hdefinition =>
    definition_inCamelCase_eq_self (h definition hdefinition)

/-- What is in camel case stays so, and nothing is counted. -/
lemma run_inCamelCase_again (start : ℕ) (document : Document) (tally : Tally) :
    (clientRenamer.document start document.inCamelCase).run tally =
      .ok (document.inCamelCase, tally) := by
  have hnone : ∀ name ∈ document.inCamelCase.visitedNames.map (·.2),
      needsCamelize name = false := by
    rw [visitedNames_inCamelCase, List.forall_mem_map]
    exact fun name _ => needsCamelize_camelName name
  have hasked : document.inCamelCase.visitedNames.flatMap (askedFor start) = [] := by
    refine List.flatMap_eq_nil_iff.mpr fun visited hvisited => ?_
    have hkept := hnone visited.2 (List.mem_map_of_mem hvisited)
    rw [askedFor, camelized?_eq_none_iff.mpr hkept]
    rfl
  have hrun := (asks_document start document.inCamelCase).run tally
  rw [hasked] at hrun
  obtain ⟨⟨again, tally'⟩, hrun⟩ := hrun
  obtain ⟨rfl, rfl⟩ := yields_camelDocument start _ tally again tally' hrun
  have hcount : countNeeding (document.inCamelCase.visitedNames.map (·.2)) = 0 := by
    rw [countNeeding, List.countP_eq_zero]
    exact fun name hname => Bool.eq_false_iff.mp (hnone name hname)
  rw [hrun, inCamelCase_eq_self hnone, hcount]
  exact congrArg (fun total => Except.ok (_, total)) tally.plus_empty

end Again

/-! What is counted. -/

section Counts

lemma systemMarks_inCamelCase (definition : Definition) :
    definition.inCamelCase.systemMarks = definition.systemMarks := by
  cases definition <;> rfl

/-- What camel case counts are the names that it changes, one by one, and where it
counts nothing it changes nothing at all. -/
lemma run_inCamelCase {start : ℕ} {document camelized : Document} {tally : Tally}
    (h : (clientRenamer.document start document).run {} = .ok (camelized, tally)) :
    camelized = document.inCamelCase ∧ (tally.renamed = 0 → camelized = document) ∧
      document.names.length = camelized.names.length ∧
      tally = ⟨countChanged document.names camelized.names, []⟩ := by
  obtain ⟨-, -, hpassed⟩ := Renamer.ensures_document_settled clientRenamer_settlesAtOnce start
    document {} trivial _ _ h
  obtain ⟨rfl, rfl⟩ := yields_camelDocument start document {} camelized tally h
  have hkept : document.inCamelCase.keptArguments = document.keptArguments := by
    rw [Document.keptArguments, Document.keptArguments, hpassed, Document.inCamelCase,
      List.flatMap_map]
    simp only [systemMarks_inCamelCase]
  refine ⟨rfl, fun hnone => ?_, ?_, ?_⟩
  · rw [Tally.plus, Nat.zero_add, countNeeding, List.countP_eq_zero] at hnone
    exact inCamelCase_eq_self fun name hname => Bool.eq_false_iff.mpr (hnone name hname)
  · rw [Document.names, Document.names, visitedNames_inCamelCase, hkept]
    simp only [List.length_append, List.length_map]
  · rw [Document.names, Document.names, visitedNames_inCamelCase, hkept,
      countChanged_append (by simp only [List.length_map]), countChanged_self,
      countChanged_map_right, countNeeding]
    simp only [bne_camelName]
    simp [Tally.plus]

end Counts

end GraphMigrate
