/-
Documents that cannot be put into camel case.

A renaming asks for new names one after another and fails at the first that
is no valid name.  Which names it asks for follows from the document alone,
so whether and where it fails can be told in advance.

* `Field.visitedNames`, `Document.visitedNames`: the names that a renamer
  comes to, with the offsets at which it counts them;
* `firstRefusal`, `Renaming.Asks`: what comes of asking for names, and the
  steps of a renaming that ask for them;
* `asks_document`: the names that camel case asks for;
* `camel_case_is_refused_iff`: **camel case turns names into names unless they
  lose their start, and a document that was read fails at the first such
  name**.
-/
import GraphMigrate.Proofs.CamelCaseNames
import GraphMigrate.Proofs.Document.Names

namespace GraphMigrate

open Document (Argument Definition Directive Field Schema Selection isName)
open Naming (camelize losesStart needsCamelize)

/-! ### Names that a renamer comes to -/

/-- The name of a field and those of its arguments and of the arguments of
directives on it, at the offset of the field. -/
def Document.Field.visitedNames (field : Field) : List (ℕ × String) :=
  (field.offset, field.name) ::
    field.appliedArguments.map fun argument => (field.offset, argument.name)

/-- The names of arguments of the directives on a definition, at the start of
the document, and those of its fields. -/
def Document.Definition.visitedNames (definition : Definition) : List (ℕ × String) :=
  (Document.marked definition.marks).map (fun argument => (0, argument.name)) ++
    (Selection.fieldsAll definition.selections).flatMap Field.visitedNames

/-- The names in a document that a renamer comes to, in the order in which it
does. -/
def Document.visitedNames (document : Document) : List (ℕ × String) :=
  document.definitions.flatMap Definition.visitedNames

/-! ### Asking for names -/

/-- What comes of asking for names one after another. -/
def firstRefusal : List (String × ℕ) → Except MigrationError Unit
  | [] => .ok ()
  | (name, offset) :: later =>
    if isName name then firstRefusal later else .error (.invalidName name offset)

lemma firstRefusal_append (asked asked' : List (String × ℕ)) :
    firstRefusal (asked ++ asked') = (firstRefusal asked >>= fun _ => firstRefusal asked') := by
  induction asked with
  | nil => rfl
  | cons name asked ih =>
      rw [List.cons_append, firstRefusal, firstRefusal, ih]
      split <;> rfl

namespace Renaming

variable {α β : Type}

/-- A step that asks for names one after another, and fails for no other
reason. -/
def Asks (step : Renaming α) (asked : List (String × ℕ)) : Prop :=
  ∀ tally, (step tally).map (fun _ => ()) = firstRefusal asked

namespace Asks

variable {asked asked' : List (String × ℕ)}

protected lemma pure (a : α) : Asks (pure a) [] := fun _ => rfl

/-- A step that goes on with what another gave. -/
protected lemma bind {step : Renaming α} {next : α → Renaming β} (h : Asks step asked)
    (hnext : ∀ a, Asks (next a) asked') : Asks (step >>= next) (asked ++ asked') := by
  intro tally
  rw [firstRefusal_append, ← h tally]
  change (step tally >>= fun r => next r.1 r.2).map _ = _
  cases step tally with
  | error e => rfl
  | ok r => exact hnext r.1 r.2

/-- A step whose result is put into something else. -/
lemma andThen {step : Renaming α} (h : Asks step asked) (f : α → β) :
    Asks (step >>= fun a => pure (f a)) asked := by
  have hbind : Asks (step >>= fun a => pure (f a)) (asked ++ []) := h.bind fun a => .pure (f a)
  rwa [List.append_nil] at hbind

/-- A step for each member of a list. -/
protected lemma mapM {step : α → Renaming β} {asked : α → List (String × ℕ)}
    (h : ∀ a, Asks (step a) (asked a)) (as : List α) :
    Asks (as.mapM step) (as.flatMap asked) := by
  induction as with
  | nil =>
      rw [List.mapM_nil]
      exact .pure []
  | cons a as ih =>
      rw [List.mapM_cons, List.flatMap_cons]
      exact (h a).bind fun b => ih.andThen (b :: ·)

end Asks

/-- A step that asks for names gives a result unless one of them is refused. -/
lemma Asks.run {step : Renaming α} {asked : List (String × ℕ)} (h : step.Asks asked)
    (tally : Tally) :
    match firstRefusal asked with
    | .ok _ => ∃ result, step.run tally = .ok result
    | .error e => step.run tally = .error e := by
  rw [← h tally, StateT.run]
  cases step tally with
  | ok result => exact ⟨result, rfl⟩
  | error e => rfl

lemma asks_toName (name : String) (offset : ℕ) : (toName name offset).Asks [(name, offset)] := by
  intro tally
  rw [toName, firstRefusal]
  split <;> rfl

end Renaming

/-! ### Camel case -/

/-- The name that camel case asks for in place of another, if it does, in a
document that starts at an offset. -/
def askedFor (start : ℕ) (visited : ℕ × String) : List (String × ℕ) :=
  (camelized? visited.2).toList.map fun name => (name, start + visited.1)

section CamelCase

variable (start : ℕ)

lemma asks_argument (offset : ℕ) (argument : Argument) :
    (clientRenamer.argument (start + offset) argument).Asks
      (askedFor start (offset, argument.name)) := by
  have hargument : clientRenamer.argument? argument.name = camelized? argument.name := rfl
  rw [Renamer.argument, askedFor, hargument]
  cases camelized? argument.name with
  | none => exact .pure argument
  | some name => exact (Renaming.asks_toName name _).andThen _

lemma asks_arguments (offset : ℕ) (arguments : List Argument) :
    Renaming.Asks (arguments.mapM (clientRenamer.argument (start + offset)))
      ((arguments.map fun argument => (offset, argument.name)).flatMap (askedFor start)) := by
  rw [List.flatMap_map]
  exact .mapM (asks_argument start offset) arguments

lemma asks_directives (offset : ℕ) (directives : List Directive) :
    Renaming.Asks (directives.mapM (clientRenamer.directive (start + offset)))
      (((Document.marked directives).map fun argument => (offset, argument.name)).flatMap
        (askedFor start)) := by
  have hone (directive : Directive) :
      (clientRenamer.directive (start + offset) directive).Asks
        ((directive.arguments.map fun argument => (offset, argument.name)).flatMap
          (askedFor start)) := by
    rw [Renamer.directive]
    exact (asks_arguments start offset directive.arguments).andThen _
  rw [Document.marked, List.map_flatMap, List.flatMap_assoc]
  exact .mapM hone directives

lemma asks_camelizeField (field : Field) :
    (camelizeField (start + field.offset) field).Asks
      (askedFor start (field.offset, field.name)) := by
  rw [camelizeField, askedFor]
  cases camelized? field.name with
  | none => exact .pure field
  | some name => exact (Renaming.asks_toName name _).andThen _

lemma asks_visit (parent : Option String) (field : Field) :
    (clientRenamer.visit start parent field).Asks
      (field.visitedNames.flatMap (askedFor start)) := by
  rw [Renamer.visit, Field.visitedNames, Field.appliedArguments, List.flatMap_cons,
    List.map_append, List.flatMap_append]
  exact (asks_camelizeField start field).bind fun named =>
    (asks_arguments start field.offset field.arguments).bind fun arguments =>
      (asks_directives start field.offset field.directives).andThen _

end CamelCase

section Walk

variable {innerType? : String → String → Option String}
  {visit : Option String → Field → Renaming Field} {asked : Field → List (String × ℕ)}

mutual

/-- The walk through a selection asks for what the visits of its fields ask
for. -/
lemma asks_selection (hvisit : ∀ parent field, (visit parent field).Asks (asked field)) :
    ∀ (parent : Option String) (selection : Selection),
      (selection.mapFields innerType? visit parent).Asks (selection.fields.flatMap asked)
  | parent, .field head inner => by
      rw [Selection.mapFields, Selection.fields, List.flatMap_cons]
      exact (hvisit parent head).bind fun visited => (asks_selections hvisit _ inner).andThen _
  | _, .spread name directives => by
      rw [Selection.mapFields]
      exact .pure _
  | _, .inline condition directives inner => by
      rw [Selection.mapFields, Selection.fields]
      exact (asks_selections hvisit _ inner).andThen _

/-- The walk through a selection set. -/
lemma asks_selections (hvisit : ∀ parent field, (visit parent field).Asks (asked field)) :
    ∀ (parent : Option String) (selections : List Selection),
      Renaming.Asks (Selection.mapFieldsAll innerType? visit parent selections)
        ((Selection.fieldsAll selections).flatMap asked)
  | _, [] => by
      rw [Selection.mapFieldsAll]
      exact .pure _
  | parent, selection :: selections => by
      rw [Selection.mapFieldsAll, Selection.fieldsAll, List.flatMap_append]
      exact (asks_selection hvisit parent selection).bind fun first =>
        (asks_selections hvisit parent selections).andThen _

end

end Walk

section Documents

variable (start : ℕ)

lemma asks_definition (definition : Definition) :
    (clientRenamer.definition start definition).Asks
      (definition.visitedNames.flatMap (askedFor start)) := by
  have hmarks := asks_directives start 0
  have hselections (parent : Option String) (selections : List Selection) :
      (clientRenamer.selections start parent selections).Asks
        (((Selection.fieldsAll selections).flatMap Field.visitedNames).flatMap
          (askedFor start)) := by
    rw [List.flatMap_assoc]
    exact asks_selections (asks_visit start) parent selections
  rw [Definition.visitedNames, List.flatMap_append]
  cases definition with
  | operation o =>
      exact (hmarks o.directives).bind fun _ => (hselections _ o.selections).andThen _
  | fragment f =>
      exact (hmarks f.directives).bind fun _ => (hselections _ f.selections).andThen _
  | type t => exact .pure _
  | directive d => exact .pure _
  | schema s => exact .pure _

lemma asks_document (document : Document) :
    (clientRenamer.document start document).Asks
      (document.visitedNames.flatMap (askedFor start)) := by
  rw [Renamer.document, Document.visitedNames, List.flatMap_assoc]
  exact (Renaming.Asks.mapM (asks_definition start) document.definitions).andThen _

end Documents

/-! ### Names that are refused -/

/-- The names in a document that was read are valid. -/
lemma isName_of_mem_visitedNames {text : List Char} {document : Document}
    (h : Document.parse? text = some document) :
    ∀ visited ∈ document.visitedNames, isName visited.2 := by
  intro visited hvisited
  obtain ⟨definition, hdefinition, hvisited⟩ := List.mem_flatMap.mp hvisited
  obtain ⟨hmarks, hselections⟩ := Document.valid_of_parse? h definition hdefinition
  rcases List.mem_append.mp hvisited with hvisited | hvisited
  · obtain ⟨argument, hargument, rfl⟩ := List.mem_map.mp hvisited
    exact (Document.valid_marked _).mpr hmarks argument hargument
  · obtain ⟨field, hfield, hvisited⟩ := List.mem_flatMap.mp hvisited
    obtain ⟨hname, harguments⟩ := (Document.valid_fieldsAll _).mpr hselections field hfield
    rcases List.mem_cons.mp hvisited with rfl | hvisited
    · exact hname
    · obtain ⟨argument, hargument, rfl⟩ := List.mem_map.mp hvisited
      exact harguments argument hargument

/-- Asking for camel case fails at the first name that loses its start. -/
lemma firstRefusal_askedFor (start : ℕ) {visited : List (ℕ × String)}
    (h : ∀ name ∈ visited, isName name.2) :
    firstRefusal (visited.flatMap (askedFor start)) =
      match visited.find? (fun name => losesStart name.2) with
      | none => .ok ()
      | some (offset, name) => .error (.invalidName (camelize name) (start + offset)) := by
  induction visited with
  | nil => rfl
  | cons first visited ih =>
      obtain ⟨hfirst, hlater⟩ := List.forall_mem_cons.mp h
      have hiff := Naming.isName_camelize_iff hfirst
      rw [List.flatMap_cons, List.find?_cons, askedFor]
      cases hcamel : camelized? first.2 with
      | none =>
          have hkept : losesStart first.2 = false := Bool.eq_false_iff.mpr fun hloses =>
            Bool.eq_false_iff.mp (camelized?_eq_none_iff.mp hcamel)
              (Naming.needsCamelize_of_losesStart hloses)
          rw [hkept]
          exact ih hlater
      | some name =>
          obtain ⟨-, rfl⟩ := camelized?_eq_some hcamel
          simp only [Option.toList_some, List.map_cons, List.map_nil, List.singleton_append,
            firstRefusal]
          cases hloses : losesStart first.2 with
          | true => rw [if_neg fun hname => by simp [hiff.mp hname] at hloses]
          | false =>
              rw [if_pos (hiff.mpr hloses)]
              exact ih hlater

/-- **Camel case turns names into names unless they lose their start, and for
no other reason a document fails.**  A name loses its start if it is an
underscore or an underscore and a digit come first in it; its camel case form
is no name then.  Camel case succeeds on a document that was read exactly if
the renamer comes to no such name, and else refuses the first one. -/
theorem camel_case_is_refused_iff {text : List Char} {document : Document}
    (hparse : Document.parse? text = some document) (start : ℕ) (tally : Tally) :
    (∀ name, isName name → (isName (camelize name) ↔ losesStart name = false)) ∧
    match document.visitedNames.find? (fun visited => losesStart visited.2) with
    | none => ∃ result, (clientRenamer.document start document).run tally = .ok result
    | some (offset, name) => (clientRenamer.document start document).run tally =
        .error (.invalidName (camelize name) (start + offset)) := by
  refine ⟨fun name => Naming.isName_camelize_iff, ?_⟩
  have hasks := asks_document start document tally
  rw [firstRefusal_askedFor start (isName_of_mem_visitedNames hparse)] at hasks
  change ((clientRenamer.document start document).run tally).map _ = _ at hasks
  cases hrun : (clientRenamer.document start document).run tally with
  | ok result =>
      rw [hrun] at hasks
      split
      · exact ⟨result, rfl⟩
      · rename_i offset name hfind
        rw [hfind] at hasks
        cases hasks
  | error e =>
      rw [hrun] at hasks
      split
      · rename_i hfind
        rw [hfind] at hasks
        cases hasks
      · rename_i offset name hfind
        rw [hfind] at hasks
        cases hasks
        rfl

/-- Names that start with an underscore, the last two of which lose their
start. -/
def exhibitText : String := "\x7b show(_id: 1) @live(page_no: 2) \x7b _1a _ \x7d \x7d"

theorem camel_case_is_refused_in_exhibit :
    isName (camelize "_id") ∧
    ∃ document, Document.parse? exhibitText.toList = some document ∧
      document.visitedNames =
        [(2, "show"), (2, "_id"), (2, "page_no"), (35, "_1a"), (39, "_")] ∧
      (clientRenamer.document 7 document).run {} = .error (.invalidName "1a" 42) := by
  have hcheck : (Document.parse? exhibitText.toList).any (fun document =>
      document.visitedNames ==
        [(2, "show"), (2, "_id"), (2, "page_no"), (35, "_1a"), (39, "_")]) = true := by
    decide +kernel
  obtain ⟨document, hparse, hnames⟩ := Option.any_eq_true _ _ |>.mp hcheck
  obtain ⟨hname, hrefused⟩ := camel_case_is_refused_iff hparse 7 {}
  rw [eq_of_beq hnames] at hrefused
  exact ⟨(hname "_id" (by decide)).mpr (by decide), document, hparse, eq_of_beq hnames, hrefused⟩

/-- The camel case form of a lone underscore is empty, and a document with a
field of that name fails. -/
theorem lone_underscore_is_refused :
    isName "_" ∧ camelize "_" = "" ∧ ¬ isName (camelize "_") ∧
    ∃ document, Document.parse? "\x7b _ \x7d".toList = some document ∧
      (clientRenamer.document 18 document).run {} = .error (.invalidName "" 20) := by
  have hcheck : (Document.parse? "\x7b _ \x7d".toList).any (fun document =>
      match (clientRenamer.document 18 document).run {} with
      | .ok _ => false
      | .error e => e == .invalidName "" 20) = true := by
    decide +kernel
  obtain ⟨document, hparse, hrun⟩ := Option.any_eq_true _ _ |>.mp hcheck
  refine ⟨by decide, by decide, by decide, document, hparse, ?_⟩
  split at hrun
  · cases hrun
  · rename_i e hrefused
    rw [hrefused, eq_of_beq hrun]

end GraphMigrate
