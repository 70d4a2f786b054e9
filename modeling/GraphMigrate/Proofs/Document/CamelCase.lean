/-
Client documents before and after their names are put into camel case.

Two documents are compared node by node.  The relation says of every node
what may change and what must not: a field keeps the key under which it
stands in a response, so it gets an alias when its name changes and it has
none.

* `Field.Camelized`, `Selection.Camelized`, `Definition.Camelized`: a node
  and what becomes of it;
* `ensures_selections`: the walk through selections relates each selection
  to what the walk makes of it;
* `camelized_document_keeps_responses`: **a document that is put into camel
  case keeps its shape and all response keys, and nothing changes but names
  of fields and arguments and the aliases that make up for it**.
-/
import GraphMigrate.Migration.ClientNames
import GraphMigrate.Proofs.CamelCase
import GraphMigrate.Proofs.Control.Ensures

namespace GraphMigrate

open Naming (camelize needsCamelize)

namespace Document

/-- The name that becomes of a name. -/
def camelName (name : String) : String := if needsCamelize name then camelize name else name

/-- An argument and what becomes of it: the value stays. -/
structure Argument.Camelized (old new : Argument) : Prop where
  name : new.name = camelName old.name
  value : new.value = old.value

/-- A directive and what becomes of it: the name stays. -/
structure Directive.Camelized (old new : Directive) : Prop where
  name : new.name = old.name
  arguments : List.Forall₂ Argument.Camelized old.arguments new.arguments

/-- What is said of a field, and what becomes of it. -/
structure Field.Camelized (old new : Field) : Prop where
  offset : new.offset = old.offset
  name : new.name = camelName old.name
  responseKey : new.responseKey = old.responseKey
  /-- An alias is added exactly where the name changes, and is the old name. -/
  alias_of_none : old.alias? = none →
    new.alias? = if new.name ≠ old.name then some old.name else none
  alias_of_some : ∀ name, old.alias? = some name → new.alias? = some name
  arguments : List.Forall₂ Argument.Camelized old.arguments new.arguments
  directives : List.Forall₂ Directive.Camelized old.directives new.directives

/-- A member of a selection set and what becomes of it.  Spreads stay as
they are, and of inline fragments only the fields inside change. -/
inductive Selection.Camelized : Selection → Selection → Prop
  | field {old new : Field} {inner inner' : List Selection} (head : old.Camelized new)
      (below : List.Forall₂ Selection.Camelized inner inner') :
      Selection.Camelized (.field old inner) (.field new inner')
  | spread (name : String) (directives : List Directive) :
      Selection.Camelized (.spread name directives) (.spread name directives)
  | inline (condition : Option String) (directives : List Directive)
      {inner inner' : List Selection} (below : List.Forall₂ Selection.Camelized inner inner') :
      Selection.Camelized (.inline condition directives inner)
        (.inline condition directives inner')

/-- A member of a document and what becomes of it.  Definitions of types,
directives and schemas stay as they are. -/
inductive Definition.Camelized : Definition → Definition → Prop
  | operation (o : Operation) {directives : List Directive} {selections : List Selection}
      (marks : List.Forall₂ Directive.Camelized o.directives directives)
      (below : List.Forall₂ Selection.Camelized o.selections selections) :
      Definition.Camelized (.operation o) (.operation { o with directives, selections })
  | fragment (f : Fragment) {directives : List Directive} {selections : List Selection}
      (marks : List.Forall₂ Directive.Camelized f.directives directives)
      (below : List.Forall₂ Selection.Camelized f.selections selections) :
      Definition.Camelized (.fragment f) (.fragment { f with directives, selections })
  | type (t : TypeDefinition) : Definition.Camelized (.type t) (.type t)
  | directive (d : DirectiveDefinition) : Definition.Camelized (.directive d) (.directive d)
  | schema (s : SchemaDefinition) : Definition.Camelized (.schema s) (.schema s)

end Document

open Document

/-- A document and what becomes of it. -/
def Document.Camelized (old new : Document) : Prop :=
  List.Forall₂ Definition.Camelized old.definitions new.definitions

/-! ### One node -/

/-- The tally of a renaming may be any. -/
abbrev Renaming.Ensures {α : Type} (step : Renaming α) (P : α → Prop) : Prop :=
  GraphMigrate.Ensures (fun _ => True) step P

namespace Renaming

/-- A new name that is counted is the one asked for. -/
lemma ensures_toName (name : String) (offset : ℕ) : (toName name offset).Ensures (· = name) := by
  rw [toName]
  refine .ite (fun _ => ?_) fun _ => ?_
  · exact GraphMigrate.Ensures.bind (P := fun _ => True) (fun _ _ _ _ _ => ⟨trivial, trivial⟩)
      fun _ _ => .pure rfl
  · intro _ _ _ _ hrun
    cases hrun

end Renaming

lemma camelized?_eq_some {name new : String} (h : camelized? name = some new) :
    needsCamelize name = true ∧ new = camelize name := by
  rw [camelized?] at h
  split at h
  · exact ⟨‹_›, (Option.some.inj h).symm⟩
  · cases h

lemma camelName_of_none {name : String} (h : camelized? name = none) : camelName name = name := by
  rw [camelized?] at h
  split at h
  · cases h
  · rw [camelName, if_neg ‹_›]

lemma ensures_argument (offset : ℕ) (argument : Argument) :
    (clientRenamer.argument offset argument).Ensures argument.Camelized := by
  rw [Renamer.argument]
  split
  · rename_i hname
    exact .pure ⟨(camelName_of_none hname).symm, rfl⟩
  · rename_i new hname
    obtain ⟨hneeds, rfl⟩ := camelized?_eq_some hname
    refine (Renaming.ensures_toName _ _).bind fun name hnew => .pure ⟨?_, rfl⟩
    rw [hnew, camelName, if_pos hneeds]

lemma ensures_directive (offset : ℕ) (directive : Directive) :
    (clientRenamer.directive offset directive).Ensures directive.Camelized := by
  rw [Renamer.directive]
  exact (Ensures.mapM (ensures_argument offset) _).bind fun arguments harguments =>
    .pure ⟨rfl, harguments⟩

/-- The name of a field and its alias, whose arguments and directives do not
change yet. -/
lemma ensures_camelizeField (offset : ℕ) (field : Field) :
    (camelizeField offset field).Ensures fun new =>
      new.offset = field.offset ∧ new.name = camelName field.name ∧
      new.responseKey = field.responseKey ∧
      (field.alias? = none → new.alias? = if new.name ≠ field.name then some field.name else none) ∧
      ∀ name, field.alias? = some name → new.alias? = some name := by
  rw [camelizeField]
  split
  · rename_i hname
    refine .pure ⟨rfl, (camelName_of_none hname).symm, rfl, fun hnone => ?_, fun _ h => h⟩
    rw [hnone, if_neg (not_not.mpr rfl)]
  · rename_i new hname
    obtain ⟨hneeds, rfl⟩ := camelized?_eq_some hname
    refine (Renaming.ensures_toName _ _).bind fun name hnew =>
      .pure ⟨rfl, ?_, rfl, fun hnone => ?_, fun key hkey => ?_⟩
    · rw [hnew, camelName, if_pos hneeds]
    · -- a name that needs camel case is not in camel case
      have hne : name ≠ field.name := fun heq =>
        Naming.camelize_ne_of_needsCamelize hneeds hneeds (hnew ▸ heq)
      rw [if_pos hne, Field.responseKey, hnone, Option.getD_none]
    · rw [Field.responseKey, hkey, Option.getD_some]

lemma ensures_visit (start : ℕ) (parent : Option String) (field : Field) :
    (clientRenamer.visit start parent field).Ensures field.Camelized := by
  rw [Renamer.visit]
  refine (ensures_camelizeField _ _).bind fun named hnamed => ?_
  refine (Ensures.mapM (ensures_argument _) _).bind fun arguments harguments => ?_
  refine (Ensures.mapM (ensures_directive _) _).bind fun directives hdirectives => .pure ?_
  obtain ⟨hoffset, hname, hkey, hnone, hsome⟩ := hnamed
  exact ⟨hoffset, hname, hkey, hnone, hsome, harguments, hdirectives⟩

/-! ### The tree -/

section Walk

variable {innerType? : String → String → Option String}
  {visit : Option String → Field → Renaming Field}

mutual

/-- The walk through a selection, if each visit of a field puts it into
camel case. -/
lemma ensures_selection (hvisit : ∀ parent field, (visit parent field).Ensures field.Camelized) :
    ∀ (parent : Option String) (selection : Selection),
      (selection.mapFields innerType? visit parent).Ensures selection.Camelized
  | parent, .field head inner => by
      rw [Selection.mapFields]
      exact (hvisit parent head).bind fun new hnew =>
        (ensures_selections hvisit _ inner).bind fun _ hinner => .pure (.field hnew hinner)
  | _, .spread name directives => by
      rw [Selection.mapFields]
      exact .pure (.spread name directives)
  | _, .inline condition directives inner => by
      rw [Selection.mapFields]
      exact (ensures_selections hvisit _ inner).bind fun _ hinner =>
        .pure (.inline condition directives hinner)

/-- The walk through a selection set. -/
lemma ensures_selections (hvisit : ∀ parent field, (visit parent field).Ensures field.Camelized) :
    ∀ (parent : Option String) (selections : List Selection),
      (Selection.mapFieldsAll innerType? visit parent selections).Ensures
        (List.Forall₂ Selection.Camelized selections)
  | _, [] => by
      rw [Selection.mapFieldsAll]
      exact .pure .nil
  | parent, selection :: selections => by
      rw [Selection.mapFieldsAll]
      exact (ensures_selection hvisit parent selection).bind fun _ hfirst =>
        (ensures_selections hvisit parent selections).bind fun _ hlater =>
          .pure (.cons hfirst hlater)

end

end Walk

lemma ensures_definition (start : ℕ) (definition : Definition) :
    (clientRenamer.definition start definition).Ensures definition.Camelized := by
  cases definition with
  | operation o =>
      exact (Ensures.mapM (ensures_directive start) _).bind fun _ hmarks =>
        (ensures_selections (ensures_visit start) _ _).bind fun _ hbelow =>
          .pure (.operation o hmarks hbelow)
  | fragment f =>
      exact (Ensures.mapM (ensures_directive start) _).bind fun _ hmarks =>
        (ensures_selections (ensures_visit start) _ _).bind fun _ hbelow =>
          .pure (.fragment f hmarks hbelow)
  | type t => exact .pure (.type t)
  | directive d => exact .pure (.directive d)
  | schema s => exact .pure (.schema s)

/-- **A document in camel case keeps its responses.**  Where renaming
succeeds, the new document has the shape of the old one; every field of an
operation or fragment, at any depth, keeps its response key and has the
camel case form of its name if it needs one; it gets an alias exactly when
its name changes and it has none.  Names of arguments of fields and
directives change likewise, and nothing else changes. -/
theorem camelized_document_keeps_responses {start : ℕ} {document camelized : Document}
    {tally tally' : Tally}
    (h : (clientRenamer.document start document).run tally = .ok (camelized, tally')) :
    document.Camelized camelized := by
  have hensures : (clientRenamer.document start document).Ensures document.Camelized := by
    rw [Renamer.document]
    exact (Ensures.mapM (ensures_definition start) _).bind fun _ hdefinitions => .pure hdefinitions
  exact (hensures tally trivial camelized tally' h).2

/-- A field with an argument and a directive, around a field with an alias
and one in an inline fragment. -/
def galleryText : String :=
  "\x7b a_page(max_n: 1) @cache(max_age: 2) \x7b day: b_day ... on T \x7b url_id \x7d \x7d \x7d"

/-- The same document in camel case, as it is printed. -/
def galleryCamelized : String :=
  "\x7b\n  a_page: aPage(maxN: 1) @cache(maxAge: 2) \x7b\n    day: bDay\n" ++
    "    ... on T \x7b\n      url_id: URLID\n    \x7d\n  \x7d\n\x7d\n"

theorem camelized_gallery_keeps_responses :
    ∃ document camelized tally', Document.parse? galleryText.toList = some document ∧
      (clientRenamer.document 7 document).run {} = .ok (camelized, tally') ∧
      camelized.written = galleryCamelized ∧ document.Camelized camelized := by
  have hcheck : (Document.parse? galleryText.toList).any (fun document =>
      ((clientRenamer.document 7 document).run {}).toOption.any fun renamed =>
        renamed.1.written == galleryCamelized) = true := by
    decide +kernel
  obtain ⟨document, hparse, hrun⟩ := Option.any_eq_true _ _ |>.mp hcheck
  obtain ⟨⟨camelized, tally'⟩, hok, hwritten⟩ := Option.any_eq_true _ _ |>.mp hrun
  have hok' : (clientRenamer.document 7 document).run {} = .ok (camelized, tally') :=
    eq_ok_of_toOption hok
  exact ⟨document, camelized, tally', hparse, hok', eq_of_beq hwritten,
    camelized_document_keeps_responses hok'⟩

end GraphMigrate
