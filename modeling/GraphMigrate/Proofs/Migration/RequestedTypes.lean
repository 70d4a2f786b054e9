/-
Raw response types that are requested.

The query of a test helper gets the directive that requests the type of its raw
response, on each of its operations.  Operations that have it already stay as they
are, so a second run finds nothing to add.  The names of the operations are recorded
only if the document stands in the script afterwards: where the printed document does
not fit a template, the call of the helper is left alone altogether.

* `Document.Operation.requests`: how often an operation has the directive;
* `Requested`: a definition before and after;
* `requestRawTypes_requested`: each operation has the directive, and nothing else
  changes;
* `requestRawTypes_again`: a second run adds nothing;
* `every_operation_requests_its_type`: **what becomes of a call whose query is read**.
-/
import GraphMigrate.Migration.RawResponse
import GraphMigrate.Proofs.Control.Ensures

namespace GraphMigrate

open Document (Definition Operation)
open Script (Node Source Template)

/-! ### Operations -/

/-- How often an operation has the directive. -/
def Document.Operation.requests (operation : Operation) : ℕ :=
  operation.directives.countP (·.name == rawResponseDirective)

/-- The name of an operation that has one. -/
def Document.Definition.operationName? : Definition → Option String
  | .operation o => o.name
  | _ => none

lemma requestsRawType_iff (operation : Operation) :
    requestsRawType operation = true ↔ operation.requests ≠ 0 := by
  rw [requestsRawType, Operation.requests, ← Nat.pos_iff_ne_zero, List.countP_pos_iff,
    List.any_eq_true]

/-- An operation after its raw type was requested: it has the directive as often as before, or
once behind its other directives, and is the same otherwise. -/
structure RequestedIn (before after : Operation) : Prop where
  requests_eq : after.requests = max before.requests 1
  kept : before.requests ≠ 0 → after = before
  appended : before.requests = 0 →
    after = { before with directives := before.directives ++ [⟨rawResponseDirective, []⟩] }

/-- A definition after raw types were requested. -/
inductive Requested : Definition → Definition → Prop
  | operation {before after : Operation} (h : RequestedIn before after) :
      Requested (.operation before) (.operation after)
  | other {definition : Definition} (h : ∀ o, definition ≠ .operation o) :
      Requested definition definition

lemma requestRawType_requested (operation : Operation) :
    RequestedIn operation (requestRawType operation) := by
  by_cases h : operation.requests = 0
  · have hnew : requestRawType operation = { operation with
        directives := operation.directives ++ [⟨rawResponseDirective, []⟩] } :=
      if_neg fun hrequests => (requestsRawType_iff operation).mp hrequests h
    refine ⟨?_, fun hold => absurd h hold, fun _ => hnew⟩
    have hone : [(⟨rawResponseDirective, []⟩ : Document.Directive)].countP
        (·.name == rawResponseDirective) = 1 := by decide
    have hsum : (requestRawType operation).requests = operation.requests + 1 := by
      rw [hnew, Operation.requests, List.countP_append, hone, Operation.requests]
    omega
  · have hsame : requestRawType operation = operation :=
      if_pos ((requestsRawType_iff operation).mpr h)
    refine ⟨?_, fun _ => hsame, fun hnone => absurd hnone h⟩
    rw [hsame]
    omega

/-- An operation that has the directive stays as it is. -/
lemma requestRawType_again (operation : Operation) :
    requestRawType (requestRawType operation) = requestRawType operation := by
  have h := (requestRawType_requested operation).requests_eq
  exact (requestRawType_requested (requestRawType operation)).kept (by omega)

/-! ### Documents -/

/-- Every operation of a document has the directive. -/
def RequestsEverywhere (document : Document) : Prop :=
  ∀ o, .operation o ∈ document.definitions → o.requests ≠ 0

lemma mem_operations_iff (document : Document) (operation : Operation) :
    operation ∈ operations document ↔ .operation operation ∈ document.definitions := by
  rw [operations, List.mem_filterMap]
  constructor
  · rintro ⟨definition, hmem, hdefinition⟩
    cases definition with
    | operation o => cases hdefinition; exact hmem
    | _ => cases hdefinition
  · exact fun hmem => ⟨_, hmem, rfl⟩

lemma all_requestsRawType_iff (document : Document) :
    (operations document).all requestsRawType = true ↔ RequestsEverywhere document := by
  simp only [List.all_eq_true, requestsRawType_iff, mem_operations_iff, RequestsEverywhere]

lemma operationNames_eq (document : Document) :
    operationNames document = document.definitions.filterMap Definition.operationName? := by
  rw [operationNames, operations, List.filterMap_filterMap]
  refine congrArg (document.definitions.filterMap ·) (funext fun definition => ?_)
  cases definition <;> rfl

/-- Each operation has the directive, and nothing else changes. -/
theorem requestRawTypes_requested (document : Document) :
    List.Forall₂ Requested document.definitions (requestRawTypes document).definitions := by
  rw [requestRawTypes, List.forall₂_map_right_iff, List.forall₂_same]
  intro definition _
  cases definition with
  | operation o => exact .operation (requestRawType_requested o)
  | _ => exact .other nofun

lemma requestsEverywhere_requestRawTypes (document : Document) :
    RequestsEverywhere (requestRawTypes document) := by
  intro after hmem
  obtain ⟨before, -, h⟩ := exists_of_forall₂_right (requestRawTypes_requested document) hmem
  cases h with
  | operation h =>
      have := h.requests_eq
      omega
  | other h => exact absurd rfl (h after)

/-- A second run adds nothing. -/
theorem requestRawTypes_again (document : Document) :
    requestRawTypes (requestRawTypes document) = requestRawTypes document := by
  rw [requestRawTypes, requestRawTypes, List.map_map]
  refine congrArg Document.mk (List.map_congr_left fun definition _ => ?_)
  cases definition with
  | operation o => exact congrArg Definition.operation (requestRawType_again o)
  | _ => rfl

lemma operationNames_requestRawTypes (document : Document) :
    operationNames (requestRawTypes document) = operationNames document := by
  rw [operationNames_eq, operationNames_eq, requestRawTypes, List.filterMap_map]
  refine congrArg (document.definitions.filterMap ·) (funext fun definition => ?_)
  cases definition with
  | operation o =>
      change (requestRawType o).name = o.name
      rw [requestRawType]
      split <;> rfl
  | _ => rfl

section Typing

variable (template : Template) (document : Document)

/-- Where nothing is added the document stays in its form. -/
lemma documentTyping_of_requestsEverywhere (h : RequestsEverywhere document) :
    documentTyping template document =
      (⟨.ofNotes (anonymousNotes template document), operationNames document⟩,
        (operationNames document).getLast?) :=
  if_pos ((all_requestsRawType_iff document).mpr h)

lemma documentTyping_of_text (h : ¬ RequestsEverywhere document) {text : String}
    (htext : templateText? (requestRawTypes document) = some text) :
    documentTyping template document =
      (⟨⟨[.replace template.segment text], anonymousNotes template document⟩,
        operationNames document⟩, (operationNames document).getLast?) := by
  rw [documentTyping, if_neg (mt (all_requestsRawType_iff document).mp h), htext]

lemma documentTyping_of_unprintable (h : ¬ RequestsEverywhere document)
    (htext : templateText? (requestRawTypes document) = none) :
    documentTyping template document =
      (⟨.ofNotes (anonymousNotes template document) ++ .warn unprintableNote template.span, []⟩,
        none) := by
  rw [documentTyping, if_neg (mt (all_requestsRawType_iff document).mp h), htext]

end Typing

/-! ### Calls -/

section Calls

variable {context : Context} {language : Language} {source : Source} {helper : Helper}
  {options arguments : List Node} {node query : Node} {span : Span} {offset : ℕ}
  {template : Template} {document : Document}

lemma queryTyping_eq (htemplate : optionTemplate? context.tags source query = some template)
    (hwhole : template.interpolated = false) (hdocument : template.document = .ok document) :
    queryTyping context.tags source helper query = .ok (documentTyping template document) := by
  rw [queryTyping, htemplate]
  change (if template.interpolated = true then _ else _) = _
  rw [if_neg (by rw [hwhole]; exact Bool.false_ne_true), hdocument]
  rfl

/-- A call that names no operation is left to what was done about its query. -/
lemma helperCall_of_unnamed (hcall : calledHelper? node = some (helper, arguments, offset))
    (hoptions : arguments.head?.map Locator.argumentValue = some (.object options span))
    (hquery : findOption? source options "query" = some query) {typing : Typing}
    (htyping : queryTyping context.tags source helper query = .ok (typing, none)) :
    helperCall context language source node = .ok typing := by
  rw [helperCall, hcall]
  dsimp only
  rw [hoptions]
  dsimp only
  rw [optionsTyping, hquery]
  dsimp only
  rw [htyping]
  rfl

/-- **Every operation requests its type once.**  The query of a test helper is read, and each
of its operations has the directive afterwards: as often as before, or once behind its other
directives.  All else in the document stays, and a second run adds nothing.

The names of the operations that have one are recorded in their order, and the fixture is
typed after the last of them, if the document is complete or can be printed.  If it has to be
printed and does not fit a template, the call is left alone: nothing is edited, neither the
query nor the fixture, and no operation is recorded. -/
theorem every_operation_requests_its_type
    (hcall : calledHelper? node = some (helper, arguments, offset))
    (hoptions : arguments.head?.map Locator.argumentValue = some (.object options span))
    (hquery : findOption? source options "query" = some query)
    (htemplate : optionTemplate? context.tags source query = some template)
    (hwhole : template.interpolated = false) (hdocument : template.document = .ok document) :
    let typed := requestRawTypes document
    let names := document.definitions.filterMap Definition.operationName?
    List.Forall₂ Requested document.definitions typed.definitions ∧
    requestRawTypes typed = typed ∧
    (∀ again, ∃ notes, documentTyping again typed = (⟨⟨[], notes⟩, names⟩, names.getLast?)) ∧
    (RequestsEverywhere document → ∃ notes,
      queryTyping context.tags source helper query =
        .ok (⟨⟨[], notes⟩, names⟩, names.getLast?)) ∧
    (¬ RequestsEverywhere document → ∀ text, templateText? typed = some text → ∃ notes,
      queryTyping context.tags source helper query =
        .ok (⟨⟨[.replace template.segment text], notes⟩, names⟩, names.getLast?)) ∧
    (¬ RequestsEverywhere document → templateText? typed = none → ∃ notes,
      helperCall context language source node = .ok ⟨⟨[], notes⟩, []⟩) := by
  intro typed names
  have hquery' : queryTyping context.tags source helper query =
      .ok (documentTyping template document) := queryTyping_eq htemplate hwhole hdocument
  have hnames : operationNames document = names := operationNames_eq document
  refine ⟨requestRawTypes_requested document, requestRawTypes_again document,
    fun again => ?_, fun h => ?_, fun h text htext => ?_, fun h htext => ?_⟩
  · rw [documentTyping_of_requestsEverywhere again typed
      (requestsEverywhere_requestRawTypes document), operationNames_requestRawTypes, hnames]
    exact ⟨_, rfl⟩
  · rw [hquery', documentTyping_of_requestsEverywhere template document h, hnames]
    exact ⟨_, rfl⟩
  · rw [hquery', documentTyping_of_text template document h htext, hnames]
    exact ⟨_, rfl⟩
  · rw [documentTyping_of_unprintable template document h htext] at hquery'
    exact ⟨_, helperCall_of_unnamed hcall hoptions hquery hquery'⟩

end Calls

/-! ### A query that cannot be printed -/

/-- The characters of a query: it names a mark by its number, which is printed as it is. -/
def markedQuery : String := "query Q\x7ba(s:\"\\u0060\")\x7dquery R@raw_response_type\x7bb\x7d"

/-- The characters with nothing around them. -/
def markedSource : Source := ⟨markedQuery.toList, ⟨[]⟩⟩

/-- The query as a template. -/
def markedTemplate : Template :=
  ⟨"graphql", markedSource.quote ⟨0, 50⟩, ⟨0, 50⟩, ⟨0, 51⟩, false⟩

/-- The option of a call that holds the query. -/
def markedOption : Node :=
  .keyed ⟨.name "query", ⟨0, 5⟩⟩ [] (.tagged (.name "graphql" ⟨0, 0⟩) [] ⟨0, 50⟩ [] ⟨0, 51⟩)

/-- The object with that option. -/
def markedOptions : Node := .object [markedOption] ⟨0, 51⟩

/-- A call of a test helper with the query. -/
def markedCall : Node :=
  .call (.name "createTestEnv" ⟨0, 0⟩) [markedOptions] [] ⟨0, 51⟩

/-- One of two operations lacks the directive, but the document with it fits no template. -/
theorem marked_call_is_left_alone :
    ∃ document, markedTemplate.document = .ok document ∧ ¬ RequestsEverywhere document ∧
      document.definitions.filterMap Definition.operationName? = ["Q", "R"] ∧
      ∃ notes, helperCall {} .typeScript markedSource markedCall = .ok ⟨⟨[], notes⟩, []⟩ := by
  have hcheck : (Document.parse? markedTemplate.text.toList).any (fun document =>
      !(operations document).all requestsRawType &&
        decide (document.definitions.filterMap Definition.operationName? = ["Q", "R"]) &&
        (templateText? (requestRawTypes document)).isNone) = true := by
    decide +kernel
  obtain ⟨document, hparse, hholds⟩ := Option.any_eq_true _ _ |>.mp hcheck
  simp only [Bool.and_eq_true, Bool.not_eq_true', decide_eq_true_eq,
    Option.isNone_iff_eq_none] at hholds
  obtain ⟨⟨hlacks, hnames⟩, htext⟩ := hholds
  have hdocument : markedTemplate.document = .ok document := by
    rw [Template.document, hparse]
  have hpart : ¬ RequestsEverywhere document := fun h => by
    rw [(all_requestsRawType_iff document).mpr h] at hlacks
    cases hlacks
  have hhelper : helpers.find? (·.callee == "createTestEnv") =
      some ⟨"createTestEnv", "defaultData", none⟩ := by decide
  have hcall : calledHelper? markedCall =
      some (⟨"createTestEnv", "defaultData", none⟩, [markedOptions], 0) := by
    rw [markedCall, calledHelper?, hhelper]
    rfl
  have hname : optionName? markedSource markedOption = some "query" := by decide +kernel
  have hquery : findOption? markedSource [markedOption] "query" = some markedOption := by
    rw [findOption?, List.find?_cons_of_pos (by rw [hname]; decide)]
  let context : Context := {}
  have htemplate :
      optionTemplate? context.tags markedSource markedOption = some markedTemplate := by
    decide +kernel
  refine ⟨document, hdocument, hpart, hnames, ?_⟩
  obtain ⟨-, -, -, -, -, htyped⟩ :=
    every_operation_requests_its_type hcall rfl hquery htemplate rfl hdocument
  exact htyped hpart htext

end GraphMigrate
