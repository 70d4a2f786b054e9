/-
Imports of raw response types.

The types of the operations that a migration recorded are imported on top of the
script, one line for each.  An operation may be recorded more than once, and the script
may import its type already; neither leads to a second import.

* `distinct_of_concat`: one more name among names without repetitions;
* `IsMissing`: the operations whose types are to be imported, in their order;
* `isName_of_helperCall`: operations that are recorded have names of documents;
* `importLines_are_complete`: **what is imported, and what a second run imports**.
-/
import GraphMigrate.Migration.RawResponse
import GraphMigrate.Proofs.CamelCaseNames
import GraphMigrate.Proofs.Control.Ensures
import GraphMigrate.Proofs.Document.Names
import GraphMigrate.Proofs.Script.WrittenImport

namespace GraphMigrate

open Std.Do
open Script (Node Source)

set_option mvcgen.warning false

/-! ### Names without repetitions -/

section Distinct

variable (names : List String) (name : String)

lemma distinct_concat : distinct (names ++ [name]) =
    if (distinct names).contains name then distinct names else distinct names ++ [name] :=
  List.foldl_concat ..

lemma mem_distinct {name : String} : name ∈ distinct names ↔ name ∈ names := by
  induction names using List.reverseRecOn with
  | nil => rfl
  | append_singleton names last ih =>
      rw [distinct_concat, List.mem_append, List.mem_singleton, ← ih]
      split
      · next hseen =>
        have hlast : last ∈ distinct names := List.contains_iff_mem.mp hseen
        exact ⟨.inl, fun h => h.elim id fun heq => heq ▸ hlast⟩
      · rw [List.mem_append, List.mem_singleton]

lemma nodup_distinct : (distinct names).Nodup := by
  induction names using List.reverseRecOn with
  | nil => exact .nil
  | append_singleton names last ih =>
      rw [distinct_concat]
      split
      · exact ih
      · next hseen =>
        rw [← List.concat_eq_append, List.nodup_concat]
        exact ⟨fun h => hseen (List.contains_iff_mem.mpr h), ih⟩

/-- Names without repetitions stand in the order of their first occurrences. -/
lemma pairwise_distinct :
    (distinct names).Pairwise fun a b => names.idxOf a < names.idxOf b := by
  induction names using List.reverseRecOn with
  | nil => exact .nil
  | append_singleton names last ih =>
      have hearlier : ∀ {a}, a ∈ distinct names → (names ++ [last]).idxOf a = names.idxOf a :=
        fun ha => List.idxOf_append_of_mem ((mem_distinct names).mp ha)
      have hkept : (distinct names).Pairwise fun a b =>
          (names ++ [last]).idxOf a < (names ++ [last]).idxOf b :=
        ih.imp_of_mem fun ha hb h => by rwa [hearlier ha, hearlier hb]
      rw [distinct_concat]
      split
      · exact hkept
      · next hseen =>
        have hnew : last ∉ names := fun h =>
          hseen (List.contains_iff_mem.mpr ((mem_distinct names).mpr h))
        refine List.pairwise_append.mpr ⟨hkept, List.pairwise_singleton _ _, ?_⟩
        intro a ha b hb
        rw [List.mem_singleton] at hb
        have hmem := (mem_distinct names).mp ha
        rw [hearlier ha, hb, List.idxOf_append_of_notMem hnew]
        have hlt : names.idxOf a < names.length := List.idxOf_lt_length_of_mem hmem
        omega

end Distinct

/-! ### Missing imports -/

/-- The operations whose types are to be imported: each that was recorded and whose type is
not imported, once; the one that was recorded last comes first. -/
structure IsMissing (imported operations missing : List String) : Prop where
  nodup : missing.Nodup
  mem_iff : ∀ operation,
    operation ∈ missing ↔ operation ∈ operations ∧ rawTypeName operation ∉ imported
  latest_first :
    missing.Pairwise fun a b => operations.reverse.idxOf a < operations.reverse.idxOf b

section Missing

variable {imported operations : List String}

lemma isMissing_missingImports (imported operations : List String) :
    IsMissing imported operations (missingImports imported operations) where
  nodup := (nodup_distinct _).filter _
  mem_iff operation := by
    rw [missingImports, List.mem_filter, mem_distinct, List.mem_reverse]
    simp
  latest_first := (pairwise_distinct _).filter _

/-- Where all types are imported, no line is. -/
lemma importLines_eq_empty (h : ∀ operation ∈ operations, rawTypeName operation ∈ imported) :
    importLines imported operations = "" := by
  have hmissing : missingImports imported operations = [] := by
    refine List.eq_nil_iff_forall_not_mem.mpr fun operation hmem => ?_
    obtain ⟨hrecorded, hnew⟩ := ((isMissing_missingImports _ _).mem_iff operation).mp hmem
    exact hnew (h operation hrecorded)
  rw [importLines, hmissing]
  rfl

/-- Together with the missing ones, all types are imported. -/
lemma rawTypeName_mem_of_missingImports {names : List String} (hkept : imported ⊆ names)
    (hadded : ∀ operation ∈ missingImports imported operations, rawTypeName operation ∈ names) :
    ∀ operation ∈ operations, rawTypeName operation ∈ names := by
  intro operation hrecorded
  by_cases himported : rawTypeName operation ∈ imported
  · exact hkept himported
  · exact hadded operation (((isMissing_missingImports _ _).mem_iff operation).mpr
      ⟨hrecorded, himported⟩)

end Missing

/-! ### Operations that are recorded -/

namespace Document

open Read in
/-- The name of an operation is a name. -/
lemma reads_named_operation (kind : OperationKind) :
    ⦃fun ts => ⌜State.Valid ts⌝⦄ operation kind ⦃⇓? o ts => ⌜State.Valid ts ∧ Valid o.name⌝⦄ := by
  mvcgen [operation, -reads_operation] with grind

open Read in
/-- Definitions of types, directives and schemas are no operations. -/
lemma reads_system_definition (text : Option String) :
    ⦃fun ts => ⌜State.Valid ts⌝⦄ systemDefinition text
    ⦃⇓? d ts => ⌜State.Valid ts ∧ ∀ o, d ≠ .operation o⌝⦄ := by
  mvcgen [systemDefinition, -reads_systemDefinition] with grind

open Read in
lemma reads_named_definition :
    ⦃fun ts => ⌜State.Valid ts⌝⦄ definition
    ⦃⇓? d ts => ⌜State.Valid ts ∧ ∀ o, d = .operation o → Valid o.name⌝⦄ := by
  mvcgen [definition, -reads_definition, -reads_operation, -reads_systemDefinition,
    reads_named_operation, reads_system_definition] with grind

open Read in
lemma reads_named_definitionsUpTo (count : ℕ) :
    ⦃fun ts => ⌜State.Valid ts⌝⦄ definitionsUpTo count
    ⦃⇓? ds ts => ⌜State.Valid ts ∧ ∀ o, .operation o ∈ ds → Valid o.name⌝⦄ := by
  induction count with
  | zero => exact fun _ _ => trivial
  | succ count ih =>
      mvcgen [definitionsUpTo, -reads_definitionsUpTo, -reads_definition, reads_named_definition,
        ih] with grind

/-- **The operations of a document that is read have valid names.** -/
theorem isNamed_of_parse? {text : List Char} {document : Document}
    (h : parse? text = some document) :
    ∀ o, .operation o ∈ document.definitions → Valid o.name := by
  obtain ⟨found, hfound, h⟩ := Option.bind_eq_some_iff.mp h
  obtain ⟨⟨definitions, later⟩, hrun, h⟩ := Option.bind_eq_some_iff.mp h
  rw [Option.ite_none_left_eq_some] at h
  have hpost := reads_named_definitionsUpTo (found.length + 1) found (hasName_of_tokensFrom? hfound)
  have hread : definitionsUpTo (found.length + 1) found = some (definitions, later) := hrun
  rw [apply_wp, hread] at hpost
  exact Option.some.inj h.2 ▸ hpost.2

end Document

section Recorded

variable {context : Context} {language : Language} {source : Source} {helper : Helper}
  {typing : Typing} {last : Option String}

lemma operations_documentTyping_subset (template : Script.Template) (document : Document) :
    (documentTyping template document).1.operations ⊆ operationNames document := by
  rw [documentTyping]
  split
  · exact List.Subset.refl _
  · split
    · exact List.nil_subset _
    · exact List.Subset.refl _

lemma isName_of_mem_operationNames {text : List Char} {document : Document}
    (h : Document.parse? text = some document) {operation : String}
    (hoperation : operation ∈ operationNames document) : Document.isName operation = true := by
  obtain ⟨o, ho, hname⟩ := List.mem_filterMap.mp hoperation
  obtain ⟨definition, hdefinition, heq⟩ := List.mem_filterMap.mp ho
  cases definition with
  | operation o' =>
      cases heq
      exact Document.isNamed_of_parse? h o hdefinition operation hname
  | _ => cases heq

lemma isName_of_queryTyping {tags : List String} {query : Node}
    (h : queryTyping tags source helper query = .ok (typing, last)) :
    ∀ operation ∈ typing.operations, Document.isName operation = true := by
  rw [queryTyping] at h
  split at h
  · cases h
    exact List.forall_mem_nil _
  next template _ =>
    split at h
    · cases h
      exact List.forall_mem_nil _
    obtain ⟨document, hdocument, h⟩ := exists_ok_of_bind h
    rw [Script.Template.document] at hdocument
    split at hdocument
    next found hparse =>
      cases hdocument
      intro operation hoperation
      have htyping : documentTyping template document = (typing, last) := Except.ok.inj h
      refine isName_of_mem_operationNames hparse
        (operations_documentTyping_subset template document ?_)
      rwa [htyping]
    next => cases hdocument

/-- **Operations that are recorded have names of documents.** -/
theorem isName_of_helperCall {node : Node}
    (h : helperCall context language source node = .ok typing) :
    ∀ operation ∈ typing.operations, Document.isName operation = true := by
  rw [helperCall] at h
  split at h
  · cases h
    exact List.forall_mem_nil _
  split at h
  next =>
    rw [optionsTyping] at h
    split at h
    · cases h
    obtain ⟨⟨found, last⟩, hquery, h⟩ := exists_ok_of_bind h
    have hfound := isName_of_queryTyping hquery
    cases last with
    | none => cases h; exact hfound
    | some operation =>
        dsimp only at h
        split at h
        · cases h
        · cases h
          exact hfound
  next => cases h

end Recorded

/-! ### Imports that are read -/

/-- The names that statements import one by one. -/
def namesImported (items : List Node) : List String := importedNames ⟨[], ⟨items⟩⟩

lemma namesImported_append (items later : List Node) :
    namesImported (items ++ later) = namesImported items ++ namesImported later :=
  List.flatMap_append

/-- The name and the module in the line that imports a type. -/
def importParts (operation : String) : String × List Char :=
  (rawTypeName operation, "__generated__/".toList ++ operation.toList ++ ".graphql".toList)

lemma importLine_toList (operation : String) : (importLine operation).toList =
    Script.Grammar.importLine (importParts operation).1 (importParts operation).2 := by
  simp [importLine, Script.Grammar.importLine, Script.Grammar.importTail, importParts]

lemma importLines_toList (imported operations : List String) :
    (importLines imported operations).toList =
      ((missingImports imported operations).map importParts).flatMap fun line =>
        Script.Grammar.importLine line.1 line.2 := by
  rw [importLines, String.toList_join, List.flatMap_map, List.flatMap_map]
  exact List.flatMap_congr fun operation _ => importLine_toList operation

/-- What goes on a name of a document goes on a word of a script and stands for itself in
a string. -/
lemma isWordPart_of_isNamePart {c : Char} (h : Document.isNamePart c = true) :
    Script.isWordPart c = true ∧ Script.isQuotable c = true :=
  of_forall_ascii (P := fun c => Document.isNamePart c → Script.isWordPart c ∧ Script.isQuotable c)
    (by decide) h h

/-- What begins a name of a document begins a word of a script. -/
lemma isWordStart_of_isNameStart {c : Char} (h : Document.isNameStart c = true) :
    Script.isWordStart c = true :=
  of_forall_ascii (P := fun c => Document.isNameStart c → Script.isWordStart c) (by decide)
    (isNamePart_of_isNameStart h) h

/-- The type of an operation with a name can be imported. -/
lemma importable_importParts {operation : String} (h : Document.isName operation = true) :
    Script.Grammar.Importable (importParts operation) := by
  rw [Document.isName] at h
  split at h
  · cases h
  next c cs hname =>
    rw [Bool.and_eq_true, List.all_eq_true] at h
    obtain ⟨hstart, hparts⟩ := h
    have hwritten : (rawTypeName operation).toList = c :: (cs ++ "RawResponse".toList) := by
      rw [rawTypeName, String.toList_append, hname, List.cons_append]
    have hsuffix : ∀ d ∈ "RawResponse".toList, Script.isWordPart d = true :=
      List.all_eq_true.mp rfl
    have hfolder : ∀ d ∈ "__generated__/".toList, Script.isQuotable d = true :=
      List.all_eq_true.mp rfl
    have hending : ∀ d ∈ ".graphql".toList, Script.isQuotable d = true :=
      List.all_eq_true.mp rfl
    refine ⟨?_, fun htype => ?_, ?_⟩
    · rw [importParts, isWord, hwritten, Bool.and_eq_true, List.all_eq_true]
      refine ⟨isWordStart_of_isNameStart hstart,
        List.forall_mem_append.mpr ⟨fun d hd => ?_, hsuffix⟩⟩
      exact (isWordPart_of_isNamePart (hparts d hd)).1
    · -- the name is longer than the word
      have hlength : (rawTypeName operation).toList.length = 4 := congrArg (·.toList.length) htype
      rw [hwritten, List.length_cons, List.length_append] at hlength
      have hlong : "RawResponse".toList.length = 11 := rfl
      omega
    · rw [importParts, hname]
      refine List.forall_mem_append.mpr ⟨List.forall_mem_append.mpr ⟨hfolder, ?_⟩, hending⟩
      refine List.forall_mem_cons.mpr ⟨?_, fun d hd => (isWordPart_of_isNamePart (hparts d hd)).2⟩
      exact (isWordPart_of_isNamePart (isNamePart_of_isNameStart hstart)).2

lemma namesImported_of_forall₂ {missing : List String} {heads : List Node}
    (h : List.Forall₂ (fun line n => Script.Grammar.Imports line.1 n) (missing.map importParts)
      heads) : namesImported heads = missing.map rawTypeName := by
  rw [List.forall₂_map_left_iff] at h
  induction h with
  | nil => rfl
  | cons hline _ ih =>
      obtain ⟨span, rfl⟩ := hline
      exact congrArg (_ :: ·) ih

/-- **A module that begins with the missing imports binds the types that they name.** -/
theorem namesImported_of_importLines {imported operations : List String}
    (hnames : ∀ operation ∈ operations, Document.isName operation = true) {language : Language}
    {text : String} {again : Source}
    (h : Source.parse language (importLines imported operations ++ text) = .ok again) :
    ∃ heads rest, again.script.items = heads ++ rest ∧
      namesImported heads = (missingImports imported operations).map rawTypeName := by
  obtain ⟨script, hscript, h⟩ := exists_ok_of_bind h
  cases h
  rw [String.toList_append, importLines_toList] at hscript
  have himportable : ∀ line ∈ (missingImports imported operations).map importParts,
      Script.Grammar.Importable line := by
    refine List.forall_mem_map.mpr fun operation hmissing => importable_importParts (hnames _ ?_)
    exact (((isMissing_missingImports _ _).mem_iff operation).mp hmissing).1
  obtain ⟨heads, rest, hitems, hheads⟩ :=
    Script.Module.exists_imports_of_parse himportable hscript
  exact ⟨heads, rest, hitems, namesImported_of_forall₂ hheads⟩

/-- **Imports of raw response types are complete, and none is repeated.**  One line is written
for each operation that was recorded and whose type the module does not import, the last one
that was recorded first.  So a module that imports the missing types besides those that it
imports already has all types that were recorded, and no line is written for it.

The lines are read as they are meant: operations that are recorded have names, and a module
that begins with the lines for such operations binds just their types by its first statements,
whatever follows.  If what follows still binds what the module binds, no line is written. -/
theorem importLines_are_complete (source : Source) (operations : List String) :
    let imported := importedNames source
    let missing := missingImports imported operations
    IsMissing imported operations missing ∧
    importLines imported operations = String.join (missing.map importLine) ∧
    (∀ again : Source, importedNames again = missing.map rawTypeName ++ imported →
      (∀ operation ∈ operations, rawTypeName operation ∈ importedNames again) ∧
      importLines (importedNames again) operations = "") ∧
    (∀ context language typings,
      source.script.preorder.mapM (helperCall context language source) = .ok typings →
      ∀ operation ∈ (Typing.concat typings).operations, Document.isName operation = true) ∧
    ((∀ operation ∈ operations, Document.isName operation = true) →
      ∀ language text again,
        Source.parse language (importLines imported operations ++ text) = .ok again →
        ∃ heads rest, again.script.items = heads ++ rest ∧
          namesImported heads = missing.map rawTypeName ∧
          (imported ⊆ namesImported rest →
            importLines (importedNames again) operations = "")) := by
  intro imported missing
  have hagain : ∀ {names : List String}, imported ⊆ names → missing.map rawTypeName ⊆ names →
      ∀ operation ∈ operations, rawTypeName operation ∈ names := fun hkept hadded =>
    rawTypeName_mem_of_missingImports hkept (List.forall_mem_map.mp hadded)
  refine ⟨isMissing_missingImports _ _, rfl, fun again hnames => ?_, ?_, ?_⟩
  · have hall := hagain (hnames ▸ List.subset_append_right _ _)
      (hnames ▸ List.subset_append_left _ _)
    exact ⟨hall, importLines_eq_empty hall⟩
  · intro context language typings htypings operation hoperation
    obtain ⟨typing, htyping, hoperation⟩ := List.mem_flatMap.mp hoperation
    obtain ⟨node, -, hcall⟩ := exists_of_forall₂_right (forall₂_of_mapM htypings) htyping
    exact isName_of_helperCall hcall operation hoperation
  · intro hvalid language text again hparse
    obtain ⟨heads, rest, hitems, hheads⟩ := namesImported_of_importLines hvalid hparse
    refine ⟨heads, rest, hitems, hheads, fun hkept => importLines_eq_empty ?_⟩
    have hnames : importedNames again = missing.map rawTypeName ++ namesImported rest := by
      rw [← hheads, ← namesImported_append, ← hitems]
      rfl
    rw [hnames]
    exact hagain (List.Subset.trans hkept (List.subset_append_right _ _))
      (List.subset_append_left _ _)

/-- A script that imports the type of one operation. -/
def portraitScript : String := "import \x7b ShowRawResponse \x7d from \"./show\";\n"

/-- Operations in the order in which they were recorded. -/
def portraitOperations : List String := ["Artist", "Show", "Artist", "Gallery"]

/-- The types of two operations are imported, and no more by a second run. -/
theorem portrait_types_are_imported : ∃ source again,
    Source.parse .typeScript portraitScript = .ok source ∧
    missingImports (importedNames source) portraitOperations = ["Gallery", "Artist"] ∧
    Source.parse .typeScript
      (importLines (importedNames source) portraitOperations ++ portraitScript) = .ok again ∧
    importLines (importedNames again) portraitOperations = "" := by
  have hcheck : (Source.parse .typeScript portraitScript).toOption.any (fun source =>
      importedNames source == ["ShowRawResponse"]) = true := by decide +kernel
  have hcheck' : (Source.parse .typeScript
      (importLines ["ShowRawResponse"] portraitOperations ++ portraitScript)).toOption.any
      (fun again => importedNames again ==
        ["GalleryRawResponse", "ArtistRawResponse", "ShowRawResponse"]) = true := by
    decide +kernel
  obtain ⟨source, hsource, hnames⟩ := Option.any_eq_true _ _ |>.mp hcheck
  obtain ⟨again, hagain, hnames'⟩ := Option.any_eq_true _ _ |>.mp hcheck'
  rw [beq_iff_eq] at hnames hnames'
  have hmissing :
      missingImports ["ShowRawResponse"] portraitOperations = ["Gallery", "Artist"] := by decide
  obtain ⟨-, -, hsettled, -⟩ := importLines_are_complete source portraitOperations
  rw [hnames, hmissing] at hsettled
  refine ⟨source, again, eq_ok_of_toOption hsource, hnames ▸ hmissing, ?_, (hsettled again ?_).2⟩
  · rw [hnames]
    exact eq_ok_of_toOption hagain
  · rw [hnames']
    rfl

end GraphMigrate
