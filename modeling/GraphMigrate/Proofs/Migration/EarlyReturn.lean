/-
Files that are returned unread.

A file that does not mention a tag with the opening mark of a template
right behind it is returned as it is, without being read.  Reading it would
have found only templates whose tags are spelled some other way; whether
these would have been touched is up to their documents.

* `WordBefore`, `Template.IsDetached`: a tag with type arguments, white space
  or comments behind it, or one that is written with escapes;
* `holds_iff`, `mentionsTag_iff`: what it means that a tag is mentioned;
* `isDetached_of_not_mentionsTag`: where no tag is mentioned, the tags of all
  templates are detached;
* `Document.HasIdentity`, `identityDocument_eq_pure`: a document without
  identity fields stays as it is;
* `Template.IsIdle`, `migrateTemplate_eq_empty_iff`: templates that the
  migration has nothing to say about;
* `identityDraft`, `readAndMigrateIds`: what the migration does where it
  reads;
* `early_return_agrees_iff_idle`: **a file that is returned unread has only
  detached templates, and reading it comes to nothing exactly if all of them
  are idle**;
* `early_return_misses_identity_field`: a detached template that is not.
-/
import GraphMigrate.Proofs.Document.Identity
import GraphMigrate.Proofs.Script.Places
import GraphMigrate.Proofs.Script.Trivia
import GraphMigrate.Proofs.Text.Selection

namespace GraphMigrate

open Document (Argument Definition Field Selection Schema TypedSelection countIdentified
  isIdentity)
open Script

/-! ### Tags -/

/-- A word of the text reads as a name; behind it, white space and comments
aside, comes a character, at an offset. -/
def WordBefore (text : List Char) (name : String) (escaped : Bool) (gap : List Char) (next : Char)
    (offset : ℕ) : Prop :=
  ∃ before word rest, text = before ++ (word ++ (gap ++ next :: rest)) ∧
    Token.read ⟨byteLength before, word ++ (gap ++ next :: rest)⟩ =
      (.word name escaped, ⟨byteLength (before ++ word), gap ++ next :: rest⟩) ∧
    isTrivia gap = true ∧ offset = byteLength (before ++ word ++ gap)

/-- A tag that is not spelled out directly in front of the opening mark of
its template. -/
inductive Script.Template.IsDetached (text : List Char) (t : Template) : Prop
  /-- Type arguments stand between. -/
  | typed {escaped : Bool} {gap : List Char} {offset : ℕ}
      (h : WordBefore text t.tag escaped gap '<' offset)
  /-- The tag is written with escapes, or white space or comments stand
  between. -/
  | apart {escaped : Bool} {gap : List Char} {offset : ℕ}
      (h : WordBefore text t.tag escaped gap '`' offset) (hmark : t.segment.start = offset + 1)
      (hspelled : escaped = true ∨ gap ≠ [])

section Tags

variable {text : List Char}

lemma wordBefore_of_next {t : Token} (h : t.In text) {name : String} {escaped : Bool}
    (hkind : t.kind = .word name escaped) {next : Char} {rest : List Char}
    (hnext : (Token.next t.after).start.chars = next :: rest) :
    ∃ gap, WordBefore text name escaped gap next (Token.next t.after).start.offset := by
  obtain ⟨before, word, htext, hchars, hspan⟩ := h.exists_append
  have hskip : (Token.next t.after).start = (skipGap false t.after.offset .code t.after.chars).1 :=
    rfl
  have hne : (skipGap false t.after.offset .code t.after.chars).1.chars ≠ [] := by
    rw [← hskip, hnext]
    exact List.cons_ne_nil _ _
  obtain ⟨gap, hgap, hafter⟩ := exists_append_of_skipGap hne
  obtain ⟨passed, hpassed, hoffset⟩ :=
    skipGap_reaches false t.after.offset .code t.after.chars
  obtain rfl : passed = gap := List.append_cancel_right (hpassed.symm.trans hafter)
  rw [← hskip, hnext] at hafter
  have hstart : t.start = ⟨byteLength before, word ++ t.after.chars⟩ := by
    rw [h.span_eq, Span.mk.injEq] at hspan
    rw [← hchars, ← hspan.1]
  have hstop : t.after.offset = byteLength (before ++ word) := by
    rw [h.span_eq, Span.mk.injEq] at hspan
    rw [hspan.2, byteLength_append]
  refine ⟨passed, before, word, rest, ?_, ?_, hgap, ?_⟩
  · rw [← hafter, htext, List.append_assoc]
  · rw [← hafter, ← hstart, h.read_start, hkind, ← hstop]
  · rw [hskip, hoffset, hstop, byteLength_append _ passed]

/-- A tag that is a name stands in front of its template. -/
lemma wordBefore_of_tagStandsIn {name : String} {span segment : Span}
    (h : TagStandsIn text (.name name span) segment) :
    ∃ escaped gap offset, WordBefore text name escaped gap '<' offset ∨
      WordBefore text name escaped gap '`' offset ∧ segment.start = offset + 1 := by
  obtain ⟨next, hprecedes, hnext⟩ := h
  obtain ⟨t, ht, -, ⟨escaped, hkind⟩, rfl⟩ := hprecedes name span rfl
  have hreading := (Token.in_next ht.after_in).reading
  rcases hnext with ⟨hmark, hsegment⟩ | hless
  · rw [hmark] at hreading
    obtain ⟨hchars, hstop⟩ := hreading.of_backtick
    obtain ⟨gap, hbefore⟩ := wordBefore_of_next ht hkind hchars
    exact ⟨escaped, gap, _, .inr ⟨hbefore, by rw [← hsegment, hstop]⟩⟩
  · rw [hless] at hreading
    obtain ⟨cs, hchars⟩ := List.head?_eq_some_iff.mp hreading.head?_of_less
    obtain ⟨gap, hbefore⟩ := wordBefore_of_next ht hkind hchars
    exact ⟨escaped, gap, _, .inl hbefore⟩

/-! ### Mentions -/

lemma holds_iff (part text : List Char) : holds part text = true ↔ part <:+: text := by
  induction text with
  | nil => rw [holds, List.isEmpty_iff, List.infix_nil]
  | cons c cs ih => simp [holds, ih, List.infix_cons_iff]

lemma mentionsTag_iff {tags : List String} :
    mentionsTag tags text = true ↔ ∃ tag ∈ tags, tag.toList ++ ['`'] <:+: text := by
  simp only [mentionsTag, List.any_eq_true, holds_iff]

/-- A word without escapes is the text that it takes up. -/
lemma WordBefore.isMentioned {name : String} {offset : ℕ}
    (h : WordBefore text name false [] '`' offset) : name.toList ++ ['`'] <:+: text := by
  obtain ⟨before, word, rest, htext, hread, -, -⟩ := h
  have hreading := Token.reading_read ⟨byteLength before, word ++ ([] ++ '`' :: rest)⟩
  rw [hread] at hreading
  have hword : word = name.toList := List.append_cancel_right hreading.of_word
  exact ⟨before, rest, by simp [htext, hword]⟩

lemma mentionsTag_of_suffix {tags : List String} {rest : List Char} (hrest : rest <:+ text)
    (h : mentionsTag tags rest = true) : mentionsTag tags text = true := by
  obtain ⟨tag, htag, hinfix⟩ := mentionsTag_iff.mp h
  exact mentionsTag_iff.mpr ⟨tag, htag, hinfix.trans hrest.isInfix⟩

lemma dropByteOrderMark_suffix (text : List Char) : dropByteOrderMark text <:+ text := by
  unfold dropByteOrderMark
  split
  · split
    · exact List.suffix_cons _ _
    · exact List.suffix_rfl
  · exact List.suffix_rfl

lemma tag_mem_of_mem_templates {tags : List String} {source : Source} {t : Template}
    (ht : t ∈ templates tags source) : t.tag ∈ tags := by
  obtain ⟨n, -, hdocument⟩ := List.mem_filterMap.mp ht
  exact (Template.eq_tagged_of_ofNode? hdocument).1

/-- Where no tag is mentioned, the tags of all templates are detached. -/
lemma isDetached_of_not_mentionsTag {file : SourceFile} {source : Source} {tags : List String}
    (hparse : Source.parse file.language file.text = .ok source)
    (hmention : mentionsTag tags file.chars = false) {t : Template}
    (ht : t ∈ templates tags source) : t.IsDetached (dropByteOrderMark file.chars) := by
  obtain ⟨span, types, parts, hnode, -⟩ := exists_tagged_of_mem_templates ht
  obtain ⟨escaped, gap, offset, htyped | ⟨hbefore, hmark⟩⟩ :=
    wordBefore_of_tagStandsIn (recordsIn_of_parse hparse hnode).2
  · exact .typed htyped
  · refine .apart hbefore hmark ?_
    by_contra hspelled
    rw [not_or, Bool.not_eq_true, not_not] at hspelled
    obtain ⟨rfl, rfl⟩ := hspelled
    have hmentioned : mentionsTag tags (dropByteOrderMark file.chars) = true :=
      mentionsTag_iff.mpr ⟨t.tag, tag_mem_of_mem_templates ht, hbefore.isMentioned⟩
    have htrue := mentionsTag_of_suffix (dropByteOrderMark_suffix file.chars) hmentioned
    rw [hmention] at htrue
    cases htrue

end Tags

/-! ### Documents without identity fields -/

/-- Some field of the document is an identity field, or some argument in its
operations and fragments is called `__id`. -/
def Document.HasIdentity (schema : Schema) (document : Document) : Prop :=
  (∃ field ∈ document.typedFields schema, isIdentity field.2.name = true) ∨
    ∃ argument ∈ document.appliedArguments schema, argument.name = "__id"

lemma mapM_eq_pure {m : Type → Type} [Monad m] [LawfulMonad m] {α β : Type} {step : α → m β}
    {f : α → β} {as : List α} (h : ∀ a ∈ as, step a = pure (f a)) :
    as.mapM step = pure (as.map f) := by
  induction as with
  | nil => rw [List.mapM_nil, List.map_nil]
  | cons a as ih =>
      rw [List.forall_mem_cons] at h
      rw [List.mapM_cons, h.1, pure_bind, ih h.2, pure_bind, List.map_cons]

/-- Steps that leave every member of a list leave the list. -/
lemma mapM_eq_self {α : Type} {step : α → Renaming α} {as : List α}
    (h : ∀ a ∈ as, step a = pure a) : as.mapM step = pure as := by
  rw [mapM_eq_pure h, List.map_id']

section Unchanged

variable {policy : IdPolicy} {schema : Schema} {start : ℕ}

lemma identityArguments_eq_pure {offset : ℕ} {arguments : List Argument}
    (h : ∀ a ∈ arguments, a.name ≠ "__id") :
    arguments.mapM ((identityRenamer policy schema).argument offset) = pure arguments := by
  refine mapM_eq_self fun a ha => ?_
  simp only [Renamer.argument, identityRenamer, identityArgument?, beq_iff_eq, h a ha, if_false]

lemma identityDirectives_eq_pure {offset : ℕ} {directives : List Document.Directive}
    (h : ∀ a ∈ Document.marked directives, a.name ≠ "__id") :
    directives.mapM ((identityRenamer policy schema).directive offset) = pure directives := by
  refine mapM_eq_self fun directive hdirective => ?_
  have harguments : ∀ a ∈ directive.arguments, a.name ≠ "__id" := fun a ha =>
    h a (List.mem_flatMap.mpr ⟨directive, hdirective, ha⟩)
  rw [Renamer.directive, identityArguments_eq_pure harguments, pure_bind]

lemma identityVisit_eq_pure {parent : Option String} {field : Field}
    (hname : isIdentity field.name = false)
    (harguments : ∀ a ∈ field.appliedArguments, a.name ≠ "__id") :
    (identityRenamer policy schema).visit start parent field = pure field := by
  have hown : ∀ a ∈ field.arguments, a.name ≠ "__id" := fun a ha =>
    harguments a (List.mem_append_left _ ha)
  have hmarked : ∀ a ∈ Document.marked field.directives, a.name ≠ "__id" := fun a ha =>
    harguments a (List.mem_append_right _ ha)
  have hfield (offset : ℕ) :
      (identityRenamer policy schema).field parent offset field = pure field := by
    simp only [isIdentity, List.contains_eq_mem, List.mem_cons, List.not_mem_nil, or_false,
      decide_eq_false_iff_not, not_or] at hname
    simp only [identityRenamer, identityField, identityName?, beq_iff_eq, hname.1, hname.2.1,
      hname.2.2, if_false, pure_bind]
  simp only [Renamer.visit, hfield, identityArguments_eq_pure hown,
    identityDirectives_eq_pure hmarked, pure_bind]

variable {visit : Option String → Field → Renaming Field}

mutual

/-- The walk through a selection of which no visit changes anything. -/
lemma mapFields_eq_pure : ∀ (parent : Option String) (selection : Selection),
    (∀ f ∈ (selection.typed schema parent).fields, visit f.1 f.2 = pure f.2) →
    selection.mapFields schema.innerType? visit parent = pure selection
  | parent, .field head inner, h => by
      rw [Selection.typed, TypedSelection.fields, List.forall_mem_cons] at h
      have hinner := mapFieldsAll_eq_pure
        (parent.bind fun type => schema.innerType? type head.name) inner h.2
      rw [Selection.mapFields, h.1, pure_bind, hinner, pure_bind]
  | _, .spread name directives, _ => by rw [Selection.mapFields]
  | parent, .inline condition directives inner, h => by
      rw [Selection.typed, TypedSelection.fields] at h
      rw [Selection.mapFields, mapFieldsAll_eq_pure _ inner h, pure_bind]

/-- The walk through a selection set. -/
lemma mapFieldsAll_eq_pure : ∀ (parent : Option String) (selections : List Selection),
    (∀ f ∈ TypedSelection.fieldsAll (Selection.typedAll schema parent selections),
      visit f.1 f.2 = pure f.2) →
    Selection.mapFieldsAll schema.innerType? visit parent selections = pure selections
  | _, [], _ => by rw [Selection.mapFieldsAll]
  | parent, selection :: selections, h => by
      rw [Selection.typedAll, TypedSelection.fieldsAll, List.forall_mem_append] at h
      rw [Selection.mapFieldsAll, mapFields_eq_pure parent selection h.1, pure_bind,
        mapFieldsAll_eq_pure parent selections h.2, pure_bind]

end

/-- The visits of the fields of a definition. -/
lemma identitySelections_eq_pure {parent : Option String} {selections : List Selection}
    (hfields : ∀ f ∈ TypedSelection.fieldsAll (Selection.typedAll schema parent selections),
      isIdentity f.2.name = false ∧ ∀ a ∈ f.2.appliedArguments, a.name ≠ "__id") :
    (identityRenamer policy schema).selections start parent selections = pure selections :=
  mapFieldsAll_eq_pure parent selections fun f hf =>
    identityVisit_eq_pure (hfields f hf).1 (hfields f hf).2

lemma identityDefinition_eq_pure {definition : Definition}
    (hnames : ∀ f ∈ definition.typedFields schema, isIdentity f.2.name = false)
    (harguments : ∀ a ∈ definition.appliedArguments schema, a.name ≠ "__id") :
    (identityRenamer policy schema).definition start definition = pure definition := by
  rw [Definition.appliedArguments, List.forall_mem_append] at harguments
  obtain ⟨hmarks, hbelow⟩ := harguments
  have hfields : ∀ f ∈ definition.typedFields schema,
      isIdentity f.2.name = false ∧ ∀ a ∈ f.2.appliedArguments, a.name ≠ "__id" := fun f hf =>
    ⟨hnames f hf, fun a ha => hbelow a (List.mem_flatMap.mpr ⟨f, hf, ha⟩)⟩
  have hdirectives : definition.marks.mapM ((identityRenamer policy schema).directive start) =
      pure definition.marks := identityDirectives_eq_pure hmarks
  cases definition with
  | operation o =>
      have hselections : (identityRenamer policy schema).selections start
          ((identityRenamer policy schema).rootType? (.operation o)) o.selections =
          pure o.selections := identitySelections_eq_pure hfields
      rw [Definition.marks] at hdirectives
      simp only [Renamer.definition, hdirectives, hselections, pure_bind]
  | fragment f =>
      have hselections : (identityRenamer policy schema).selections start
          ((identityRenamer policy schema).rootType? (.fragment f)) f.selections =
          pure f.selections := identitySelections_eq_pure hfields
      rw [Definition.marks] at hdirectives
      simp only [Renamer.definition, hdirectives, hselections, pure_bind]
  | type t => rfl
  | directive d => rfl
  | schema s => rfl

/-- A document without identity fields stays as it is, and nothing is noted. -/
lemma identityDocument_eq_pure {document : Document} (h : ¬ document.HasIdentity schema) :
    (identityRenamer policy schema).document start document = pure document := by
  obtain ⟨hfields, harguments⟩ := not_or.mp h
  have hdefinitions : document.definitions.mapM
      ((identityRenamer policy schema).definition start) = pure document.definitions := by
    refine mapM_eq_self fun definition hdefinition => identityDefinition_eq_pure ?_ ?_
    · intro f hf
      rw [← Bool.not_eq_true]
      exact fun hname => hfields ⟨f, List.mem_flatMap.mpr ⟨definition, hdefinition, hf⟩, hname⟩
    · exact fun a ha hname =>
        harguments ⟨a, List.mem_flatMap.mpr ⟨definition, hdefinition, ha⟩, hname⟩
  rw [Renamer.document, hdefinitions, pure_bind]

/-- Renames are counted in a document exactly if it has identity fields. -/
lemma renamed_eq_zero_iff {document renamed : Document} {tally : Tally}
    (h : ((identityRenamer policy schema).document start document).run {} =
      .ok (renamed, tally)) : tally.renamed = 0 ↔ ¬ document.HasIdentity schema := by
  obtain ⟨-, rfl⟩ := yields_document policy schema start document {} renamed tally h
  simp only [Tally.plus, Nat.zero_add, Nat.add_eq_zero_iff, countIdentified, List.countP_eq_zero,
    beq_iff_eq, Document.HasIdentity, not_or, not_exists, not_and]

/-! ### Templates -/

/-- The migration has nothing to say about a template: it is a document that
the script does not put together, and has no identity fields. -/
def Script.Template.IsIdle (schema : Schema) (t : Template) : Prop :=
  t.interpolated = false ∧ ∃ document, t.document = .ok document ∧ ¬ document.HasIdentity schema

/-- Where names are counted, the draft has an edit or a note. -/
lemma renamedDraft_ne_empty {t : Template} {accompany : Document → List Edit}
    {renamed : Document × Tally} (h : renamed.2.renamed ≠ 0) :
    renamedDraft t accompany renamed ≠ .empty := by
  obtain ⟨document, tally⟩ := renamed
  rw [renamedDraft, if_neg h]
  cases templateText? document with
  | none =>
      intro hempty
      have hnotes := congrArg Draft.notes hempty
      exact List.append_ne_nil_of_right_ne_nil _ (List.cons_ne_nil _ _) hnotes
  | some text =>
      intro hempty
      exact List.cons_ne_nil _ _ (congrArg Draft.edits hempty)

lemma migrateTemplate_eq_empty_iff {t : Template} :
    migrateTemplate (identityRenamer policy schema) (fun _ _ => []) t = .ok .empty ↔
      t.IsIdle schema := by
  rw [migrateTemplate, Template.IsIdle]
  cases t.interpolated with
  | true => exact iff_of_false (fun h => by cases h) fun h => by cases h.1
  | false =>
      cases hdocument : t.document with
      | error e => exact iff_of_false (fun h => by cases h) fun ⟨_, _, h, _⟩ => by cases h
      | ok document =>
          have hidle : (false = false ∧ ∃ d : Document,
              (.ok document : Except MigrationError Document) = .ok d ∧ ¬ d.HasIdentity schema) ↔
              ¬ document.HasIdentity schema := by
            simp
          rw [hidle]
          change (((identityRenamer policy schema).document t.segment.start document).run {} >>=
            fun renamed => pure (renamedDraft t (fun _ => []) renamed)) = _ ↔ _
          by_cases hidentity : document.HasIdentity schema
          · refine iff_of_false (fun hdraft => ?_) (not_not.mpr hidentity)
            cases hrun : ((identityRenamer policy schema).document t.segment.start document).run {}
              with
            | error e =>
                rw [hrun] at hdraft
                cases hdraft
            | ok renamed =>
                rw [hrun] at hdraft
                have hcount : renamed.2.renamed ≠ 0 := fun h =>
                  (renamed_eq_zero_iff hrun).mp h hidentity
                exact renamedDraft_ne_empty hcount (Except.ok.inj hdraft)
          · refine iff_of_true ?_ hidentity
            rw [identityDocument_eq_pure hidentity]
            rfl

end Unchanged

/-! ### Scripts -/

/-- The drafts for all templates come to nothing if each of them does. -/
lemma migrateTemplates_eq_empty_iff {renamer : Renamer}
    {accompany : Template → Document → List Edit} {documents : List Template} :
    migrateTemplates renamer accompany documents = .ok .empty ↔
      ∀ t ∈ documents, migrateTemplate renamer accompany t = .ok .empty := by
  constructor
  · intro h t ht
    cases hdrafts : documents.mapM (migrateTemplate renamer accompany) with
    | error e =>
        rw [migrateTemplates, hdrafts] at h
        cases h
    | ok drafts =>
        rw [migrateTemplates, hdrafts] at h
        have hempty : Draft.concat drafts = .empty := Except.ok.inj h
        obtain ⟨draft, hdraft, hrun⟩ := exists_mem_of_mapM hdrafts ht
        have hedits : draft.edits = [] :=
          List.flatMap_eq_nil_iff.mp (congrArg Draft.edits hempty) draft hdraft
        have hnotes : draft.notes = [] :=
          List.flatMap_eq_nil_iff.mp (congrArg Draft.notes hempty) draft hdraft
        rw [hrun, Draft.empty, ← hedits, ← hnotes]
  · intro h
    have hdrafts : documents.mapM (migrateTemplate renamer accompany) =
        .ok (documents.map fun _ => .empty) := mapM_eq_pure h
    have hempty : Draft.concat (documents.map fun _ => .empty) = .empty := by
      simp [Draft.concat, Draft.empty]
    rw [migrateTemplates, hdrafts]
    exact congrArg Except.ok hempty

/-- What the migration drafts for a script. -/
def identityDraft (context : Context) (schema : Schema) (source : Source) :
    Except MigrationError Draft :=
  migrateTemplates (identityRenamer context.ids schema) (fun _ _ => [])
    (templates context.tags source)

/-- The migration of a file that is read, whether it mentions a tag or not. -/
def readAndMigrateIds (context : Context) (schema : Schema) (file : SourceFile) :
    Except MigrationError Outcome := do
  let source ← file.parse
  let draft ← identityDraft context schema source
  return draft.finish file.text

lemma migrateIds_eq {context : Context} {schema : Schema} (hschema : context.schema = some schema)
    (file : SourceFile) : migrateIds context file =
      if mentionsTag context.tags file.chars then readAndMigrateIds context schema file
      else .ok (.unchanged file.text) := by
  rw [migrateIds, hschema]
  rfl

/-- Notes alone leave a text as it is. -/
lemma finish_ofNotes (text : String) (notes : List Diagnostic) :
    (Draft.ofNotes notes).finish text = ⟨text, notes, false⟩ := by
  rw [Draft.finish, Draft.ofNotes, applyEdits_nil, Applied.changed, bne_self_eq_false]

lemma finish_empty (text : String) : Draft.empty.finish text = .unchanged text :=
  finish_ofNotes text []

/-- **Only detached templates are missed.**  Where no tag is mentioned with
the mark of a template right behind it, the file is returned as it is.  Had
it been read, every template that is found would be detached: its tag has
type arguments, white space or comments behind it, or is written with
escapes.  There would be no edit, no note and no error exactly if all these
templates are idle, and then the outcome would be the same. -/
theorem early_return_agrees_iff_idle {context : Context} {schema : Schema} {file : SourceFile}
    {source : Source} (hschema : context.schema = some schema) (hparse : file.parse = .ok source)
    (hmention : mentionsTag context.tags file.chars = false) :
    migrateIds context file = .ok (.unchanged file.text) ∧
    (∀ t ∈ templates context.tags source, t.IsDetached (dropByteOrderMark file.chars)) ∧
    (identityDraft context schema source = .ok .empty ↔
      ∀ t ∈ templates context.tags source, t.IsIdle schema) ∧
    (identityDraft context schema source = .ok .empty →
      readAndMigrateIds context schema file = migrateIds context file) := by
  have hunread : migrateIds context file = .ok (.unchanged file.text) := by
    rw [migrateIds_eq hschema, hmention, if_neg (by decide)]
  refine ⟨hunread, fun t ht => ?_, ?_, fun hempty => ?_⟩
  · exact isDetached_of_not_mentionsTag (source_of_parse hparse) hmention ht
  · rw [identityDraft, migrateTemplates_eq_empty_iff]
    exact forall₂_congr fun t _ => migrateTemplate_eq_empty_iff
  · rw [hunread, readAndMigrateIds, hparse]
    change (identityDraft context schema source >>= _) = _
    rw [hempty]
    change Except.ok _ = _
    rw [finish_empty]

/-- A schema in which artists have an identity field. -/
def artistSchemaText : String :=
  "type Query \x7b artist: Artist \x7d\n" ++
  "type Artist \x7b _id: ID internalID: ID name: String \x7d\n"

/-- Documents behind type arguments, behind a comment and behind a tag that is
written with an escape. -/
def detachedFile : SourceFile :=
  ⟨"f(graphql<Q>`\x7b artist \x7b name \x7d \x7d`, graphql /* b */ `\x7b b \x7d`, " ++
    "\\u0067raphql`\x7b c \x7d`)", .typeScript⟩

theorem early_return_agrees_on_detached_file :
    ∃ schema source, Schema.parse? artistSchemaText = some schema ∧
      detachedFile.parse = .ok source ∧ mentionsTag ["graphql"] detachedFile.chars = false ∧
      (templates ["graphql"] source).length = 3 ∧
      readAndMigrateIds { schema := some schema } schema detachedFile =
        migrateIds { schema := some schema } detachedFile ∧
      ∀ t ∈ templates ["graphql"] source,
        t.IsDetached (dropByteOrderMark detachedFile.chars) ∧ t.IsIdle schema := by
  have hmention : mentionsTag ["graphql"] detachedFile.chars = false := by decide +kernel
  have hcheck : (Schema.parse? artistSchemaText).any (fun schema =>
      detachedFile.parse.toOption.any fun source =>
        (templates ["graphql"] source).length == 3 &&
          (identityDraft { schema := some schema } schema source).toOption.any
            (· == .empty)) = true := by
    decide +kernel
  obtain ⟨schema, hschema, hrest⟩ := Option.any_eq_true _ _ |>.mp hcheck
  obtain ⟨source, hok, hdraft⟩ := Option.any_eq_true _ _ |>.mp hrest
  rw [Bool.and_eq_true, beq_iff_eq] at hdraft
  obtain ⟨draft, hdraft', hempty⟩ := Option.any_eq_true _ _ |>.mp hdraft.2
  obtain rfl := eq_of_beq hempty
  have hsource : detachedFile.parse = .ok source := eq_ok_of_toOption hok
  have hnothing := eq_ok_of_toOption hdraft'
  have hagrees := @early_return_agrees_iff_idle { schema := some schema } schema detachedFile
    source rfl hsource hmention
  exact ⟨schema, source, hschema, hsource, hmention, hdraft.1, hagrees.2.2.2 hnothing, fun t ht =>
    ⟨hagrees.2.1 t ht, hagrees.2.2.1.mp hnothing t ht⟩⟩

/-- A document with an identity field behind a blank. -/
def blankFile : SourceFile :=
  ⟨"const query = graphql `\x7b artist \x7b _id \x7d \x7d`\n", .typeScript⟩

/-- The file is returned as it is, although it would be edited if it were
read. -/
theorem early_return_misses_identity_field :
    ∃ schema source draft, Schema.parse? artistSchemaText = some schema ∧
      blankFile.parse = .ok source ∧ mentionsTag ["graphql"] blankFile.chars = false ∧
      migrateIds { schema := some schema } blankFile = .ok (.unchanged blankFile.text) ∧
      identityDraft { schema := some schema } schema source = .ok draft ∧
      draft.edits = [.replace ⟨23, 41⟩
        "\x7b\n  artist \x7b\n    internalID\n  \x7d\n\x7d\n"] := by
  have hmention : mentionsTag ["graphql"] blankFile.chars = false := by decide +kernel
  have hcheck : (Schema.parse? artistSchemaText).any (fun schema =>
      blankFile.parse.toOption.any fun source =>
        (identityDraft { schema := some schema } schema source).toOption.any
          (·.edits == [.replace ⟨23, 41⟩
            "\x7b\n  artist \x7b\n    internalID\n  \x7d\n\x7d\n"])) = true := by
    decide +kernel
  obtain ⟨schema, hschema, hrest⟩ := Option.any_eq_true _ _ |>.mp hcheck
  obtain ⟨source, hok, hdraft⟩ := Option.any_eq_true _ _ |>.mp hrest
  obtain ⟨draft, hdraft, hedits⟩ := Option.any_eq_true _ _ |>.mp hdraft
  refine ⟨schema, source, draft, hschema, eq_ok_of_toOption hok, hmention, ?_,
    eq_ok_of_toOption hdraft, eq_of_beq hedits⟩
  have hcontext : ({ schema := some schema } : Context).schema = some schema := rfl
  rw [migrateIds_eq hcontext, hmention, if_neg (by decide)]

end GraphMigrate
