/-
What migrations of documents leave alone.

Documents are rewritten in the middle of a script, and templates stand anywhere
in it: in calls, in types, and in what is interpolated in other templates.  In a
script that is laid out, the templates without interpolations still leave each
other room, so all that is drafted for them is carried out, and the code around
them is kept.

* `Template.LeavesRoom`, `pairwise_leavesRoom`: templates without interpolations
  stand apart, or one in front of the segment of another, in its types;
* `isBoundary_of_tagStandsIn`: the tag of a template starts with a character;
* `fitsTemplate_iff`: texts that do not end a template and interpolate nothing;
* `Revision`, `exists_revisions`: a draft for documents replaces some of them
  and puts a text in front of their templates, at most;
* `AreCarriedOut`: revisions that are all that happens to a text;
* `document_migrations_keep_host_code`: **the migrations of documents skip no
  edit and change nothing else**.
-/
import GraphMigrate.Migration.ClientNames
import GraphMigrate.Proofs.Migration.EarlyReturn
import GraphMigrate.Proofs.Script.Layout
import GraphMigrate.Proofs.Text.Apart

namespace GraphMigrate

open Document (Schema)
open Script

/-! ### Where templates stand -/

namespace Script.Template

/-- A template starts in front of its first segment and ends behind it. -/
structure IsPlaced (t : Template) : Prop where
  before : t.span.start < t.segment.start
  forward : t.segment.start ≤ t.segment.stop
  behind : t.segment.stop < t.span.stop

/-- Two templates stand apart, or the second one stands in front of the segment of
the first. -/
def LeavesRoom (t u : Template) : Prop :=
  t.span.Apart u.span ∨ t.span.start < u.span.start ∧ u.span.stop < t.segment.start

lemma LeavesRoom.segment_ne {t u : Template} (h : t.LeavesRoom u) (ht : t.IsPlaced)
    (hu : u.IsPlaced) : t.segment ≠ u.segment := by
  intro heq
  obtain ⟨hbefore, hforward, hbehind⟩ := ht
  obtain ⟨hbefore', -, hbehind'⟩ := hu
  rw [← heq] at hbefore' hbehind'
  rw [LeavesRoom, Span.Apart] at h
  omega

end Script.Template

section Places

variable {tags : List String} {source : Source} {t u : Template}

/-- The tag of a template in a script that is laid out starts where the template
does, and has something behind it. -/
lemma tag_of_isLaidOut (hlaid : source.script.IsLaidOut) {tag : Node} {types parts : List Node}
    {segment span : Span}
    (hnode : Node.tagged tag types segment parts span ∈ source.script.preorder) :
    tag.extent.start < tag.extent.stop ∧ span.start = tag.extent.start := by
  have htag : tag ∈ (Node.tagged tag types segment parts span).preorder :=
    Node.mem_preorder_of_mem_children List.mem_cons_self
  exact ⟨(hlaid.nodes_below hnode tag htag).nonempty, (hlaid.nodes _ hnode).tokens.1⟩

lemma isPlaced_of_mem_templates (hlaid : source.script.IsLaidOut)
    (ht : t ∈ templates tags source) : t.IsPlaced := by
  obtain ⟨s, types, parts, hnode, -⟩ := exists_tagged_of_mem_templates ht
  obtain ⟨hnonempty, hstart⟩ := tag_of_isLaidOut hlaid hnode
  obtain ⟨-, hmark, hforward, hbehind, -, -⟩ := (hlaid.nodes _ hnode).tokens
  exact ⟨by omega, hforward, hbehind⟩

/-- A template below one without interpolations stands in its types. -/
lemma leavesRoom_of_below (hlaid : source.script.IsLaidOut) {s s' : Span}
    {types types' parts' : List Node}
    (hnode : Node.tagged (.name t.tag s) types t.segment [] t.span ∈ source.script.preorder)
    {c : Node} (hc : c ∈ (Node.tagged (.name t.tag s) types t.segment [] t.span).children)
    (hbelow : Node.tagged (.name u.tag s') types' u.segment parts' u.span ∈ c.preorder) :
    t.LeavesRoom u := by
  have hlaidNode := hlaid.nodes _ hnode
  obtain ⟨hnonempty, hstart⟩ := tag_of_isLaidOut hlaid hnode
  obtain ⟨-, -, -, -, htypes, -⟩ := hlaidNode.tokens
  have hinner : u.span.Within c.extent := Node.extent_within_of_mem_preorder
    (Node.forall_mem_preorder_of_mem_children (hlaid.nodes_below hnode) hc) hbelow
  rcases List.mem_cons.mp hc with rfl | hc
  · -- there is nothing below a name
    rcases Node.mem_preorder_iff.mp hbelow with h | ⟨_, h, -⟩ <;> cases h
  · have happart : (Node.name t.tag s).extent.Apart c.extent :=
      List.rel_of_pairwise_cons hlaidNode.apart hc
    have hchild := List.mem_cons_of_mem (Node.name t.tag s) hc
    have hwithin : c.extent.Within t.span := hlaidNode.within c hchild
    have hsome := (hlaid.nodes_below hnode c (Node.mem_preorder_of_mem_children hchild)).nonempty
    have hstop := htypes c (List.append_nil types ▸ hc)
    -- the types come behind the tag, which has something in it
    refine .inr ⟨?_, hinner.2.trans_lt hstop⟩
    have hbehind := hwithin.1
    have hfirst := hinner.1
    rcases happart with h | h <;> omega

/-- Templates without interpolations leave the later ones room. -/
lemma pairwise_leavesRoom (hlaid : source.script.IsLaidOut) :
    (templates tags source).Pairwise fun t u => t.interpolated = false → t.LeavesRoom u := by
  rw [templates, List.pairwise_filterMap]
  refine hlaid.pairwise_preorder.imp_of_mem fun {m n} hm hn hmn t ht u hu hclosed => ?_
  obtain ⟨-, -, s, types, parts, rfl, hparts⟩ := Template.eq_tagged_of_ofNode? ht
  obtain ⟨-, -, s', types', parts', rfl, -⟩ := Template.eq_tagged_of_ofNode? hu
  rcases hmn with hapart | ⟨c, hc, hbelow⟩
  · exact .inl hapart
  · rw [hclosed, eq_comm, Bool.not_eq_false', List.isEmpty_iff] at hparts
    subst hparts
    exact leavesRoom_of_below hlaid hm hc hbelow

/-- The tag of a template starts with a character of the text. -/
lemma isBoundary_of_tagStandsIn {text : List Char} {name : String} {span segment : Span}
    (h : TagStandsIn text (.name name span) segment) : IsBoundary text span.start := by
  obtain ⟨next, hprecedes, -⟩ := h
  obtain ⟨token, htoken, rfl, -, -⟩ := hprecedes name span rfl
  obtain ⟨before, word, htext, -, hspan⟩ := htoken.exists_append
  exact ⟨before, word ++ token.after.chars, by rw [htext, List.append_assoc], by rw [hspan]⟩

/-- The first segment of a template covers whole characters of the text. -/
lemma isBoundary_of_segmentStandsIn {text : List Char} {segment : Span}
    (h : SegmentStandsIn text segment) :
    IsBoundary text segment.start ∧ IsBoundary text segment.stop := by
  obtain ⟨before, raw, rest, rfl, -, rfl⟩ := h
  have hmark : byteLength (before ++ ['`']) = byteLength before + 1 := by
    rw [byteLength_append]
    rfl
  exact ⟨⟨before ++ ['`'], raw ++ rest, by simp, hmark⟩,
    ⟨before ++ ['`'] ++ raw, rest, by simp, by rw [byteLength_append, hmark]⟩⟩

end Places

/-! ### Texts for templates -/

/-- A text fits a template if no backtick is in it, and no dollar sign with a brace
behind it. -/
lemma fitsTemplate_iff {text : List Char} :
    fitsTemplate text = true ↔ '`' ∉ text ∧ ¬ ['$', '{'] <:+: text := by
  fun_induction fitsTemplate text with
  | case1 => simp
  | case2 rest => simp [List.infix_cons_iff]
  | case3 c cs hopen ih =>
      have hmark : Char.ofNat 0x60 = '`' := by decide
      have hstart : ¬ ['$', '{'] <+: c :: cs := by
        rintro ⟨rest, heq⟩
        exact hopen rest (List.cons.inj heq).1.symm (List.cons.inj heq).2.symm
      rw [Bool.and_eq_true, bne_iff_ne, hmark, ih, List.mem_cons, List.infix_cons_iff, not_or,
        not_or, ne_comm]
      tauto

/-! ### Revisions -/

/-- A document with the text that takes its place, and a text that is put in front of
its template, if any. -/
structure Revision where
  template : Template
  text : String
  advice? : Option String

namespace Revision

/-- The edits of a revision. -/
def edits (r : Revision) : List Edit :=
  .replace r.template.segment r.text :: (r.advice?.map (.insert r.template.span.start)).toList

variable {r r' : Revision} {e e' : Edit}

/-- An edit of a revision covers the segment of the template, or is an insertion in
front of the template. -/
lemma span_of_mem_edits (he : e ∈ r.edits) :
    e.span = r.template.segment ∨
      e.span.start = r.template.span.start ∧ e.span.stop = r.template.span.start := by
  rcases List.mem_cons.mp he with rfl | he
  · exact .inl rfl
  · obtain ⟨advice, -, rfl⟩ := Option.map_eq_some_iff.mp (Option.mem_toList.mp he)
    exact .inr ⟨rfl, rfl⟩

/-- The text in front of a template stands apart from the one in it. -/
lemma pairwise_edits (h : r.template.IsPlaced) : r.edits.Pairwise Edit.StandsApart := by
  have hbefore := h.before
  rw [edits]
  cases r.advice? with
  | none => exact List.pairwise_singleton _ _
  | some advice => exact List.pairwise_pair.mpr (.inr ⟨hbefore.le, hbefore⟩)

/-- Edits of templates that leave each other room stand apart. -/
lemma standsApart_of_leavesRoom (h : r.template.IsPlaced) (h' : r'.template.IsPlaced)
    (hroom : r.template.LeavesRoom r'.template) (he : e ∈ r.edits) (he' : e' ∈ r'.edits) :
    e.StandsApart e' := by
  obtain ⟨hbefore, hforward, hbehind⟩ := h
  obtain ⟨hbefore', hforward', hbehind'⟩ := h'
  rw [Template.LeavesRoom, Span.Apart] at hroom
  rw [Edit.StandsApart, Edit.Before, Edit.Before, Edit.EndsBefore, Edit.EndsBefore]
  rcases span_of_mem_edits he with hspan | ⟨hstart, hstop⟩ <;>
    rcases span_of_mem_edits he' with hspan' | ⟨hstart', hstop'⟩ <;>
    simp only [*] <;> omega

end Revision

/-- Revisions of some of the documents, none of which a script puts together.  Their
texts do not end a template and interpolate nothing, and what is put in front of a
template is allowed there. -/
structure AreRevisions (documents : List Template) (allowed : Template → String → Prop)
    (rs : List Revision) : Prop where
  sublist : (rs.map (·.template)).Sublist documents
  closed : ∀ r ∈ rs, r.template.interpolated = false
  fits : ∀ r ∈ rs, '`' ∉ r.text.toList ∧ ¬ ['$', '{'] <:+: r.text.toList
  advised : ∀ r ∈ rs, ∀ advice ∈ r.advice?, allowed r.template advice

section Drafts

variable {renamer : Renamer} {accompany : Template → Document → List Edit}

/-- A draft for a template is empty, or one revision of it. -/
lemma edits_of_migrateTemplate {t : Template} {draft : Draft}
    (h : migrateTemplate renamer accompany t = .ok draft) :
    draft.edits = [] ∨ t.interpolated = false ∧ ∃ text document, fitsTemplate text.toList = true ∧
      draft.edits = .replace t.segment text :: accompany t document := by
  rw [migrateTemplate] at h
  split at h
  next =>
    cases h
    exact .inl rfl
  next hclosed =>
    obtain ⟨document, -, h⟩ := exists_ok_of_bind h
    obtain ⟨⟨renamed, tally⟩, -, h⟩ := exists_ok_of_bind h
    cases h
    rw [renamedDraft]
    split
    · exact .inl rfl
    · split
      next => exact .inl rfl
      next text htext =>
        rw [templateText?] at htext
        split at htext
        next hfits =>
          cases htext
          exact .inr ⟨eq_false_of_ne_true hclosed, _, renamed, hfits, rfl⟩
        next => cases htext

/-- A draft for documents is made of revisions. -/
lemma exists_revisions (allowed : Template → String → Prop)
    (haccompany : ∀ t document, ∃ advice? : Option String,
      accompany t document = (advice?.map (.insert t.span.start)).toList ∧
      ∀ advice ∈ advice?, allowed t advice)
    {documents : List Template} {draft : Draft}
    (h : migrateTemplates renamer accompany documents = .ok draft) :
    ∃ rs, AreRevisions documents allowed rs ∧ draft.edits = rs.flatMap Revision.edits := by
  obtain ⟨drafts, hdrafts, h⟩ := exists_ok_of_bind h
  cases h
  change ∃ rs, _ ∧ drafts.flatMap (·.edits) = _
  replace hdrafts := forall₂_of_mapM hdrafts
  clear h
  induction hdrafts with
  | nil => exact ⟨[], ⟨.slnil, by simp, by simp, by simp⟩, rfl⟩
  | @cons t draft ts drafts hdraft _ ih =>
      obtain ⟨rs, hrs, hedits⟩ := ih
      rw [List.flatMap_cons, hedits]
      rcases edits_of_migrateTemplate hdraft with hnone | ⟨hclosed, text, document, hfits, hsome⟩
      · exact ⟨rs, ⟨hrs.sublist.cons t, hrs.closed, hrs.fits, hrs.advised⟩, by rw [hnone]; rfl⟩
      · obtain ⟨advice?, hadvice, hallowed⟩ := haccompany t document
        refine ⟨⟨t, text, advice?⟩ :: rs, ⟨hrs.sublist.cons_cons t, ?_, ?_, ?_⟩, ?_⟩
        · exact List.forall_mem_cons.mpr ⟨hclosed, hrs.closed⟩
        · exact List.forall_mem_cons.mpr ⟨fitsTemplate_iff.mp hfits, hrs.fits⟩
        · exact List.forall_mem_cons.mpr ⟨hallowed, hrs.advised⟩
        · rw [hsome, hadvice, List.flatMap_cons]
          rfl

/-- Nothing goes along with a document but the comment about mutations. -/
lemma exists_advice (text : List Char) (t : Template) (document : Document) :
    ∃ advice? : Option String,
      advisoryEdits text t document = (advice?.map (.insert t.span.start)).toList ∧
      ∀ advice ∈ advice?, advice = advisory text t.span.start := by
  rw [advisoryEdits]
  split
  · exact ⟨some _, rfl, fun _ h => (Option.mem_some_iff.mp h).symm⟩
  · exact ⟨none, rfl, fun _ h => by cases h⟩

end Drafts

/-! ### Texts -/

/-- Revisions that are all that happens to a text.  Each one is of a document of its
own, whose segment stands between the marks of a template of the text, and their edits,
one behind the other, are carried out, with the rest of the text kept. -/
structure AreCarriedOut (text : List Char) (edits : List Edit) (result : List Char)
    (rs : List Revision) : Prop where
  once : (rs.map (·.template.segment)).Nodup
  placed : ∀ r ∈ rs, SegmentStandsIn text r.template.segment ∧ r.template.IsPlaced
  edits_eq : edits = rs.flatMap Revision.edits
  patched : ∃ ordered : List Edit, ordered.Perm edits ∧ ordered.Pairwise Edit.Before ∧
    Patched 0 text ordered result

section Texts

variable {file : SourceFile} {source : Source} {tags : List String}
  {allowed : Template → String → Prop} {rs : List Revision}

lemma pairwise_leavesRoom_of_areRevisions (hlaid : source.script.IsLaidOut)
    (hrs : AreRevisions (templates tags source) allowed rs) :
    rs.Pairwise fun r r' => r.template.LeavesRoom r'.template := by
  have hrooms := (pairwise_leavesRoom hlaid).sublist hrs.sublist
  exact (List.pairwise_map.mp hrooms).imp_of_mem fun hr _ hroom => hroom (hrs.closed _ hr)

/-- All edits of revisions fit the text. -/
lemma inBounds_of_mem_edits (hmark : file.chars.head? ≠ some '\uFEFF')
    (hparse : file.parse = .ok source) (hlaid : source.script.IsLaidOut) {r : Revision}
    (hr : r.template ∈ templates tags source) {e : Edit} (he : e ∈ r.edits) :
    e.InBounds file.chars := by
  have htext := source_of_parse hparse
  have hplaced := isPlaced_of_mem_templates hlaid hr
  obtain ⟨s, types, parts, hnode, -⟩ := exists_tagged_of_mem_templates hr
  obtain ⟨hsegment, htag⟩ := recordsIn_of_parse htext hnode
  rw [SourceFile.chars] at hmark ⊢
  rw [dropByteOrderMark_of_unmarked hmark] at hsegment htag
  rcases Revision.span_of_mem_edits he with hspan | ⟨hstart, hstop⟩
  · rw [Edit.InBounds, hspan]
    exact ⟨hplaced.forward, isBoundary_of_segmentStandsIn hsegment⟩
  · have hbound := isBoundary_of_tagStandsIn htag
    have heq : r.template.span.start = s.start := (tag_of_isLaidOut hlaid hnode).2
    rw [Edit.InBounds, hstart, hstop, heq]
    exact ⟨le_rfl, hbound, hbound⟩

/-- In a script that is laid out, and whose text has no byte order mark, all revisions
of documents are carried out, and nothing else happens. -/
lemma areCarriedOut_of_areRevisions (hmark : file.chars.head? ≠ some '\uFEFF')
    (hparse : file.parse = .ok source) (hlaid : source.script.IsLaidOut)
    (hrs : AreRevisions (templates tags source) allowed rs) {edits : List Edit}
    (hedits : edits = rs.flatMap Revision.edits) :
    (applyEdits file.text edits).skipped = [] ∧
      AreCarriedOut file.chars edits (applyEdits file.text edits).text.toList rs := by
  subst hedits
  have hmem (r : Revision) (hr : r ∈ rs) : r.template ∈ templates tags source :=
    hrs.sublist.subset (List.mem_map_of_mem hr)
  have hplaced (r : Revision) (hr : r ∈ rs) := isPlaced_of_mem_templates hlaid (hmem r hr)
  have hrooms := pairwise_leavesRoom_of_areRevisions hlaid hrs
  have hfit : ∀ e ∈ rs.flatMap Revision.edits, e.InBounds file.text.toList := by
    intro e he
    obtain ⟨r, hr, he⟩ := List.mem_flatMap.mp he
    exact inBounds_of_mem_edits hmark hparse hlaid (hmem r hr) he
  have hapart : (rs.flatMap Revision.edits).Pairwise Edit.StandsApart :=
    List.pairwise_flatMap.mpr ⟨fun r hr => Revision.pairwise_edits (hplaced r hr),
      hrooms.imp_of_mem fun hr hr' hroom e he e' he' =>
        Revision.standsApart_of_leavesRoom (hplaced _ hr) (hplaced _ hr') hroom he he'⟩
  obtain ⟨hskipped, hpatched⟩ := applyEdits_of_apart hfit hapart
  refine ⟨hskipped, ?_, fun r hr => ⟨?_, hplaced r hr⟩, rfl, hpatched⟩
  · exact List.pairwise_map.mpr (hrooms.imp_of_mem fun hr hr' hroom =>
      hroom.segment_ne (hplaced _ hr) (hplaced _ hr'))
  · have hsegment := template_standsIn (source_of_parse hparse) (hmem r hr)
    have hdrop : dropByteOrderMark file.text.toList = file.text.toList :=
      dropByteOrderMark_of_unmarked hmark
    rwa [hdrop] at hsegment

end Texts

/-! ### The migrations -/

/-- **The migrations of documents leave the code around them alone.**  Let a file
start with no byte order mark, and what is read in it be laid out.  If client fields
or identity fields are renamed in it, no edit is skipped.  All that happens to the
text is that some documents which the script does not put together are rewritten, each
once, by a text without backticks and interpolations, and that, for client fields only,
comments about mutations are put in front of some of their templates.  A file that
mentions no tag is returned as it is. -/
theorem document_migrations_keep_host_code {context : Context} {file : SourceFile}
    (hmark : file.chars.head? ≠ some '\uFEFF')
    (hlaid : ∀ source, file.parse = .ok source → source.script.IsLaidOut) :
    (∀ outcome, renameClientFields context file = .ok outcome → ∃ source draft rs,
      file.parse = .ok source ∧
      migrateTemplates clientRenamer (advisoryEdits file.chars) (templates context.tags source) =
        .ok draft ∧
      outcome = draft.finish file.text ∧ (applyEdits file.text draft.edits).skipped = [] ∧
      AreRevisions (templates context.tags source)
        (fun t advice => advice = advisory file.chars t.span.start) rs ∧
      AreCarriedOut file.chars draft.edits outcome.text.toList rs) ∧
    ∀ outcome, migrateIds context file = .ok outcome →
      mentionsTag context.tags file.chars = false ∧ outcome = .unchanged file.text ∨
      ∃ schema source draft rs, context.schema = some schema ∧ file.parse = .ok source ∧
        identityDraft context schema source = .ok draft ∧
        outcome = draft.finish file.text ∧ (applyEdits file.text draft.edits).skipped = [] ∧
        AreRevisions (templates context.tags source) (fun _ _ => False) rs ∧
        AreCarriedOut file.chars draft.edits outcome.text.toList rs := by
  constructor
  · intro outcome h
    obtain ⟨source, hparse, h⟩ := exists_ok_of_bind h
    obtain ⟨draft, hdraft, h⟩ := exists_ok_of_bind h
    cases h
    obtain ⟨rs, hrs, hedits⟩ := exists_revisions _ (exists_advice file.chars) hdraft
    obtain ⟨hskipped, hcarried⟩ :=
      areCarriedOut_of_areRevisions hmark hparse (hlaid source hparse) hrs hedits
    exact ⟨source, draft, rs, hparse, hdraft, rfl, hskipped, hrs, hcarried⟩
  · intro outcome h
    cases hschema : context.schema with
    | none =>
        rw [migrateIds, hschema] at h
        cases h
    | some schema =>
        rw [migrateIds_eq hschema] at h
        split at h
        next =>
          obtain ⟨source, hparse, h⟩ := exists_ok_of_bind h
          obtain ⟨draft, hdraft, h⟩ := exists_ok_of_bind h
          cases h
          obtain ⟨rs, hrs, hedits⟩ := exists_revisions (fun _ _ => False)
            (fun _ _ => ⟨none, rfl, fun _ h => by cases h⟩) hdraft
          obtain ⟨hskipped, hcarried⟩ :=
            areCarriedOut_of_areRevisions hmark hparse (hlaid source hparse) hrs hedits
          exact .inr ⟨schema, source, draft, rs, rfl, hparse, hdraft, rfl, hskipped, hrs, hcarried⟩
        next hmention =>
          cases h
          exact .inl ⟨eq_false_of_ne_true hmention, rfl⟩

/-- A document with a mutation, and one in what another template interpolates. -/
def mutationFile : SourceFile :=
  ⟨"f(graphql`mutation \x7b a_b \x7d`, html`$\x7bgraphql`\x7b __id \x7d`\x7d`)", .typeScript⟩

theorem document_migrations_keep_code_of_mutationFile :
    ∃ schema source, Schema.parse? artistSchemaText = some schema ∧
      mutationFile.parse = .ok source ∧ source.script.IsLaidOut ∧
      (∃ (draft : Draft) (rs : List Revision),
        renameClientFields { schema := some schema } mutationFile =
          .ok (draft.finish mutationFile.text) ∧
        draft.edits.map (·.span) = [⟨10, 26⟩, ⟨2, 2⟩] ∧
        (applyEdits mutationFile.text draft.edits).skipped = [] ∧
        AreCarriedOut mutationFile.chars draft.edits (draft.finish mutationFile.text).text.toList
          rs) ∧
      ∃ (draft : Draft) (rs : List Revision),
        migrateIds { schema := some schema } mutationFile =
          .ok (draft.finish mutationFile.text) ∧
        draft.edits.map (·.span) = [⟨44, 52⟩] ∧
        (applyEdits mutationFile.text draft.edits).skipped = [] ∧
        AreCarriedOut mutationFile.chars draft.edits (draft.finish mutationFile.text).text.toList
          rs := by
  have hmark : mutationFile.chars.head? ≠ some '\uFEFF' := by decide
  have hmention : mentionsTag ["graphql"] mutationFile.chars = true := by decide +kernel
  have hcheck : (Schema.parse? artistSchemaText).any (fun schema =>
      mutationFile.parse.toOption.any fun source =>
        decide source.script.IsLaidOut &&
        (migrateTemplates clientRenamer (advisoryEdits mutationFile.chars)
          (templates ["graphql"] source)).toOption.any
            (fun draft => draft.edits.map (·.span) == [⟨10, 26⟩, ⟨2, 2⟩]) &&
        (identityDraft { schema := some schema } schema source).toOption.any
          (fun draft => draft.edits.map (·.span) == [⟨44, 52⟩])) = true := by
    decide +kernel
  obtain ⟨schema, hschema, hrest⟩ := Option.any_eq_true _ _ |>.mp hcheck
  obtain ⟨source, hok, hholds⟩ := Option.any_eq_true _ _ |>.mp hrest
  rw [Bool.and_eq_true, Bool.and_eq_true] at hholds
  obtain ⟨⟨hlaid, hclients⟩, hids⟩ := hholds
  obtain ⟨clients, hclients, hspans⟩ := Option.any_eq_true _ _ |>.mp hclients
  obtain ⟨ids, hids, hspans'⟩ := Option.any_eq_true _ _ |>.mp hids
  have hparse : mutationFile.parse = .ok source := eq_ok_of_toOption hok
  replace hclients := eq_ok_of_toOption hclients
  replace hids := eq_ok_of_toOption hids
  replace hlaid := of_decide_eq_true hlaid
  have hclientRun : renameClientFields { schema := some schema } mutationFile =
      .ok (clients.finish mutationFile.text) := by
    rw [renameClientFields, hparse]
    change (migrateTemplates _ _ (templates ["graphql"] source) >>= _) = _
    rw [hclients]
    rfl
  have hidRun : migrateIds { schema := some schema } mutationFile =
      .ok (ids.finish mutationFile.text) := by
    rw [migrateIds_eq rfl, hmention, if_pos rfl, readAndMigrateIds, hparse]
    change (identityDraft { schema := some schema } schema source >>= _) = _
    rw [hids]
    rfl
  obtain ⟨hfields, hidentity⟩ :=
    @document_migrations_keep_host_code { schema := some schema } mutationFile hmark
      fun other hother => Except.ok.inj (hparse.symm.trans hother) ▸ hlaid
  obtain ⟨source₁, draft₁, rs₁, hparse₁, hdraft₁, -, hskipped₁, -, hcarried₁⟩ :=
    hfields _ hclientRun
  obtain rfl : source = source₁ := Except.ok.inj (hparse.symm.trans hparse₁)
  obtain rfl : clients = draft₁ := Except.ok.inj (hclients.symm.trans hdraft₁)
  rcases hidentity _ hidRun with ⟨hsilent, -⟩ | ⟨schema₂, source₂, draft₂, rs₂, hschema₂, hparse₂,
    hdraft₂, -, hskipped₂, -, hcarried₂⟩
  · exact absurd hmention (ne_true_of_eq_false hsilent)
  obtain rfl : source = source₂ := Except.ok.inj (hparse.symm.trans hparse₂)
  obtain rfl : schema = schema₂ := Option.some.inj hschema₂
  obtain rfl : ids = draft₂ := Except.ok.inj (hids.symm.trans hdraft₂)
  exact ⟨schema, source, hschema, hparse, hlaid,
    ⟨clients, rs₁, hclientRun, eq_of_beq hspans, hskipped₁, hcarried₁⟩,
    ids, rs₂, hidRun, eq_of_beq hspans', hskipped₂, hcarried₂⟩

end GraphMigrate
