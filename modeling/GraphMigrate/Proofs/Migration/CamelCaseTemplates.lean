/-
Templates in camel case.

A template is printed anew if its renamer counts something and the printed text
can stand in a template.  Camel case counts the names that change, so it leaves
alone what it does not change.

* `migrateTemplate_of_run`: what is drafted for a template whose document is
  renamed;
* `camel_case_counts_changed_names`: **camel case counts the names that change,
  and prints anew what has some**.
-/
import GraphMigrate.Proofs.Document.CamelCaseAgain
import GraphMigrate.Proofs.Migration.EarlyReturn

namespace GraphMigrate

open Script (Template templates)

/-! ### The draft for one template -/

section Templates

variable {renamer : Renamer} {accompany : Template → Document → List Edit} {template : Template}
  {document renamed : Document} {tally : Tally}

/-- The draft for a template whose document is renamed. -/
lemma migrateTemplate_of_run (hplain : template.interpolated = false)
    (hdocument : template.document = .ok document)
    (hrun : (renamer.document template.segment.start document).run {} = .ok (renamed, tally)) :
    migrateTemplate renamer accompany template = .ok
      (if tally.renamed = 0 then .ofNotes tally.notes
      else if fitsTemplate renamed.written.toList then
        ⟨.replace template.segment renamed.written :: accompany template renamed, tally.notes⟩
      else .ofNotes tally.notes ++ .warn unprintableNote template.span) := by
  rw [migrateTemplate, hplain, if_neg Bool.false_ne_true, hdocument]
  change ((renamer.document template.segment.start document).run {} >>= fun renamed =>
    .ok (renamedDraft template (accompany template) renamed)) = _
  rw [hrun]
  change Except.ok (renamedDraft template (accompany template) (renamed, tally)) = _
  rw [renamedDraft, templateText?]
  by_cases hfits : fitsTemplate renamed.written.toList = true <;> simp only [hfits] <;> rfl

end Templates

/-! ### Camel case -/

/-- **Camel case counts the names that change.**  A document stays as it is exactly
if nothing is counted; what is counted are the names of fields and arguments that
are other ones afterwards, place by place; and a second run counts nothing and
changes nothing.  So a template is left alone if no name in it changes, and else
printed anew if the printed text can stand in a template; if it cannot, there is a
warning. -/
theorem camel_case_counts_changed_names {start : ℕ} {document camelized : Document}
    {tally : Tally}
    (h : (clientRenamer.document start document).run {} = .ok (camelized, tally)) :
    (tally.renamed = 0 ↔ camelized = document) ∧
    document.names.length = camelized.names.length ∧
    tally.renamed = countChanged document.names camelized.names ∧
    (∀ start', (clientRenamer.document start' camelized).run {} = .ok (camelized, {})) ∧
    ∀ (template : Template) (accompany : Template → Document → List Edit),
      template.interpolated = false → template.document = .ok document →
      template.segment.start = start →
        migrateTemplate clientRenamer accompany template = .ok
          (if document.names = camelized.names then .empty
          else if fitsTemplate camelized.written.toList then
            ⟨.replace template.segment camelized.written :: accompany template camelized, []⟩
          else .warn unprintableNote template.span) := by
  obtain ⟨hcamelized, hsame, hlength, htally⟩ := run_inCamelCase h
  have hzero : tally.renamed = 0 ↔ document.names = camelized.names := by
    rw [htally]
    exact countChanged_eq_zero_iff hlength
  refine ⟨⟨hsame, ?_⟩, hlength, by rw [htally], fun start' => ?_, ?_⟩
  · rintro rfl
    exact hzero.mpr rfl
  · rw [hcamelized]
    exact run_inCamelCase_again start' document {}
  · rintro template accompany hplain hdocument rfl
    have hnotes : tally.notes = [] := by rw [htally]
    rw [migrateTemplate_of_run hplain hdocument h]
    simp only [hzero, hnotes]
    rfl

/-- The gallery in a template at the start of a script. -/
def galleryTemplate : Template := ⟨"graphql", galleryText, ⟨8, 82⟩, ⟨0, 83⟩, false⟩

theorem gallery_is_reprinted :
    ∃ document camelized tally, galleryTemplate.document = .ok document ∧
      (clientRenamer.document 8 document).run {} = .ok (camelized, tally) ∧
      tally.renamed = 5 ∧ countChanged document.names camelized.names = 5 ∧
      (clientRenamer.document 8 camelized).run {} = .ok (camelized, {}) ∧
      migrateTemplate clientRenamer (fun _ _ => []) galleryTemplate =
        .ok (.replace galleryTemplate.segment galleryCamelized) := by
  have hcheck : galleryTemplate.document.toOption.any (fun document =>
      ((clientRenamer.document 8 document).run {}).toOption.any fun renamed =>
        renamed.2.renamed == 5 && renamed.1.written == galleryCamelized) = true := by
    decide +kernel
  obtain ⟨document, hdocument, hrun⟩ := Option.any_eq_true _ _ |>.mp hcheck
  obtain ⟨⟨camelized, tally⟩, hok, hresult⟩ := Option.any_eq_true _ _ |>.mp hrun
  rw [Bool.and_eq_true, beq_iff_eq, beq_iff_eq] at hresult
  obtain ⟨hcount, hwritten⟩ := hresult
  replace hdocument := eq_ok_of_toOption hdocument
  replace hok := eq_ok_of_toOption hok
  obtain ⟨-, -, hchanged, hagain, hdraft⟩ := camel_case_counts_changed_names hok
  rw [hcount] at hchanged
  have hnames : document.names ≠ camelized.names := fun hsame => by
    rw [hsame, countChanged_self] at hchanged
    cases hchanged
  refine ⟨document, camelized, tally, hdocument, hok, hcount, hchanged.symm, hagain 8, ?_⟩
  rw [hdraft galleryTemplate (fun _ _ => []) rfl hdocument rfl, if_neg hnames, hwritten,
    if_pos (by decide +kernel)]
  rfl

/-- A script with a document that holds the mark of a template, written with an
escape. -/
def quotedFile : SourceFile :=
  ⟨"const f = graphql`\x7b a_b(s: \"\\u0060\") \x7d`", .typeScript⟩

/-- A name changes in the document, but what is printed would end its template, so
the script is left as it is. -/
theorem unprintable_document_is_not_reprinted :
    ∃ source template document camelized tally, quotedFile.parse = .ok source ∧
      templates ["graphql"] source = [template] ∧ template.interpolated = false ∧
      template.document = .ok document ∧
      (clientRenamer.document template.segment.start document).run {} = .ok (camelized, tally) ∧
      tally.renamed = 1 ∧ document.names = ["a_b", "s"] ∧ camelized.names = ["aB", "s"] ∧
      renameClientFields {} quotedFile =
        .ok ⟨quotedFile.text, [.warning unprintableNote template.span], false⟩ := by
  have hcheck : quotedFile.parse.toOption.any (fun source =>
      (templates ["graphql"] source).head?.any fun template =>
        (templates ["graphql"] source) == [template] && !template.interpolated &&
          template.document.toOption.any fun document =>
            ((clientRenamer.document template.segment.start document).run {}).toOption.any
              fun renamed => renamed.2.renamed == 1 && document.names == ["a_b", "s"] &&
                renamed.1.names == ["aB", "s"] &&
                (migrateTemplates clientRenamer (advisoryEdits quotedFile.chars)
                  (templates ["graphql"] source)).toOption.any
                    (· == .warn unprintableNote template.span)) = true := by
    decide +kernel
  obtain ⟨source, hsource, hrest⟩ := Option.any_eq_true _ _ |>.mp hcheck
  obtain ⟨template, -, hrest⟩ := Option.any_eq_true _ _ |>.mp hrest
  rw [Bool.and_eq_true, Bool.and_eq_true, beq_iff_eq, Bool.not_eq_true'] at hrest
  obtain ⟨⟨hone, hplain⟩, hrest⟩ := hrest
  obtain ⟨document, hdocument, hrun⟩ := Option.any_eq_true _ _ |>.mp hrest
  obtain ⟨⟨camelized, tally⟩, hok, hresult⟩ := Option.any_eq_true _ _ |>.mp hrun
  simp only [Bool.and_eq_true, beq_iff_eq] at hresult
  obtain ⟨⟨⟨hcount, hold⟩, hnew⟩, hdraft⟩ := hresult
  obtain ⟨draft, hdraft, heq⟩ := Option.any_eq_true _ _ |>.mp hdraft
  obtain rfl := eq_of_beq heq
  refine ⟨source, template, document, camelized, tally, eq_ok_of_toOption hsource, hone, hplain,
    eq_ok_of_toOption hdocument, eq_ok_of_toOption hok, hcount, hold, hnew, ?_⟩
  rw [renameClientFields, eq_ok_of_toOption hsource]
  change (migrateTemplates clientRenamer (advisoryEdits quotedFile.chars)
    (templates ["graphql"] source) >>= _) = _
  rw [eq_ok_of_toOption hdraft]
  exact congrArg Except.ok (finish_ofNotes quotedFile.text _)

end GraphMigrate
