/-
Batches in which the order of the edits does not matter.

The order of a batch decides which of two edits that contradict each other
is applied, and which of two insertions at one offset comes first.  Where
neither question arises, all edits that fit are applied once each, and their
spans alone say where.

* `Edit.conflictsWith_iff_share`: replacements contradict each other when
  they have a byte in common;
* `AreIndependent`: of the edits that fit a text, different ones agree and
  are no insertions at one offset;
* `AreIndependent.mem_appliedEdits_iff`, `AreIndependent.skipped_eq`: what a
  batch of them applies, and what it skips;
* `applyEdits_of_laid`: edits that come in the order of the text;
* `applyEdits_of_perm`: **a batch of independent edits gives one text in
  every order**, and skips the same edits.
-/
import GraphMigrate.Proofs.Text.Nesting

namespace GraphMigrate

/-- Two replacements contradict each other exactly when they share a byte. -/
lemma Edit.conflictsWith_iff_share {a b : Edit} (ha : a.span.start < a.span.stop)
    (hb : b.span.start < b.span.stop) :
    a.conflictsWith b = true ↔
      ∃ i, (a.span.start ≤ i ∧ i < a.span.stop) ∧ b.span.start ≤ i ∧ i < b.span.stop := by
  have hane : a.span.isEmpty = false := beq_eq_false_iff_ne.mpr ha.ne
  have hbne : b.span.isEmpty = false := beq_eq_false_iff_ne.mpr hb.ne
  simp only [conflictsWith, hane, hbne, Bool.and_eq_true, decide_eq_true_eq]
  constructor
  · rintro ⟨hab, hba⟩
    exact ⟨max a.span.start b.span.start, by omega, by omega⟩
  · rintro ⟨i, hi, hi'⟩
    omega

/-- The edits of a list that fit a text. -/
def fittingEdits (text : List Char) (edits : List Edit) : List Edit :=
  edits.filter (·.fits text)

/-- Edits whose order does not matter to a text: of those that fit it, two
that differ do not contradict each other, and are not both insertions at one
offset. -/
structure AreIndependent (text : List Char) (edits : List Edit) : Prop where
  agree : ∀ a ∈ fittingEdits text edits, ∀ b ∈ fittingEdits text edits, a ≠ b →
    a.conflictsWith b = false
  apart : ∀ a ∈ fittingEdits text edits, ∀ b ∈ fittingEdits text edits, a ≠ b →
    a.span.isEmpty = true → b.span.isEmpty = true → a.span.start ≠ b.span.start

lemma mem_fittingEdits {text : List Char} {edits : List Edit} {e : Edit} :
    e ∈ fittingEdits text edits ↔ e ∈ edits ∧ e.InBounds text := by
  rw [fittingEdits, List.mem_filter, Edit.fits_iff_inBounds]

/-- No edit is applied twice. -/
lemma nodup_appliedEdits (text : List Char) (edits : List Edit) :
    (appliedEdits text edits).Nodup := by
  have horder := isSplicingOrder_spliceOrder text edits
  rw [← map_spliceOrder]
  refine horder.nodup.map_on fun a ha b hb heq => ?_
  obtain ⟨-, -, hafter⟩ := (horder.mem_iff a.1 a.2).mp ha
  obtain ⟨-, -, hbfter⟩ := (horder.mem_iff b.1 b.2).mp hb
  rcases Nat.lt_trichotomy a.2 b.2 with hlt | hplace | hgt
  · exact absurd heq (hbfter a.1 a.2 ha hlt).1
  · exact Prod.ext heq hplace
  · exact absurd heq.symm (hafter b.1 b.2 hb hgt).1

namespace AreIndependent

variable {text : List Char} {edits edits' : List Edit}

lemma of_subset (h : AreIndependent text edits) (hsub : edits' ⊆ edits) :
    AreIndependent text edits' := by
  have hfit : fittingEdits text edits' ⊆ fittingEdits text edits := fun e he => by
    obtain ⟨hmem, hin⟩ := mem_fittingEdits.mp he
    exact mem_fittingEdits.mpr ⟨hsub hmem, hin⟩
  exact ⟨fun a ha b hb => h.agree a (hfit ha) b (hfit hb),
    fun a ha b hb => h.apart a (hfit ha) b (hfit hb)⟩

/-- All edits that fit are applied. -/
lemma mem_appliedEdits_iff (h : AreIndependent text edits) {e : Edit} :
    e ∈ appliedEdits text edits ↔ e ∈ fittingEdits text edits := by
  have hsub : ∀ {f : Edit} {i : ℕ}, (f, i) ∈ selected text edits → f ∈ fittingEdits text edits :=
    fun hf => by
      obtain ⟨hplace, hin, -⟩ := mem_selected_iff.mp hf
      exact mem_fittingEdits.mpr ⟨List.mem_of_getElem? hplace, hin⟩
  rw [GraphMigrate.mem_appliedEdits_iff]
  constructor
  · rintro ⟨i, hi⟩
    exact hsub hi
  · intro he
    obtain ⟨hmem, hin⟩ := mem_fittingEdits.mp he
    obtain ⟨i, hi⟩ := List.getElem?_of_mem hmem
    rcases mem_selected_or hi hin with hacc | ⟨f, j, hf, -, hclash⟩
    · exact ⟨i, hacc⟩
    · -- what contradicts an independent edit is the edit itself
      have heq : f = e := by
        rcases hclash with heq | hconflict
        · exact heq
        · by_contra hne
          rw [h.agree f (hsub hf) e he hne] at hconflict
          cases hconflict
      exact ⟨j, heq ▸ hf⟩

/-- No edit that fits is skipped. -/
lemma skipped_eq (h : AreIndependent text edits) :
    (Batch.ofEdits text edits).skipped = edits.filter fun e => !e.fits text := by
  induction edits using List.reverseRecOn with
  | nil => rfl
  | append_singleton edits e ih =>
      have hearlier := h.of_subset (List.subset_append_left edits [e])
      rw [ofEdits_concat, Batch.consider, List.filter_append, ← ih hearlier, judge]
      by_cases hfits : e.fits text = true
      · have hnone : ∀ f ∈ (Batch.ofEdits text edits).accepted, f ≠ e →
            f.conflictsWith e = false := fun f hf hne => by
          have hf' := hearlier.mem_appliedEdits_iff.mp (List.mem_mergeSort.mpr hf)
          refine h.agree f ?_ e ?_ hne
          · exact mem_fittingEdits.mpr ((mem_fittingEdits.mp hf').imp_left (List.mem_append_left _))
          · exact List.mem_filter.mpr ⟨by simp, hfits⟩
        by_cases hmem : e ∈ (Batch.ofEdits text edits).accepted
        · simp [hfits, hmem]
        · have hall : (Batch.ofEdits text edits).accepted.any (·.conflictsWith e) = false := by
            rw [List.any_eq_false]
            intro f hf
            rw [hnone f hf fun heq => hmem (heq ▸ hf)]
            exact Bool.false_ne_true
          simp [hfits, hmem, hall]
      · simp [hfits]

/-- No edit is skipped if all of them fit. -/
lemma skipped_eq_nil (h : AreIndependent text edits) (hfit : ∀ e ∈ edits, e.InBounds text) :
    (Batch.ofEdits text edits).skipped = [] := by
  rw [h.skipped_eq, List.filter_eq_nil_iff]
  intro e he
  rw [Edit.fits_iff_inBounds.mpr (hfit e he)]
  exact Bool.false_ne_true

/-- In the order of splicing, of two edits that differ only one can come
first. -/
lemma eq_of_endsBefore (h : AreIndependent text edits) {a b : Edit}
    (ha : a ∈ fittingEdits text edits) (hb : b ∈ fittingEdits text edits)
    (hab : a.EndsBefore b) (hba : b.EndsBefore a) : a = b := by
  have hastart := (mem_fittingEdits.mp ha).2.1
  have hbstart := (mem_fittingEdits.mp hb).2.1
  rw [Edit.EndsBefore] at hab hba
  by_contra hne
  refine h.apart a ha b hb hne ?_ ?_ (by omega) <;> rw [Span.isEmpty, beq_iff_eq] <;> omega

/-- A list of the edits that fit, in the order of splicing, is what is
applied. -/
lemma appliedEdits_eq (h : AreIndependent text edits) {ordered : List Edit}
    (hmem : ∀ e, e ∈ ordered ↔ e ∈ fittingEdits text edits) (hnodup : ordered.Nodup)
    (hsorted : ordered.Pairwise Edit.EndsBefore) : appliedEdits text edits = ordered := by
  have hsame := (List.perm_ext_iff_of_nodup (nodup_appliedEdits text edits) hnodup).mpr fun e =>
    h.mem_appliedEdits_iff.trans (hmem e).symm
  refine hsame.eq_of_pairwise (fun a b ha hb => ?_) (pairwise_appliedEdits text edits) hsorted
  exact h.eq_of_endsBefore (h.mem_appliedEdits_iff.mp ha) ((hmem b).mp hb)

/-- Independent edits are applied alike in every order of the list. -/
lemma appliedEdits_eq_of_perm (h : AreIndependent text edits) (hperm : edits.Perm edits') :
    appliedEdits text edits = appliedEdits text edits' := by
  have h' := h.of_subset hperm.symm.subset
  refine h.appliedEdits_eq (fun e => ?_) (nodup_appliedEdits text edits')
    (pairwise_appliedEdits text edits')
  rw [h'.mem_appliedEdits_iff]
  exact (hperm.filter _).mem_iff.symm

end AreIndependent

/-! ### Edits that are laid out -/

namespace Laid

variable {cursor : ℕ} {text : List Char} {edits : List Edit}

/-- More text that is kept in front of the first edit. -/
lemma append_kept {kept : List Char} (h : Laid (cursor + byteLength kept) text edits) :
    Laid cursor (kept ++ text) edits := by
  cases h with
  | nil => exact .nil _ _
  | @cons _ kept' gone after e es hstart hstop hlater =>
      rw [← List.append_assoc, ← List.append_assoc]
      refine .cons ?_ hstop hlater
      rw [byteLength_append]
      omega

lemma pairwise_endsBefore (h : Laid cursor text edits) : edits.Pairwise Edit.EndsBefore := by
  induction h with
  | nil => exact List.Pairwise.nil
  | cons _ _ hlater ih =>
      exact List.pairwise_cons.mpr ⟨fun f hf => (hlater.le_start_le_stop f hf).1, ih⟩

lemma inBounds {before : List Char} (h : Laid cursor text edits)
    (hcursor : cursor = byteLength before) : ∀ e ∈ edits, e.InBounds (before ++ text) := by
  induction h generalizing before with
  | nil => simp
  | @cons cursor kept gone after e es hstart hstop _ ih =>
      have hstart' : e.span.start = byteLength (before ++ kept) := by
        rw [byteLength_append]
        omega
      have hstop' : e.span.stop = byteLength (before ++ kept ++ gone) := by
        rw [byteLength_append]
        omega
      intro f hf
      rcases List.mem_cons.mp hf with rfl | hf
      · exact ⟨by omega, ⟨before ++ kept, gone ++ after, by simp, hstart'.symm⟩,
          ⟨before ++ kept ++ gone, after, by simp, hstop'.symm⟩⟩
      · simpa using ih hstop' f hf

/-- Edits that are laid out, each starting behind the start of the last, are
independent. -/
lemma areIndependent (h : Laid cursor text edits) {before : List Char}
    (hstarts : edits.Pairwise fun a b => a.span.start < b.span.start) :
    AreIndependent (before ++ text) edits := by
  have hall : edits.Pairwise fun a b =>
      a.conflictsWith b = false ∧ a.span.start ≠ b.span.start :=
    (h.pairwise_endsBefore.and hstarts).imp_of_mem fun ha _ hab =>
      ⟨hab.1.conflictsWith_eq_false (h.le_start_le_stop _ ha).2, hab.2.ne⟩
  have : Std.Symm fun a b : Edit => a.conflictsWith b = false ∧ a.span.start ≠ b.span.start :=
    ⟨fun a b hab => ⟨(Edit.conflictsWith_comm b a).trans hab.1, hab.2.symm⟩⟩
  have hboth {a b : Edit} (ha : a ∈ fittingEdits (before ++ text) edits)
      (hb : b ∈ fittingEdits (before ++ text) edits) (hne : a ≠ b) :=
    hall.forall (mem_fittingEdits.mp ha).1 (mem_fittingEdits.mp hb).1 hne
  exact ⟨fun a ha b hb hne => (hboth ha hb hne).1, fun a ha b hb hne _ _ => (hboth ha hb hne).2⟩

end Laid

/-- Edits that are laid out behind the start of a text, each starting behind
the start of the last, are spliced in as they come, and none is skipped. -/
lemma applyEdits_of_laid {text : String} {before rest : List Char} {edits : List Edit}
    (htext : text.toList = before ++ rest) (hlaid : Laid (byteLength before) rest edits)
    (hstarts : edits.Pairwise fun a b => a.span.start < b.span.start) :
    applyEdits text edits =
      ⟨String.ofList (before ++ splice (byteLength before) rest edits), []⟩ := by
  have hfit := hlaid.inBounds rfl
  have hindependent : AreIndependent text.toList edits := htext ▸ hlaid.areIndependent hstarts
  have happlied := hindependent.appliedEdits_eq
    (fun e => (mem_fittingEdits.trans (and_iff_left_of_imp fun he => htext ▸ hfit e he)).symm)
    (hstarts.imp fun hlt heq => hlt.ne (congrArg (·.span.start) heq)) hlaid.pairwise_endsBefore
  have htext' : (applyEdits text edits).text =
      String.ofList (before ++ splice (byteLength before) rest edits) := by
    rw [← String.toList_inj, applyEdits_text, happlied, htext, String.toList_ofList]
    have hkept : splice 0 (before ++ rest) edits =
        before ++ splice (0 + byteLength before) rest edits :=
      splice_append fun e he => by
        rw [Nat.zero_add]
        exact (hlaid.le_start_le_stop e he).1
    rwa [Nat.zero_add] at hkept
  have hskipped : (applyEdits text edits).skipped = [] :=
    hindependent.skipped_eq_nil fun e he => htext ▸ hfit e he
  rw [← htext', ← hskipped]

/-! ### Permutations -/

/-- **The order of independent edits does not matter.**  Let the edits of a
list that fit a text and differ from each other not contradict each other,
and let no two of them be insertions at one offset.  Then every permutation
of the list, with all its repetitions, gives the same text, and the edits
that it skips are a permutation of those that the list skips.  Whether two
edits contradict each other does not depend on which comes first, and two
that replace something in the text do so exactly when they share a byte. -/
theorem applyEdits_of_perm (text : String) {edits edits' : List Edit}
    (h : AreIndependent text.toList edits) (hperm : edits.Perm edits') :
    (applyEdits text edits).text = (applyEdits text edits').text ∧
    (applyEdits text edits).skipped.Perm (applyEdits text edits').skipped ∧
    (∀ a b : Edit, a.conflictsWith b = b.conflictsWith a) ∧
    ∀ a b : Edit, a.InBounds text.toList → b.InBounds text.toList →
      a.span.isEmpty = false → b.span.isEmpty = false →
      (a.conflictsWith b = true ↔
        ∃ i < byteLength text.toList,
          (a.span.start ≤ i ∧ i < a.span.stop) ∧ b.span.start ≤ i ∧ i < b.span.stop) := by
  refine ⟨?_, ?_, Edit.conflictsWith_comm, ?_⟩
  · rw [← String.toList_inj, applyEdits_text, applyEdits_text, h.appliedEdits_eq_of_perm hperm]
  · have h' := h.of_subset hperm.symm.subset
    rw [applyEdits, applyEdits]
    dsimp only
    rw [h.skipped_eq, h'.skipped_eq]
    exact hperm.filter _
  · rintro a b ⟨hastart, -, hastop⟩ ⟨hbstart, -, -⟩ hane hbne
    have hinside := hastop.le_byteLength
    rw [Span.isEmpty, beq_eq_false_iff_ne] at hane hbne
    rw [Edit.conflictsWith_iff_share (by omega) (by omega)]
    exact exists_congr fun i => ⟨fun hi => ⟨by omega, hi⟩, fun hi => hi.2⟩

/-- A replacement, insertions at both of its ends, an edit that leaves the
text, and repetitions of two of them. -/
def settledEdits : List Edit :=
  [.replace ⟨6, 16⟩ "channelID", .insert 6 "the ", .replace ⟨19, 40⟩ "gone", .insert 16 " new",
    .replace ⟨6, 16⟩ "channelID", .insert 6 "the "]

theorem applyEdits_of_reversed_settledEdits :
    AreIndependent "const channel_id = 1;".toList settledEdits ∧
    settledEdits.Perm settledEdits.reverse ∧
    (applyEdits "const channel_id = 1;" settledEdits).text = "const the channelID new = 1;" ∧
    (applyEdits "const channel_id = 1;" settledEdits.reverse).text =
      "const the channelID new = 1;" ∧
    (applyEdits "const channel_id = 1;" settledEdits).skipped.Perm
      (applyEdits "const channel_id = 1;" settledEdits.reverse).skipped := by
  have hindependent : AreIndependent "const channel_id = 1;".toList settledEdits :=
    ⟨by decide, by decide⟩
  have hperm : settledEdits.Perm settledEdits.reverse := settledEdits.reverse_perm.symm
  have htext : (applyEdits "const channel_id = 1;" settledEdits).text =
      "const the channelID new = 1;" := by
    cbv
  obtain ⟨hsame, hskipped, -⟩ := applyEdits_of_perm "const channel_id = 1;" hindependent hperm
  exact ⟨hindependent, hperm, htext, hsame ▸ htext, hskipped⟩

end GraphMigrate
