/-
What the edits recorded before an edit leave to it.

A batch is judged in the order of the list, so whether an edit takes effect
is decided by those recorded before it.

* `acceptedEdits`: the edits of a list that a batch accepts;
* `applyEdits_text_of_pairwise`: what is spliced if they come in order;
* `mem_appliedEdits_iff_of_eq`: an edit of a batch is applied exactly when
  it fits and each accepted edit before it is the same or leaves it alone;
* `Edit.LiesIn`, `conflictsWith_iff_liesIn`: of an edit inside a span or
  apart from it, contradicting the rewriting of the span means lying
  properly inside;
* `forall_leave_alone_iff`: when no edit of a list stands in the way;
* `applyEdits_concat_top`: an insertion on top that is recorded last.
-/
import GraphMigrate.Proofs.Text.Nesting

namespace GraphMigrate

/-- The edits of a list that a batch accepts. -/
def acceptedEdits (text : List Char) (edits : List Edit) : List Edit :=
  (Batch.ofEdits text edits).accepted

variable {text : List Char} {edits earlier later : List Edit} {e f : Edit}

lemma mem_acceptedEdits_iff : e ∈ acceptedEdits text edits ↔ ∃ i, (e, i) ∈ selected text edits := by
  rw [acceptedEdits, ← map_selected]
  simp

/-- What is accepted is applied. -/
lemma mem_appliedEdits_iff_mem_acceptedEdits :
    e ∈ appliedEdits text edits ↔ e ∈ acceptedEdits text edits := List.mem_mergeSort

/-- Accepted edits that come in the order in which they are spliced are
spliced as they come. -/
lemma applyEdits_text_of_pairwise {text : String} {edits : List Edit}
    (h : (acceptedEdits text.toList edits).Pairwise fun a b => a.precedes b = true) :
    (applyEdits text edits).text =
      String.ofList (splice 0 text.toList (acceptedEdits text.toList edits)) := by
  have hsorted : appliedEdits text.toList edits = acceptedEdits text.toList edits :=
    List.mergeSort_of_pairwise h
  rw [← hsorted, ← applyEdits_text, String.ofList_toList]

lemma mem_of_mem_acceptedEdits (h : e ∈ acceptedEdits text edits) : e ∈ edits := by
  obtain ⟨i, hi⟩ := mem_acceptedEdits_iff.mp h
  exact List.mem_of_getElem? (mem_selected_iff.mp hi).1

lemma start_le_stop_of_mem_acceptedEdits (h : e ∈ acceptedEdits text edits) :
    e.span.start ≤ e.span.stop := by
  obtain ⟨i, hi⟩ := mem_acceptedEdits_iff.mp h
  exact (mem_selected_iff.mp hi).2.1.1

/-- What is accepted at a place does not depend on later edits. -/
lemma mem_selected_append (later : List Edit) {i : ℕ} (hi : i < earlier.length) :
    (e, i) ∈ selected text (earlier ++ later) ↔ (e, i) ∈ selected text earlier := by
  induction later using List.reverseRecOn with
  | nil => rw [List.append_nil]
  | append_singleton later last ih =>
      rw [← List.append_assoc, selected_concat, select]
      split
      · rw [List.mem_append, ih, List.mem_singleton, Prod.mk.injEq, List.length_append]
        constructor
        · rintro (h | ⟨-, h⟩)
          · exact h
          · omega
        · exact Or.inl
      · exact ih

lemma acceptedEdits_subset (earlier later : List Edit) :
    acceptedEdits text earlier ⊆ acceptedEdits text (earlier ++ later) := by
  intro f hf
  obtain ⟨i, hi⟩ := mem_acceptedEdits_iff.mp hf
  exact mem_acceptedEdits_iff.mpr
    ⟨i, (mem_selected_append later (lt_length_of_mem_selected hi)).mpr hi⟩

/-- One more edit adds itself at most. -/
lemma mem_acceptedEdits_concat (h : f ∈ acceptedEdits text (edits ++ [e])) :
    f ∈ acceptedEdits text edits ∨ f = e := by
  rw [acceptedEdits, ofEdits_concat, Batch.consider] at h
  split at h
  · rcases List.mem_append.mp h with h | h
    · exact Or.inl h
    · exact Or.inr (List.mem_singleton.mp h)
  · exact Or.inl h
  · exact Or.inl h

/-- An edit of a batch is applied exactly when it fits and each edit
accepted before it is the same or leaves it alone. -/
lemma mem_appliedEdits_iff_of_eq (h : edits = earlier ++ e :: later) :
    e ∈ appliedEdits text edits ↔
      e.InBounds text ∧ ∀ f ∈ acceptedEdits text earlier, f = e ∨ f.conflictsWith e = false := by
  subst h
  constructor
  · intro happlied
    refine ⟨inBounds_of_mem_appliedEdits happlied, fun f hf => ?_⟩
    obtain ⟨i, hi⟩ := mem_appliedEdits_iff.mp happlied
    obtain ⟨j, hj⟩ := mem_acceptedEdits_iff.mp hf
    have hlt := lt_length_of_mem_selected hj
    have hj' := (mem_selected_append (e :: later) hlt).mpr hj
    by_cases hconf : f.conflictsWith e = true
    · -- both are accepted, so they stand at one place
      cases eq_of_mem_selected hj' hi hconf
      have hfi := (mem_selected_iff.mp hj').1
      rw [(mem_selected_iff.mp hi).1, Option.some.injEq] at hfi
      exact Or.inl hfi.symm
    · exact Or.inr (by simpa using hconf)
  · rintro ⟨hfit, hall⟩
    have hplace : (earlier ++ e :: later)[earlier.length]? = some e := by simp
    rw [mem_appliedEdits_iff]
    rcases mem_selected_or hplace hfit with hacc | ⟨f, j, hf, hj, hfe⟩
    · exact ⟨_, hacc⟩
    · have hmem := mem_acceptedEdits_iff.mpr ⟨j, (mem_selected_append (e :: later) hj).mp hf⟩
      rcases hall f hmem with rfl | hfalse
      · exact ⟨j, hf⟩
      · rcases hfe with rfl | htrue
        · exact ⟨j, hf⟩
        · rw [hfalse] at htrue
          cases htrue

/-! ### Edits inside a span -/

/-- Two spans without a byte in common, one behind the other. -/
def Span.Apart (s t : Span) : Prop := s.stop ≤ t.start ∨ t.stop ≤ s.start

instance (s t : Span) : Decidable (s.Apart t) := inferInstanceAs (Decidable (_ ∨ _))

/-- An edit properly inside a span: one that replaces bytes of it, or an
insertion that is not at its ends. -/
def Edit.LiesIn (e : Edit) (s : Span) : Prop :=
  e.span.Within s ∧ e.span.start < s.stop ∧ s.start < e.span.stop

instance (e : Edit) (s : Span) : Decidable (e.LiesIn s) := inferInstanceAs (Decidable (_ ∧ _))

/-- An edit inside the span of another, or apart from it, contradicts the
other exactly when it lies properly inside. -/
lemma conflictsWith_iff_liesIn (hf : f.span.start ≤ f.span.stop) (he : e.span.start ≤ e.span.stop)
    (h : f.span.Within e.span ∨ f.span.Apart e.span) :
    f.conflictsWith e = true ↔ f.LiesIn e.span := by
  rw [Edit.conflictsWith, Edit.LiesIn]
  simp only [Span.Within, Span.Apart, Span.isEmpty] at h ⊢
  split <;> simp_all <;> omega

/-- An edit around a whole stretch contradicts every edit that starts
strictly inside it. -/
lemma conflictsWith_of_start_lt (he : e.span.start ≤ e.span.stop)
    (hstart : f.span.start < e.span.start) (hstop : e.span.start < f.span.stop) :
    f.conflictsWith e = true := by
  have hne : f.span.isEmpty = false := by
    rw [Span.isEmpty, beq_eq_false_iff_ne]
    omega
  rw [Edit.conflictsWith, hne]
  cases hempty : e.span.isEmpty <;> simp only [Bool.and_eq_true, decide_eq_true_eq] <;> omega

/-- Where edits contradict an edit if they are around it in some sense, and
else exactly if they lie in a span, all leave it alone when none is around
and none but itself lies in the span. -/
lemma forall_leave_alone_iff {around : Edit → Prop} {s : Span}
    (haround : ∀ f, around f → f ≠ e ∧ f.conflictsWith e = true)
    (hinside : ∀ f ∈ edits, ¬ around f → (f.conflictsWith e = true ↔ f.LiesIn s)) :
    (∀ f ∈ edits, f = e ∨ f.conflictsWith e = false) ↔
      ¬ ((∃ f ∈ edits, around f) ∨ ∃ f ∈ edits, f ≠ e ∧ f.LiesIn s) := by
  constructor
  · rintro hall (⟨f, hf, ha⟩ | ⟨f, hf, hne, hin⟩)
    · have hnot := (hall f hf).resolve_left (haround f ha).1
      simp [(haround f ha).2] at hnot
    · have hnot := (hall f hf).resolve_left hne
      by_cases ha : around f
      · simp [(haround f ha).2] at hnot
      · simp [(hinside f hf ha).mpr hin] at hnot
  · intro hnone f hf
    rw [not_or] at hnone
    by_contra hboth
    rw [not_or] at hboth
    have ha : ¬ around f := fun h => hnone.1 ⟨f, hf, h⟩
    exact hnone.2 ⟨f, hf, hboth.1, (hinside f hf ha).mp (by simpa using hboth.2)⟩

/-! ### Insertions on top -/

section Top

variable {top : String}

lemma selected_concat_top (h : ∀ e ∈ edits, e.span.start ≤ e.span.stop → 0 < e.span.stop) :
    selected text (edits ++ [.insert 0 top]) =
      selected text edits ++ [(.insert 0 top, edits.length)] := by
  have hjudge : judge text ((selected text edits).map Prod.fst) (.insert 0 top) = .accepted := by
    refine judge_eq_accepted_iff.mpr
      ⟨⟨le_rfl, ⟨[], text, rfl, rfl⟩, ⟨[], text, rfl, rfl⟩⟩, fun f hf => ?_⟩
    obtain ⟨⟨f, i⟩, hfi, rfl⟩ := List.mem_map.mp hf
    obtain ⟨hplace, hbounds, -⟩ := mem_selected_iff.mp hfi
    have hstop := h f (List.mem_of_getElem? hplace) hbounds.1
    refine ⟨fun heq => ?_, ?_⟩
    · rw [show f = _ from heq] at hstop
      exact Nat.lt_irrefl 0 hstop
    · have hpoint : (Edit.insert 0 top).span.isEmpty = true := rfl
      rw [Edit.conflictsWith, hpoint]
      cases f.span.isEmpty with
      | true => rfl
      | false =>
          simp only [Edit.insert, Span.point, Nat.not_lt_zero, decide_false, Bool.false_and]
  rw [selected_concat, select, if_pos hjudge]

/-- An insertion on top that is recorded last is spliced first. -/
lemma appliedEdits_concat_top (h : ∀ e ∈ edits, e.span.start ≤ e.span.stop → 0 < e.span.stop) :
    appliedEdits text (edits ++ [.insert 0 top]) = .insert 0 top :: appliedEdits text edits := by
  have hperm (edits : List Edit) : (spliceOrder text edits).Perm (selected text edits) :=
    List.mergeSort_perm _ _
  have hsame : (spliceOrder text (edits ++ [.insert 0 top])).Perm
      ((.insert 0 top, edits.length) :: spliceOrder text edits) := by
    refine (hperm _).trans ?_
    rw [selected_concat_top h]
    exact List.perm_append_comm.trans ((hperm edits).symm.cons _)
  have hfirst : ∀ p ∈ spliceOrder text edits, SplicedBefore (.insert 0 top, edits.length) p := by
    rintro ⟨f, i⟩ hf
    obtain ⟨hplace, hbounds, -⟩ := mem_selected_iff.mp ((hperm edits).mem_iff.mp hf)
    have hstop := h f (List.mem_of_getElem? hplace) hbounds.1
    simp only [SplicedBefore, Edit.insert, Span.point]
    omega
  have hsorted (edits : List Edit) := (isSplicingOrder_spliceOrder text edits).sorted
  have heq := hsame.eq_of_pairwise (fun a b _ _ hab hba => absurd hba hab.asymm) (hsorted _)
    (List.pairwise_cons.mpr ⟨hfirst, hsorted edits⟩)
  rw [← map_spliceOrder, heq, List.map_cons, map_spliceOrder]

/-- What is inserted on top, last of all, comes in front of what the other edits give. -/
lemma applyEdits_concat_top {text : String}
    (h : ∀ e ∈ edits, e.span.start ≤ e.span.stop → 0 < e.span.stop) :
    (applyEdits text (edits ++ [.insert 0 top])).text = top ++ (applyEdits text edits).text := by
  refine String.toList_inj.mp ?_
  rw [String.toList_append, applyEdits_text, applyEdits_text, appliedEdits_concat_top h]
  exact @splice_cons 0 [] [] text.toList (.insert 0 top) (appliedEdits text.toList edits)
    rfl rfl

end Top

end GraphMigrate
