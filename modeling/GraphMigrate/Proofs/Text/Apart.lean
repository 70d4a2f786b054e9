/-
Batches of edits that stand apart.

Where no two edits of a batch share a place, there is nothing to judge: all of
them are applied, wherever they stand in the list, and what lies around them is
kept.

* `Edit.Before`, `Edit.StandsApart`: edits one behind the other;
* `Patched`: a text beside another, in which edits have been carried out and all
  the rest is kept;
* `Patched.exists_append`: a text is patched part by part where no edit reaches
  over the border;
* `KeptAround`, `Patched.exists_keptAround`: code in a patched text, with all that
  happens inside it;
* `applyEdits_of_apart`: **a batch of edits that stand apart skips none, and
  patches its text**.
-/
import GraphMigrate.Proofs.Text.Independence

namespace GraphMigrate

namespace Edit

/-- An edit that ends before another one, and starts in front of it. -/
def Before (a b : Edit) : Prop := a.EndsBefore b ∧ a.span.start < b.span.start

/-- Two edits one behind the other, in either order. -/
def StandsApart (a b : Edit) : Prop := a.Before b ∨ b.Before a

instance : Std.Symm StandsApart := ⟨fun _ _ => Or.symm⟩

variable {a b : Edit}

lemma Before.ne (h : a.Before b) : a ≠ b := fun heq => h.2.ne (congrArg (·.span.start) heq)

lemma StandsApart.ne (h : a.StandsApart b) : a ≠ b := h.elim (·.ne) (·.ne.symm)

lemma StandsApart.conflictsWith_eq_false (h : a.StandsApart b)
    (ha : a.span.start ≤ a.span.stop) (hb : b.span.start ≤ b.span.stop) :
    a.conflictsWith b = false := by
  rcases h with h | h
  · exact h.1.conflictsWith_eq_false ha
  · rw [conflictsWith_comm]
    exact h.1.conflictsWith_eq_false hb

/-- Of edits that stand apart the one that ends before the other starts in front
of it as well. -/
lemma StandsApart.before (h : a.StandsApart b) (hab : a.EndsBefore b)
    (ha : a.span.start ≤ a.span.stop) : a.Before b := by
  refine h.resolve_right fun hba => ?_
  have := hba.2
  rw [EndsBefore] at hab
  omega

end Edit

/-! ### Patched texts -/

/-- A text that begins at a cursor, and what edits make of it: some text is kept,
what an edit covers gives way to the text of that edit, and so on to the last
one, with all the text behind it kept. -/
inductive Patched : ℕ → List Char → List Edit → List Char → Prop
  | nil (cursor : ℕ) (text : List Char) : Patched cursor text [] text
  | cons {cursor : ℕ} {kept gone after result : List Char} {edit : Edit} {edits : List Edit} :
      edit.span.start = cursor + byteLength kept →
      edit.span.stop = edit.span.start + byteLength gone →
      Patched edit.span.stop after edits result →
      Patched cursor (kept ++ gone ++ after) (edit :: edits) (kept ++ edit.text.toList ++ result)

/-- Splicing edits that are laid out over a text patches it. -/
lemma Laid.patched {cursor : ℕ} {text : List Char} {edits : List Edit}
    (h : Laid cursor text edits) : Patched cursor text edits (splice cursor text edits) := by
  induction h with
  | nil cursor text => exact .nil cursor text
  | cons hstart hstop _ ih =>
      rw [splice_cons hstart hstop]
      exact .cons hstart hstop ih

namespace Patched

/-- Edits that patch a text lie in it. -/
lemma within {cursor : ℕ} {text result : List Char} {edits : List Edit}
    (h : Patched cursor text edits result) :
    ∀ e ∈ edits, cursor ≤ e.span.start ∧ e.span.stop ≤ cursor + byteLength text := by
  induction h with
  | nil => simp
  | cons hstart hstop _ ih =>
      intro f hf
      simp only [byteLength_append]
      rcases List.mem_cons.mp hf with rfl | hf
      · omega
      · have := ih f hf
        omega

/-- Where no edit reaches over the border between two parts of a text, each part
is patched on its own. -/
lemma exists_append {cursor : ℕ} {before after result : List Char} {edits : List Edit}
    (h : Patched cursor (before ++ after) edits result)
    (hborder : ∀ e ∈ edits, e.span.stop ≤ cursor + byteLength before ∨
      cursor + byteLength before ≤ e.span.start) :
    ∃ left right front back, edits = left ++ right ∧ result = front ++ back ∧
      Patched cursor before left front ∧
      Patched (cursor + byteLength before) after right back := by
  generalize htext : before ++ after = text at h
  induction h generalizing before with
  | nil cursor text =>
      subst htext
      exact ⟨[], [], before, after, rfl, rfl, .nil _ _, .nil _ _⟩
  | @cons cursor kept gone rest result e edits hstart hstop htail ih =>
      rw [List.append_assoc] at htext
      rcases hborder e List.mem_cons_self with hleft | hright
      · -- the edit lies in the first part, and the border in the text behind it
        obtain ⟨more, rfl, hrest⟩ := exists_append_of_le (a := kept ++ gone) (b := rest)
          (c := before) (d := after) (by rw [htext, List.append_assoc])
          (by rw [byteLength_append]; omega)
        have hcursor : cursor + byteLength (kept ++ gone ++ more) =
            e.span.stop + byteLength more := by
          simp only [byteLength_append]
          omega
        rw [hcursor] at hborder ⊢
        obtain ⟨left, right, front, back, rfl, rfl, hl, hr⟩ :=
          ih (fun f hf => hborder f (List.mem_cons_of_mem e hf)) hrest.symm
        exact ⟨e :: left, right, kept ++ e.text.toList ++ front, back, by simp, by simp,
          .cons hstart hstop hl, hr⟩
      · -- the edit and all that follow lie in the second part
        obtain ⟨more, rfl, rfl⟩ := exists_append_of_le htext (by omega)
        refine ⟨[], e :: edits, before, more ++ e.text.toList ++ result, rfl, by simp,
          .nil _ _, ?_⟩
        rw [← List.append_assoc]
        refine .cons ?_ hstop htail
        rw [byteLength_append] at hstart
        omega

end Patched

/-- The code of a span in a patched text.  The text before it and the text behind
it are patched on their own, and of all edits only some change the code itself. -/
def KeptAround (text : List Char) (edits : List Edit) (result : List Char) (t : Span)
    (inner : List Edit) : Prop :=
  ∃ left right before code after front kept back,
    edits = left ++ inner ++ right ∧ text = before ++ code ++ after ∧
      t = ⟨byteLength before, byteLength (before ++ code)⟩ ∧ result = front ++ kept ++ back ∧
      Patched 0 before left front ∧ Patched t.start code inner kept ∧ Patched t.stop after right back

/-- Code is kept, up to the edits inside it, where no edit reaches over its
ends. -/
lemma Patched.exists_keptAround {text result : List Char} {edits : List Edit} {t : Span}
    (h : Patched 0 text edits result) (ht : (t.slice? text).isSome)
    (hplaced : ∀ e ∈ edits, e.span.stop ≤ t.start ∨ t.stop ≤ e.span.start ∨ e.span.Within t) :
    ∃ inner, KeptAround text edits result t inner := by
  obtain ⟨code, hcode⟩ := Option.isSome_iff_exists.mp ht
  obtain ⟨before, after, rfl, hstart, hstop⟩ := slice?_eq_some_iff.mp hcode
  rw [List.append_assoc] at h
  obtain ⟨left, rest, front, result', rfl, rfl, hleft, hrest⟩ := h.exists_append (fun e he => by
    rcases hplaced e he with h | h | h
    · omega
    · omega
    · have := h.1
      omega)
  rw [Nat.zero_add] at hrest
  obtain ⟨inner, right, kept, back, rfl, rfl, hinner, hright⟩ := hrest.exists_append (fun e he => by
    rcases hplaced e (List.mem_append_right _ he) with h | h | h
    · omega
    · omega
    · have := h.2
      omega)
  have hspan : t = ⟨byteLength before, byteLength (before ++ code)⟩ := by
    rw [byteLength_append, ← hstop, ← hstart]
  exact ⟨inner, left, right, before, code, after, front, kept, back, by simp, rfl, hspan, by simp,
    hleft, hstart ▸ hinner, hstop ▸ hright⟩

/-! ### Batches -/

section Batches

variable {text : List Char} {edits : List Edit}

lemma areIndependent_of_apart (hapart : edits.Pairwise Edit.StandsApart) :
    AreIndependent text edits := by
  have hboth {a b : Edit} (ha : a ∈ fittingEdits text edits) (hb : b ∈ fittingEdits text edits)
      (hne : a ≠ b) : a.StandsApart b :=
    hapart.forall (mem_fittingEdits.mp ha).1 (mem_fittingEdits.mp hb).1 hne
  refine ⟨fun a ha b hb hne => ?_, fun a ha b hb hne _ _ heq => ?_⟩
  · exact (hboth ha hb hne).conflictsWith_eq_false (mem_fittingEdits.mp ha).2.1
      (mem_fittingEdits.mp hb).2.1
  · rcases hboth ha hb hne with h | h
    · exact h.2.ne heq
    · exact h.2.ne heq.symm

/-- Edits that stand apart are all applied, one behind the other. -/
lemma appliedEdits_of_apart (hfit : ∀ e ∈ edits, e.InBounds text)
    (hapart : edits.Pairwise Edit.StandsApart) :
    (appliedEdits text edits).Perm edits ∧ (appliedEdits text edits).Pairwise Edit.Before := by
  have hmem (e : Edit) : e ∈ appliedEdits text edits ↔ e ∈ edits :=
    (areIndependent_of_apart hapart).mem_appliedEdits_iff.trans
      (mem_fittingEdits.trans (and_iff_left_of_imp (hfit e)))
  have hnodup := nodup_appliedEdits text edits
  refine ⟨(List.perm_ext_iff_of_nodup hnodup (hapart.imp Edit.StandsApart.ne)).mpr hmem, ?_⟩
  refine ((pairwise_appliedEdits text edits).and hnodup).imp_of_mem fun {a b} ha hb hab => ?_
  rw [hmem] at ha hb
  exact (hapart.forall ha hb hab.2).before hab.1 (hfit a ha).1

/-- Edits that stand one behind the other are spliced so in whatever order they are
listed. -/
lemma applyEdits_text_of_before {text : String} {ordered : List Edit}
    (hperm : edits.Perm ordered) (hfit : ∀ e ∈ ordered, e.InBounds text.toList)
    (hbefore : ordered.Pairwise Edit.Before) :
    (applyEdits text edits).text = String.ofList (splice 0 text.toList ordered) := by
  have hindependent : AreIndependent text.toList edits :=
    (areIndependent_of_apart (hbefore.imp .inl)).of_subset hperm.subset
  have happlied : appliedEdits text.toList edits = ordered :=
    hindependent.appliedEdits_eq
      (fun e => by rw [mem_fittingEdits, hperm.mem_iff, and_iff_left_of_imp (hfit e)])
      (hbefore.imp Edit.Before.ne) (hbefore.imp And.left)
  rw [← String.toList_inj, applyEdits_text, happlied, String.toList_ofList]

end Batches

/-- **Edits that fit a text and stand apart are all applied.**  None of them is
skipped, and the text around them, taken one behind the other, is kept. -/
theorem applyEdits_of_apart {text : String} {edits : List Edit}
    (hfit : ∀ e ∈ edits, e.InBounds text.toList) (hapart : edits.Pairwise Edit.StandsApart) :
    (applyEdits text edits).skipped = [] ∧ ∃ ordered : List Edit, ordered.Perm edits ∧
      ordered.Pairwise Edit.Before ∧
      Patched 0 text.toList ordered (applyEdits text edits).text.toList := by
  constructor
  · exact (areIndependent_of_apart hapart).skipped_eq_nil hfit
  · obtain ⟨hperm, hbefore⟩ := appliedEdits_of_apart hfit hapart
    refine ⟨appliedEdits text.toList edits, hperm, hbefore, ?_⟩
    rw [applyEdits_text]
    exact (laid_appliedEdits text.toList edits).patched

end GraphMigrate
