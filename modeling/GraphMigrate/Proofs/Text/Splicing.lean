/-
What splicing makes of a text.

Edits that lie apart from each other cut a text into pieces that are kept
and pieces that go.  Everything about splicing is read off this layout.

* `Laid`, `laid_appliedEdits`: the layout, and that the edits which a
  batch applies have one;
* `spliceFromLast?`: the edits spliced one at a time, the last one first;
* `shift`: by how many bytes the edits before an offset move what stands
  there;
* `applyEdits_splices_in_order`: **splicing in one pass and one at a time
  agree**, and every byte outside of the applied edits is found at its
  shifted offset, in the old order.
-/
import GraphMigrate.Proofs.Text.Selection

namespace GraphMigrate

/-! ### The layout of edits -/

/-- Edits laid out over the text that begins at a cursor: before each edit
some text is kept, and its span covers the text that goes. -/
inductive Laid : ℕ → List Char → List Edit → Prop
  | nil (cursor : ℕ) (text : List Char) : Laid cursor text []
  | cons {cursor : ℕ} {kept gone after : List Char} {edit : Edit} {edits : List Edit} :
      edit.span.start = cursor + byteLength kept →
      edit.span.stop = edit.span.start + byteLength gone →
      Laid edit.span.stop after edits →
      Laid cursor (kept ++ gone ++ after) (edit :: edits)

/-- Edits that fit a text and lie apart, none of them before the cursor,
are laid out over the text behind it. -/
lemma laid_of_pairwise (before : List Char) {rest : List Char} {edits : List Edit}
    (hapart : edits.Pairwise Edit.EndsBefore)
    (hfit : ∀ e ∈ edits, e.InBounds (before ++ rest))
    (hcursor : ∀ e ∈ edits, byteLength before ≤ e.span.start) :
    Laid (byteLength before) rest edits := by
  induction edits generalizing before rest with
  | nil => exact Laid.nil _ _
  | cons e es ih =>
      obtain ⟨hfirst, hlater⟩ := List.pairwise_cons.mp hapart
      obtain ⟨gone, hgone⟩ := Option.isSome_iff_exists.mp
        (slice?_isSome_iff.mpr (hfit e List.mem_cons_self))
      obtain ⟨upTo, after, htext, hstart, hstop⟩ := slice?_eq_some_iff.mp hgone
      rw [List.append_assoc] at htext
      obtain ⟨kept, rfl, rfl⟩ := exists_append_of_le htext
        (hstart ▸ hcursor e List.mem_cons_self)
      rw [byteLength_append] at hstart hstop
      have hpassed : e.span.stop = byteLength (before ++ kept ++ gone) := by
        simp only [byteLength_append]
        omega
      rw [← List.append_assoc]
      refine Laid.cons hstart (by omega) ?_
      rw [hpassed]
      refine ih (before ++ kept ++ gone) hlater (fun f hf => ?_) (fun f hf => ?_)
      · simpa using hfit f (List.mem_cons_of_mem e hf)
      · rw [← hpassed]
        exact hfirst f hf

/-- The edits that a batch applies are laid out over the text. -/
lemma laid_appliedEdits (text : List Char) (edits : List Edit) :
    Laid 0 text (appliedEdits text edits) :=
  laid_of_pairwise [] (pairwise_appliedEdits text edits)
    (fun _ he => inBounds_of_mem_appliedEdits he) (fun _ _ => Nat.zero_le _)

/-- Splicing keeps the text before an edit, puts the new text in the place
of what goes, and goes on behind. -/
lemma splice_cons {cursor : ℕ} {kept gone after : List Char} {e : Edit} {es : List Edit}
    (hstart : e.span.start = cursor + byteLength kept)
    (hstop : e.span.stop = e.span.start + byteLength gone) :
    splice cursor (kept ++ gone ++ after) (e :: es) =
      kept ++ e.text.toList ++ splice e.span.stop after es := by
  have h1 : e.span.start - cursor = byteLength kept := by omega
  have h2 : e.span.stop - e.span.start = byteLength gone := by omega
  rw [splice, h1, h2, List.append_assoc, cutAt?_byteLength]
  simp only [cutAt?_byteLength]

/-- Splicing keeps what stands before all edits. -/
lemma splice_append {cursor : ℕ} {kept rest : List Char} {edits : List Edit}
    (h : ∀ e ∈ edits, cursor + byteLength kept ≤ e.span.start) :
    splice cursor (kept ++ rest) edits =
      kept ++ splice (cursor + byteLength kept) rest edits := by
  cases edits with
  | nil => rfl
  | cons e es =>
      have hle := h e List.mem_cons_self
      have hcut : cutAt? (e.span.start - cursor) (kept ++ rest) =
          (cutAt? (e.span.start - (cursor + byteLength kept)) rest).map fun p =>
            (kept ++ p.1, p.2) := by
        rw [← cutAt?_append]
        congr 1
        omega
      rw [splice, splice, hcut]
      cases cutAt? (e.span.start - (cursor + byteLength kept)) rest with
      | none => rfl
      | some p =>
          dsimp only [Option.map_some]
          cases cutAt? (e.span.stop - e.span.start) p.2 with
          | none => rfl
          | some q => simp only [List.append_assoc]

namespace Laid

variable {cursor : ℕ} {text : List Char} {edits : List Edit}

/-- No edit starts before the cursor, and each runs forward. -/
lemma le_start_le_stop (h : Laid cursor text edits) :
    ∀ e ∈ edits, cursor ≤ e.span.start ∧ e.span.start ≤ e.span.stop := by
  induction h with
  | nil => simp
  | @cons cursor kept gone after e es hstart hstop _ ih =>
      intro f hf
      rcases List.mem_cons.mp hf with rfl | hf
      · omega
      · have := ih f hf
        omega

end Laid

/-! ### One edit at a time -/

/-- A text with one edit spliced in, if the edit fits. -/
def Edit.spliceInto? (e : Edit) (text : List Char) : Option (List Char) := do
  let (before, rest) ← cutAt? e.span.start text
  let (_, after) ← cutAt? (e.span.stop - e.span.start) rest
  some (before ++ e.text.toList ++ after)

/-- A text with edits spliced in one at a time, from the last to the
first. -/
def spliceFromLast? (text : List Char) (edits : List Edit) : Option (List Char) :=
  edits.foldrM (fun e rewritten => e.spliceInto? rewritten) text

lemma spliceInto?_append {before gone : List Char} (after : List Char) {e : Edit}
    (hstart : e.span.start = byteLength before)
    (hstop : e.span.stop = e.span.start + byteLength gone) :
    e.spliceInto? (before ++ gone ++ after) = some (before ++ e.text.toList ++ after) := by
  have h : e.span.stop - e.span.start = byteLength gone := by omega
  rw [Edit.spliceInto?, h, hstart, List.append_assoc, cutAt?_byteLength]
  simp [cutAt?_byteLength]

/-- One at a time from the last to the first, the edits do what one pass
does: a splice leaves the text before it, and so the spans of the earlier
edits, as they are. -/
lemma spliceFromLast?_of_laid (before : List Char) {rest : List Char} {edits : List Edit}
    (h : Laid (byteLength before) rest edits) :
    spliceFromLast? (before ++ rest) edits =
      some (before ++ splice (byteLength before) rest edits) := by
  generalize hc : byteLength before = cursor at h
  induction h generalizing before with
  | nil => simp [spliceFromLast?, splice]
  | @cons cursor kept gone after e es hstart hstop htail ih =>
      have hpassed : byteLength (before ++ kept ++ gone) = e.span.stop := by
        simp only [byteLength_append]
        omega
      have hlater := ih (before ++ kept ++ gone) hpassed
      have hbefore : e.span.start = byteLength (before ++ kept) := by
        rw [byteLength_append]
        omega
      have hone := spliceInto?_append (splice e.span.stop after es) hbefore hstop
      rw [spliceFromLast?] at hlater ⊢
      rw [splice_cons hstart hstop, List.foldrM_cons]
      simp only [← List.append_assoc] at hlater ⊢
      rw [hlater, Option.bind_eq_bind, Option.bind_some, hone]

/-! ### Where the bytes outside of the edits go -/

/-- By how many bytes the edits that stop at or before an offset move what
stands there. -/
def shift (edits : List Edit) (offset : ℕ) : ℤ :=
  (edits.map fun e =>
    if e.span.stop ≤ offset then
      (byteLength e.text.toList : ℤ) - (e.span.stop - e.span.start)
    else 0).sum

/-- The byte at an offset is covered by no edit. -/
def Uncovered (edits : List Edit) (offset : ℕ) : Prop :=
  ∀ e ∈ edits, ¬ (e.span.start ≤ offset ∧ offset < e.span.stop)

@[simp] lemma shift_nil (offset : ℕ) : shift [] offset = 0 := rfl

lemma shift_cons_of_le {e : Edit} {es : List Edit} {offset : ℕ} (h : e.span.stop ≤ offset) :
    shift (e :: es) offset =
      byteLength e.text.toList - (e.span.stop - e.span.start) + shift es offset := by
  simp [shift, h]

/-- Edits behind an offset do not move it. -/
lemma shift_eq_zero {edits : List Edit} {offset : ℕ} (h : ∀ e ∈ edits, offset < e.span.stop) :
    shift edits offset = 0 := by
  rw [shift]
  apply List.sum_eq_zero
  intro x hx
  obtain ⟨e, he, rfl⟩ := List.mem_map.mp hx
  have := h e he
  rw [if_neg (by omega)]

namespace Laid

variable {cursor : ℕ} {text : List Char} {edits : List Edit}

/-- Before its first edit a layout moves nothing. -/
lemma shift_eq_zero_of_lt {kept gone after : List Char} {e : Edit} {es : List Edit}
    (hstart : e.span.start = cursor + byteLength kept)
    (hstop : e.span.stop = e.span.start + byteLength gone)
    (htail : Laid e.span.stop after es) {i : ℕ} (hi : i < e.span.start) :
    shift (e :: es) i = 0 := by
  refine shift_eq_zero fun f hf => ?_
  have := (Laid.cons hstart hstop htail).le_start_le_stop f hf
  rcases List.mem_cons.mp hf with rfl | hf
  · omega
  · have := htail.le_start_le_stop f hf
    omega

/-- A byte outside of the edits is found at its shifted offset. -/
lemma getElem?_splice (h : Laid cursor text edits) {i : ℕ} {b : UInt8} (hcursor : cursor ≤ i)
    (hi : Uncovered edits i) (hb : (utf8 text)[i - cursor]? = some b) :
    ∃ k : ℕ, (k : ℤ) = (i - cursor : ℕ) + shift edits i ∧
      (utf8 (splice cursor text edits))[k]? = some b := by
  induction h with
  | nil => exact ⟨_, by simp, hb⟩
  | @cons cursor kept gone after e es hstart hstop htail ih =>
      rw [splice_cons hstart hstop]
      rcases Nat.lt_or_ge i e.span.start with hlt | hge
      · -- the byte stands before the first edit, in the text that is kept
        refine ⟨i - cursor, by rw [shift_eq_zero_of_lt hstart hstop htail hlt]; simp, ?_⟩
        have hkept : i - cursor < (utf8 kept).length := by rw [length_utf8]; omega
        simp only [utf8_append, List.append_assoc] at hb ⊢
        rwa [List.getElem?_append_left hkept] at hb ⊢
      · have hstop' : e.span.stop ≤ i := by
          have := hi e List.mem_cons_self
          omega
        have hbehind : (utf8 after)[i - e.span.stop]? = some b := by
          rw [utf8_append, List.getElem?_append_right, utf8_append, List.length_append,
            length_utf8, length_utf8] at hb
          · rwa [show i - cursor - (byteLength kept + byteLength gone) = i - e.span.stop by
              omega] at hb
          · rw [length_utf8, byteLength_append]
            omega
        obtain ⟨k, hk, hkb⟩ := ih hstop' (fun f hf => hi f (List.mem_cons_of_mem e hf)) hbehind
        refine ⟨byteLength kept + byteLength e.text.toList + k, ?_, ?_⟩
        · rw [shift_cons_of_le hstop']
          omega
        · rw [utf8_append, List.getElem?_append_right, utf8_append, List.length_append,
            length_utf8, length_utf8, Nat.add_sub_cancel_left]
          · exact hkb
          · rw [length_utf8, byteLength_append]
            omega

/-- No shift moves a byte in front of the cursor. -/
lemma le_add_shift (h : Laid cursor text edits) {i : ℕ} (hcursor : cursor ≤ i)
    (hi : Uncovered edits i) : (cursor : ℤ) ≤ i + shift edits i := by
  induction h with
  | nil => simpa using hcursor
  | @cons cursor kept gone after e es hstart hstop htail ih =>
      rcases Nat.lt_or_ge i e.span.start with hlt | hge
      · rw [shift_eq_zero_of_lt hstart hstop htail hlt]
        omega
      · have hstop' : e.span.stop ≤ i := by
          have := hi e List.mem_cons_self
          omega
        have := ih hstop' fun f hf => hi f (List.mem_cons_of_mem e hf)
        rw [shift_cons_of_le hstop']
        omega

/-- Shifts keep the order of the bytes outside of the edits. -/
lemma add_shift_lt (h : Laid cursor text edits) {i j : ℕ} (hij : i < j)
    (hi : Uncovered edits i) (hj : Uncovered edits j) :
    (i : ℤ) + shift edits i < j + shift edits j := by
  induction h with
  | nil => simpa using hij
  | @cons cursor kept gone after e es hstart hstop htail ih =>
      have hi' : Uncovered es i := fun f hf => hi f (List.mem_cons_of_mem e hf)
      have hj' : Uncovered es j := fun f hf => hj f (List.mem_cons_of_mem e hf)
      have hic := hi e List.mem_cons_self
      have hjc := hj e List.mem_cons_self
      rcases Nat.lt_or_ge i e.span.start with hilt | hige
      · rw [shift_eq_zero_of_lt hstart hstop htail hilt]
        rcases Nat.lt_or_ge j e.span.start with hjlt | hjge
        · rw [shift_eq_zero_of_lt hstart hstop htail hjlt]
          omega
        · have := htail.le_add_shift (i := j) (by omega) hj'
          rw [shift_cons_of_le (by omega)]
          omega
      · have := ih hi' hj'
        rw [shift_cons_of_le (by omega), shift_cons_of_le (by omega)]
        omega

end Laid

/-- **Applying a batch is splicing its accepted edits one at a time.**
There is exactly one list of the accepted edits by start, stop and place;
splicing it into the text from the last edit to the first never fails and
gives the text that the batch gives.  A byte of the text that no accepted
edit covers is found in the result, at its offset plus the change of length
of the edits that stop at or before it, and these bytes keep their order. -/
theorem applyEdits_splices_in_order (text : String) (edits : List Edit) :
    ∃ order : List (Edit × ℕ), IsSplicingOrder text.toList edits order ∧
      (∀ other, IsSplicingOrder text.toList edits other → other = order) ∧
      spliceFromLast? text.toList (order.map Prod.fst) =
        some (applyEdits text edits).text.toList ∧
      (∀ i b, (utf8 text.toList)[i]? = some b → Uncovered (order.map Prod.fst) i →
        ∃ k : ℕ, (k : ℤ) = i + shift (order.map Prod.fst) i ∧
          (utf8 (applyEdits text edits).text.toList)[k]? = some b) ∧
      (∀ i j, i < j → Uncovered (order.map Prod.fst) i → Uncovered (order.map Prod.fst) j →
        (i : ℤ) + shift (order.map Prod.fst) i < j + shift (order.map Prod.fst) j) := by
  have hlaid := laid_appliedEdits text.toList edits
  have horder := isSplicingOrder_spliceOrder text.toList edits
  refine ⟨spliceOrder text.toList edits, horder, fun other => horder.unique, ?_⟩
  rw [map_spliceOrder, applyEdits_text]
  refine ⟨spliceFromLast?_of_laid [] hlaid, ?_, ?_⟩
  · intro i b hb hi
    exact hlaid.getElem?_splice (Nat.zero_le i) hi hb
  · exact fun i j => hlaid.add_shift_lt

end GraphMigrate
