/-
Writing out the text after a batch of edits, slice by slice.

The result of a batch is written from left to right.  A cursor stands at
the end of what was read, and each edit copies the slice of the text from
the cursor to its start, writes its own text and moves the cursor to its
stop.  A slice between offsets that are reversed, outside of the text or
inside a character does not exist.

* `Emission`, `Emission.emit?`, `Emission.finish?`: the writing, which
  stops for good at a slice that does not exist;
* `Emission.Follows`: the invariant, that what is left of the text is laid
  out for the edits that are left;
* `emitBytes`: the same writing on bytes, where any slice exists;
* `applyEdits_emits_existing_slices`: **no slice is ever missing**, the
  cursor never passes the next edit, and the bytes written are a text.
-/
import GraphMigrate.Proofs.Text.Splicing

namespace GraphMigrate

/-- How far the text was read, and what was written. -/
structure Emission where
  cursor : ℕ
  written : List Char

namespace Emission

/-- Nothing read and nothing written. -/
def start : Emission := ⟨0, []⟩

/-- Copies the text up to an edit, writes the text of the edit and moves
behind it. -/
def emit? (text : List Char) (o : Emission) (e : Edit) : Option Emission :=
  (Span.slice? ⟨o.cursor, e.span.start⟩ text).map fun kept =>
    ⟨e.span.stop, o.written ++ kept ++ e.text.toList⟩

/-- Copies the rest of the text. -/
def finish? (text : List Char) (o : Emission) : Option (List Char) :=
  (Span.slice? ⟨o.cursor, byteLength text⟩ text).map (o.written ++ ·)

/-- What was read is a first part of the text, the edits that are left are
laid out over the rest, and together with what was written they make up
the result. -/
def Follows (text : List Char) (result : List Char) (o : Emission) (todo : List Edit) : Prop :=
  ∃ passed rest, text = passed ++ rest ∧ o.cursor = byteLength passed ∧
    Laid o.cursor rest todo ∧ result = o.written ++ splice o.cursor rest todo

variable {text result : List Char} {o : Emission} {todo : List Edit}

lemma follows_start (text : List Char) (edits : List Edit) :
    Follows text (splice 0 text (appliedEdits text edits)) start (appliedEdits text edits) :=
  ⟨[], text, rfl, rfl, laid_appliedEdits text edits, rfl⟩

lemma Follows.isBoundary (h : Follows text result o todo) : IsBoundary text o.cursor := by
  obtain ⟨passed, rest, rfl, hcursor, -⟩ := h
  exact ⟨passed, rest, rfl, hcursor.symm⟩

lemma Follows.cursor_le {e : Edit} (h : Follows text result o (e :: todo)) :
    o.cursor ≤ e.span.start ∧ e.span.start ≤ e.span.stop := by
  obtain ⟨passed, rest, -, -, hlaid, -⟩ := h
  exact hlaid.le_start_le_stop e List.mem_cons_self

/-- One step: the slice up to the next edit exists. -/
lemma Follows.emit? {e : Edit} (h : Follows text result o (e :: todo)) :
    ∃ o', o.emit? text e = some o' ∧ Follows text result o' todo := by
  obtain ⟨passed, rest, rfl, hcursor, hlaid, hresult⟩ := h
  cases hlaid with
  | @cons _ kept gone after _ _ hstart hstop htail =>
      have hslice : Span.slice? ⟨o.cursor, e.span.start⟩ (passed ++ (kept ++ gone ++ after)) =
          some kept :=
        slice?_eq_some_iff.mpr ⟨passed, gone ++ after, by simp, hcursor, by
          rw [← hcursor]
          exact hstart⟩
      refine ⟨⟨e.span.stop, o.written ++ kept ++ e.text.toList⟩, ?_, ?_⟩
      · rw [Emission.emit?, hslice, Option.map_some]
      · refine ⟨passed ++ kept ++ gone, after, by simp, ?_, htail, ?_⟩
        · simp only [byteLength_append]
          omega
        · rw [hresult, splice_cons hstart hstop]
          simp

/-- The end: the rest of the text exists as a slice. -/
lemma Follows.finish? (h : Follows text result o []) : o.finish? text = some result := by
  obtain ⟨passed, rest, rfl, hcursor, -, rfl⟩ := h
  have hslice : Span.slice? ⟨o.cursor, byteLength (passed ++ rest)⟩ (passed ++ rest) =
      some rest :=
    slice?_eq_some_iff.mpr ⟨passed, [], by simp, hcursor, by rw [byteLength_append]⟩
  rw [Emission.finish?, hslice, Option.map_some, splice]

/-- A run: all slices up to the edits that are left exist. -/
lemma Follows.foldlM {done : List Edit} (h : Follows text result o (done ++ todo)) :
    ∃ o', done.foldlM (Emission.emit? text) o = some o' ∧ Follows text result o' todo := by
  induction done generalizing o with
  | nil => exact ⟨o, rfl, h⟩
  | cons e es ih =>
      obtain ⟨o₁, hemit, h₁⟩ := Follows.emit? h
      obtain ⟨o₂, hrun, h₂⟩ := ih h₁
      exact ⟨o₂, by rw [List.foldlM_cons, hemit]; exact hrun, h₂⟩

end Emission

/-! ### Writing bytes -/

/-- What the writing does to the bytes of a text: any two offsets give a
slice of bytes, whether a character is cut or not. -/
def emitBytes (bytes : List UInt8) (cursor : ℕ) : List Edit → List UInt8
  | [] => bytes.drop cursor
  | e :: es =>
    (bytes.drop cursor).take (e.span.start - cursor) ++ utf8 e.text.toList
      ++ emitBytes bytes e.span.stop es

/-- Over laid out edits the bytes written are those of the spliced text. -/
lemma emitBytes_of_laid (passed : List Char) {rest : List Char} {edits : List Edit}
    (h : Laid (byteLength passed) rest edits) :
    emitBytes (utf8 (passed ++ rest)) (byteLength passed) edits =
      utf8 (splice (byteLength passed) rest edits) := by
  generalize hc : byteLength passed = cursor at h
  induction h generalizing passed with
  | nil =>
      rw [emitBytes, splice, utf8_append, ← hc, ← length_utf8, List.drop_left]
  | @cons cursor kept gone after e es hstart hstop htail ih =>
      have hpassed : byteLength (passed ++ kept ++ gone) = e.span.stop := by
        simp only [byteLength_append]
        omega
      have hlater := ih (passed ++ kept ++ gone) hpassed
      have hkept : e.span.start - cursor = (utf8 kept).length := by
        rw [length_utf8]
        omega
      rw [show passed ++ (kept ++ gone ++ after) = passed ++ kept ++ gone ++ after by simp,
        emitBytes, hlater, splice_cons hstart hstop, hkept, ← hc, ← length_utf8]
      simp

/-- **No slice of a batch is missing.**  Whatever the edits, at every step
of the writing the cursor and the next applied edit stand in order at
boundaries inside the text, the slice between them exists, and so does the
rest of the text at the end.  The writing gives the text after the batch,
and on bytes it gives the bytes of that text, which are valid UTF-8. -/
theorem applyEdits_emits_existing_slices (text : String) (edits : List Edit) :
    (∀ done todo, done ++ todo = appliedEdits text.toList edits →
      ∃ o, done.foldlM (Emission.emit? text.toList) Emission.start = some o ∧
        o.cursor ≤ byteLength text.toList ∧ IsBoundary text.toList o.cursor ∧
        (∀ e ∈ todo.head?, o.cursor ≤ e.span.start ∧ e.span.start ≤ byteLength text.toList ∧
          IsBoundary text.toList e.span.start ∧ (o.emit? text.toList e).isSome) ∧
        (todo = [] → o.finish? text.toList = some (applyEdits text edits).text.toList)) ∧
      (emitBytes (utf8 text.toList) 0 (appliedEdits text.toList edits)).toByteArray =
        (applyEdits text edits).text.toByteArray ∧
      (emitBytes (utf8 text.toList) 0
        (appliedEdits text.toList edits)).toByteArray.IsValidUTF8 := by
  have hbytes : (emitBytes (utf8 text.toList) 0 (appliedEdits text.toList edits)).toByteArray =
      (applyEdits text edits).text.toByteArray := by
    have h := emitBytes_of_laid [] (laid_appliedEdits text.toList edits)
    rw [byteLength_nil, List.nil_append, ← applyEdits_text] at h
    rw [h, toByteArray_utf8, String.ofList_toList]
  refine ⟨?_, hbytes, hbytes ▸ (applyEdits text edits).text.isValidUTF8⟩
  intro done todo happ
  have hstart := Emission.follows_start text.toList edits
  rw [← applyEdits_text] at hstart
  obtain ⟨o, hrun, ho⟩ := Emission.Follows.foldlM (happ ▸ hstart)
  refine ⟨o, hrun, ho.isBoundary.le_byteLength, ho.isBoundary, ?_, ?_⟩
  · intro e he
    obtain ⟨later, rfl⟩ : ∃ later, todo = e :: later := by
      cases todo with
      | nil => simp at he
      | cons f fs => exact ⟨fs, by simpa using he⟩
    have hin : e.InBounds text.toList :=
      inBounds_of_mem_appliedEdits (happ ▸ List.mem_append_right done List.mem_cons_self)
    obtain ⟨o', hemit, -⟩ := Emission.Follows.emit? ho
    exact ⟨ho.cursor_le.1, hin.2.1.le_byteLength, hin.2.1, by simp [hemit]⟩
  · rintro rfl
    exact Emission.Follows.finish? ho

end GraphMigrate
