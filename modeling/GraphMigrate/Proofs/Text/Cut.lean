/-
Cuts of a text at byte offsets.

A cut is found exactly where the two halves of a text meet, so offsets
can be read as splittings of the text and byte arithmetic as appending.

* `IsBoundary`: the offsets at which a text can be cut;
* `cutAt?_eq_some_iff`, `slice?_eq_some_iff`: what a cut and a slice
  answer, as splittings of the text;
* `exists_append_of_le`: of two cuts of one text the first half of the
  shorter begins the first half of the longer;
* `slice?_isSome_iff`: the spans that cover whole characters;
* `utf8`: the bytes of a text, as many as `byteLength` counts.
-/
import GraphMigrate.Text.Span
import Mathlib.Tactic

namespace GraphMigrate

/-- The offsets at which a text can be cut: behind a number of whole
characters of it. -/
def IsBoundary (text : List Char) (offset : ℕ) : Prop :=
  ∃ before after, text = before ++ after ∧ byteLength before = offset

lemma IsBoundary.le_byteLength {text : List Char} {offset : ℕ} (h : IsBoundary text offset) :
    offset ≤ byteLength text := by
  obtain ⟨before, after, rfl, rfl⟩ := h
  rw [byteLength_append]
  omega

@[simp] lemma byteLength_nil : byteLength [] = 0 := rfl

lemma byteLength_eq_zero {cs : List Char} : byteLength cs = 0 ↔ cs = [] := by
  cases cs with
  | nil => simp
  | cons c cs =>
      have := utf8Size_pos c
      simp only [byteLength, reduceCtorEq, iff_false]
      omega

/-! ### Cuts as splittings -/

/-- A cut is found exactly where the two halves of the text meet. -/
lemma cutAt?_eq_some_iff {n : ℕ} {cs before after : List Char} :
    cutAt? n cs = some (before, after) ↔ before ++ after = cs ∧ byteLength before = n := by
  constructor
  · exact fun h => ⟨append_of_cutAt? h, byteLength_of_cutAt? h⟩
  · rintro ⟨rfl, rfl⟩
    exact cutAt?_byteLength before after

/-- Two cuts of one text at the same offset have the same halves. -/
lemma append_inj_of_byteLength {a b c d : List Char} (h : a ++ b = c ++ d)
    (hlen : byteLength a = byteLength c) : a = c ∧ b = d := by
  have hcut := cutAt?_byteLength a b
  rw [h, hlen, cutAt?_byteLength] at hcut
  simp only [Option.some.injEq, Prod.mk.injEq] at hcut
  exact ⟨hcut.1.symm, hcut.2.symm⟩

/-- Of two cuts of one text, the shorter first half begins the longer. -/
lemma exists_append_of_le {a b c d : List Char} (h : a ++ b = c ++ d)
    (hle : byteLength a ≤ byteLength c) : ∃ m, c = a ++ m ∧ b = m ++ d := by
  rcases List.append_eq_append_iff.mp h with ⟨m, hc, hb⟩ | ⟨m, ha, hd⟩
  · exact ⟨m, hc, hb⟩
  · -- the longer half is no longer than the shorter, so they agree
    have hm : byteLength m = 0 := by
      rw [ha, byteLength_append] at hle
      omega
    rw [byteLength_eq_zero] at hm
    subst hm
    exact ⟨[], by simpa using ha.symm, by simpa using hd.symm⟩

/-- A text is cut behind a first part as the rest is cut. -/
lemma cutAt?_append (a b : List Char) (n : ℕ) :
    cutAt? (byteLength a + n) (a ++ b) = (cutAt? n b).map fun p => (a ++ p.1, p.2) := by
  ext ⟨before, after⟩
  simp only [Option.map_eq_some_iff, Prod.exists, Prod.mk.injEq, cutAt?_eq_some_iff]
  constructor
  · rintro ⟨h, hlen⟩
    obtain ⟨m, rfl, rfl⟩ := exists_append_of_le h.symm (by omega)
    rw [byteLength_append] at hlen
    exact ⟨m, after, ⟨rfl, by omega⟩, rfl, rfl⟩
  · rintro ⟨m, after, ⟨rfl, rfl⟩, rfl, rfl⟩
    exact ⟨List.append_assoc _ _ _, byteLength_append _ _⟩

/-! ### Slices as splittings -/

/-- A slice is found exactly where the text splits in three at the ends
of the span. -/
lemma slice?_eq_some_iff {s : Span} {cs inside : List Char} :
    s.slice? cs = some inside ↔ ∃ before after, cs = before ++ inside ++ after ∧
      s.start = byteLength before ∧ s.stop = byteLength before + byteLength inside := by
  constructor
  · intro h
    rw [Span.slice?] at h
    split at h
    · rename_i hle
      simp only [Option.bind_eq_bind, Option.bind_eq_some_iff, Option.some.injEq] at h
      obtain ⟨⟨before, rest⟩, hbefore, ⟨⟨inside', after⟩, hinside, rfl⟩⟩ := h
      obtain ⟨rfl, hstart⟩ := cutAt?_eq_some_iff.mp hbefore
      obtain ⟨hrest, hstop⟩ := cutAt?_eq_some_iff.mp hinside
      dsimp only at hrest hstop ⊢
      exact ⟨before, after, by rw [← hrest, List.append_assoc], hstart.symm, by omega⟩
    · cases h
  · rintro ⟨before, after, rfl, hstart, hstop⟩
    have hlen : s.stop - s.start = byteLength inside := by omega
    rw [Span.slice?, if_pos (by omega), hlen, hstart, List.append_assoc, cutAt?_byteLength]
    simp [cutAt?_byteLength]

/-- A span covers whole characters when its ends are boundaries in
order. -/
lemma slice?_isSome_iff {s : Span} {cs : List Char} :
    (s.slice? cs).isSome ↔ s.start ≤ s.stop ∧ IsBoundary cs s.start ∧ IsBoundary cs s.stop := by
  rw [Option.isSome_iff_exists]
  constructor
  · rintro ⟨inside, h⟩
    obtain ⟨before, after, rfl, hstart, hstop⟩ := slice?_eq_some_iff.mp h
    refine ⟨by omega, ?_, ?_⟩
    · exact ⟨before, inside ++ after, by simp, hstart.symm⟩
    · exact ⟨before ++ inside, after, rfl, by rw [byteLength_append, hstop]⟩
  · rintro ⟨hle, ⟨a, b, rfl, ha⟩, ⟨c, d, hcd, hc⟩⟩
    obtain ⟨m, rfl, rfl⟩ := exists_append_of_le hcd (by omega)
    rw [byteLength_append] at hc
    exact ⟨m, slice?_eq_some_iff.mpr ⟨a, d, by simp, ha.symm, by omega⟩⟩

/-! ### Bytes -/

/-- The bytes of a text in UTF-8. -/
def utf8 (cs : List Char) : List UInt8 := cs.flatMap String.utf8EncodeChar

@[simp] lemma utf8_append (xs ys : List Char) : utf8 (xs ++ ys) = utf8 xs ++ utf8 ys := by
  simp [utf8]

@[simp] lemma length_utf8 (cs : List Char) : (utf8 cs).length = byteLength cs := by
  induction cs with
  | nil => rfl
  | cons c cs ih =>
      rw [utf8] at ih
      simp [utf8, byteLength, ih]

/-- The bytes of a text are those that core stores for it. -/
lemma toByteArray_utf8 (cs : List Char) :
    (utf8 cs).toByteArray = (String.ofList cs).toByteArray := by
  rw [String.toByteArray_ofList, List.utf8Encode, utf8]

end GraphMigrate
