/-
The order of texts and the order of their bytes.

Texts are compared character by character.  Their written form in UTF-8 is
compared byte by byte, and this is the same order: of two characters, the
greater one has the greater first byte, or the greater one behind equal
bytes.

* `textBytes`: the bytes of a text;
* `utf8EncodeChar_append_lt`: the bytes of a lesser character are less, with
  anything behind them;
* `textBytes_lt_iff`: **the order of bytes is the order of texts**.
-/
import Mathlib.Data.String.Basic
import Mathlib.Tactic

namespace GraphMigrate

open String (utf8EncodeChar)

/-- The bytes of a text. -/
def textBytes (text : String) : List UInt8 := text.toUTF8.data.toList

lemma textBytes_eq (text : String) : textBytes text = text.toList.flatMap utf8EncodeChar := by
  rw [textBytes, String.toUTF8, ← String.utf8Encode_toList, List.utf8Encode,
    List.data_toByteArray]

/-! ### Bytes of characters -/

lemma uint8_ofNat_lt_iff {m n : ℕ} (hm : m < 256) (hn : n < 256) :
    UInt8.ofNat m < UInt8.ofNat n ↔ m < n := by
  rw [UInt8.lt_iff_toNat_lt, UInt8.toNat_ofNat_of_lt' hm, UInt8.toNat_ofNat_of_lt' hn]

lemma uint8_ofNat_inj {m n : ℕ} (hm : m < 256) (hn : n < 256) :
    UInt8.ofNat m = UInt8.ofNat n ↔ m = n := by
  rw [← UInt8.toNat_inj, UInt8.toNat_ofNat_of_lt' hm, UInt8.toNat_ofNat_of_lt' hn]

lemma toNat_val_lt (c : Char) : c.val.toNat < 0x110000 := by
  rcases c.valid with h | h
  · exact lt_trans h (by decide)
  · exact h.2

/-- The bytes of a lesser character are less, whatever stands behind them. -/
lemma utf8EncodeChar_append_lt {a b : Char} (h : a < b) (r s : List UInt8) :
    utf8EncodeChar a ++ r < utf8EncodeChar b ++ s := by
  have hlt : a.val.toNat < b.val.toNat := h
  have hb := toNat_val_lt b
  rw [utf8EncodeChar, utf8EncodeChar]
  generalize a.val.toNat = m at *
  generalize b.val.toNat = n at *
  -- the lead byte tells the length, and then the digits to base 64 decide
  have hdigit (k : ℕ) : k / 4096 = k / 64 / 64 := by omega
  have hlead (k : ℕ) : k / 262144 = k / 64 / 64 / 64 := by omega
  rw [hdigit, hdigit, hlead, hlead]
  split_ifs <;> simp only [List.cons_append, List.nil_append, List.cons_lt_cons_iff] <;>
    simp (disch := omega) only [uint8_ofNat_lt_iff, uint8_ofNat_inj] <;> omega

lemma utf8EncodeChar_ne_nil (c : Char) : utf8EncodeChar c ≠ [] := by
  rw [utf8EncodeChar]
  split_ifs <;> exact List.cons_ne_nil _ _

/-! ### Bytes of texts -/

lemma flatMap_utf8EncodeChar_lt {cs ds : List Char} (h : cs < ds) :
    cs.flatMap utf8EncodeChar < ds.flatMap utf8EncodeChar := by
  induction h with
  | nil =>
      rw [List.flatMap_cons, List.flatMap_nil]
      obtain ⟨byte, bytes, hbytes⟩ := List.exists_cons_of_ne_nil (utf8EncodeChar_ne_nil _)
      rw [hbytes]
      exact List.nil_lt_cons _ _
  | rel hlt =>
      rw [List.flatMap_cons, List.flatMap_cons]
      exact utf8EncodeChar_append_lt hlt _ _
  | cons _ ih =>
      rw [List.flatMap_cons, List.flatMap_cons]
      exact List.append_left_lt ih

/-- The bytes of a text are less than those of another one exactly if the text
itself is. -/
theorem textBytes_lt_iff {a b : String} : textBytes a < textBytes b ↔ a < b := by
  have hmono {a b : String} (h : a < b) : textBytes a < textBytes b := by
    rw [textBytes_eq, textBytes_eq]
    exact flatMap_utf8EncodeChar_lt (String.lt_iff_toList_lt.mp h)
  refine ⟨fun h => ?_, hmono⟩
  rcases lt_trichotomy a b with hlt | rfl | hgt
  · exact hlt
  · exact absurd h (List.lt_irrefl _)
  · exact absurd h (List.lt_asymm (hmono hgt))

end GraphMigrate
