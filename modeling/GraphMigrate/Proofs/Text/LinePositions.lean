/-
Lines and columns of offsets.

A line feed is a byte of its own in the written form of a text, so the table
of line starts can be read off its bytes: a line starts at the beginning and
right behind each line feed.  The starts increase, and an offset stands in the
last line that does not start behind it.  Both the number of that line and the
column are therefore exact, and offsets are ordered like their positions.

* `feedEnds`, `starts_ofText`: the offsets behind the line feeds among bytes,
  which are the line starts of a text;
* `IsLineStart`: the start of the line in which an offset stands;
* `IsSought`: the lines that a search for an offset in a table leads to;
* `CutAt`, `exists_cutAt_seek`: the table cut at the line of an offset, where
  the walk through it stops;
* `positions_are_exact`: **line and column count the line feeds before an
  offset and the bytes behind the last of them, and keep the order of
  offsets**.
-/
import GraphMigrate.Proofs.Text.ByteOrder
import GraphMigrate.Text.Position

namespace GraphMigrate

open String (utf8EncodeChar)

/-! ### Line feeds among bytes -/

/-- The byte that ends a line. -/
def lineFeed : UInt8 := 10

lemma utf8EncodeChar_newline : utf8EncodeChar '\n' = [lineFeed] := rfl

/-- No other character is written with a line feed. -/
lemma lineFeed_notMem_utf8EncodeChar {c : Char} (hc : c ≠ '\n') :
    lineFeed ∉ utf8EncodeChar c := by
  have hval : c.val.toNat ≠ 10 := fun h => hc (Char.ext (UInt32.toNat_inj.mp h))
  have hbound := toNat_val_lt c
  have hfeed : lineFeed = UInt8.ofNat 10 := rfl
  rw [utf8EncodeChar, hfeed]
  generalize c.val.toNat = n at *
  split_ifs <;> simp only [List.mem_cons, List.not_mem_nil, or_false] <;>
    simp (disch := omega) only [uint8_ofNat_inj] <;> omega

/-- The offsets right behind the line feeds among bytes that start at an
offset. -/
def feedEnds (offset : ℕ) (bytes : List UInt8) : List ℕ :=
  ((bytes.zipIdx offset).filter (·.1 = lineFeed)).map (·.2 + 1)

lemma feedEnds_cons (offset : ℕ) (byte : UInt8) (bytes : List UInt8) :
    feedEnds offset (byte :: bytes) =
      if byte = lineFeed then (offset + 1) :: feedEnds (offset + 1) bytes
      else feedEnds (offset + 1) bytes := by
  rw [feedEnds, List.zipIdx_cons, List.filter_cons]
  split_ifs <;> simp_all [feedEnds]

lemma feedEnds_append (offset : ℕ) (xs ys : List UInt8) :
    feedEnds offset (xs ++ ys) = feedEnds offset xs ++ feedEnds (offset + xs.length) ys := by
  rw [feedEnds, List.zipIdx_append, List.filter_append, List.map_append]
  rfl

lemma feedEnds_of_notMem {offset : ℕ} {bytes : List UInt8} (h : lineFeed ∉ bytes) :
    feedEnds offset bytes = [] := by
  rw [feedEnds, List.map_eq_nil_iff, List.filter_eq_nil_iff]
  rintro ⟨byte, i⟩ hmem hfeed
  exact h (of_decide_eq_true hfeed ▸ List.fst_mem_of_mem_zipIdx hmem)

lemma mem_feedEnds_iff {bytes : List UInt8} {start : ℕ} :
    start ∈ feedEnds 0 bytes ↔ ∃ i, bytes[i]? = some lineFeed ∧ start = i + 1 := by
  simp only [feedEnds, List.mem_map, List.mem_filter, List.mem_zipIdx_iff_getElem?,
    decide_eq_true_eq, Prod.exists]
  constructor
  · rintro ⟨byte, i, ⟨hbyte, rfl⟩, rfl⟩
    exact ⟨i, hbyte, rfl⟩
  · rintro ⟨i, hbyte, rfl⟩
    exact ⟨lineFeed, i, ⟨hbyte, rfl⟩, rfl⟩

/-- Line starts increase. -/
lemma pairwise_feedEnds (offset : ℕ) (bytes : List UInt8) :
    (offset :: feedEnds offset bytes).Pairwise (· < ·) := by
  induction bytes generalizing offset with
  | nil => exact List.pairwise_singleton _ _
  | cons byte bytes ih =>
      obtain ⟨hfirst, hlater⟩ := List.pairwise_cons.mp (ih (offset + 1))
      have hbehind : ∀ start ∈ feedEnds (offset + 1) bytes, offset < start :=
        fun start hstart => Nat.lt_of_succ_lt (hfirst start hstart)
      rw [feedEnds_cons]
      split_ifs
      · exact List.pairwise_cons.mpr
          ⟨List.forall_mem_cons.mpr ⟨Nat.lt_succ_self _, hbehind⟩, ih (offset + 1)⟩
      · exact List.pairwise_cons.mpr ⟨hbehind, hlater⟩

/-- As many lines start up to an offset as line feeds stand before it. -/
lemma countP_feedEnds (offset length : ℕ) (bytes : List UInt8) :
    (feedEnds offset bytes).countP (· ≤ offset + length) =
      (bytes.take length).count lineFeed := by
  induction bytes generalizing offset length with
  | nil => rw [List.take_nil]; rfl
  | cons byte bytes ih =>
      cases length with
      | zero =>
          rw [List.take_zero, List.count_nil, List.countP_eq_zero]
          intro start hstart
          have hlt := List.rel_of_pairwise_cons (pairwise_feedEnds offset (byte :: bytes)) hstart
          simpa using hlt
      | succ length =>
          have hsum : offset + (length + 1) = offset + 1 + length := by omega
          rw [feedEnds_cons, List.take_succ_cons, List.count_cons, ← ih (offset + 1), hsum]
          by_cases hfeed : byte = lineFeed
          · rw [if_pos hfeed, if_pos (beq_iff_eq.mpr hfeed), List.countP_cons,
              decide_eq_true (Nat.le_add_right _ _), if_pos rfl]
          · rw [if_neg hfeed, if_neg (mt beq_iff_eq.mp hfeed)]
            rfl

/-- Behind the line feeds among characters is behind those among the bytes that
they are written with. -/
lemma afterFeeds_eq (offset : ℕ) (cs : List Char) :
    LineIndex.afterFeeds offset cs = feedEnds offset (cs.flatMap utf8EncodeChar) := by
  induction cs generalizing offset with
  | nil => rfl
  | cons c cs ih =>
      rw [LineIndex.afterFeeds, List.flatMap_cons, feedEnds_append,
        String.length_utf8EncodeChar, ← ih]
      by_cases hc : c = '\n'
      · subst hc
        rw [if_pos rfl, utf8EncodeChar_newline, feedEnds_cons, if_pos rfl]
        rfl
      · rw [if_neg hc, feedEnds_of_notMem (lineFeed_notMem_utf8EncodeChar hc)]
        rfl

/-- The table of line starts, by the bytes of the text. -/
lemma starts_ofText (text : String) :
    (LineIndex.ofText text.toList).starts = 0 :: feedEnds 0 (textBytes text) := by
  rw [LineIndex.ofText, afterFeeds_eq, textBytes_eq]

/-! ### The line of an offset -/

/-- Where the line of an offset starts: right behind the last line feed before
the offset, or at the beginning where there is none. -/
structure IsLineStart (bytes : List UInt8) (offset start : ℕ) : Prop where
  le : start ≤ offset
  behind : start = 0 ∨ ∃ i, bytes[i]? = some lineFeed ∧ start = i + 1
  last : ∀ i < offset, bytes[i]? = some lineFeed → i + 1 ≤ start

/-- The lines that a search for an offset in a table of line starts leads to:
the one that starts there, or the one before the place at which the offset
would have to be put in. -/
inductive IsSought (starts : List ℕ) (offset : ℕ) : ℕ → Prop
  | found {line : ℕ} (here : starts[line]? = some offset) : IsSought starts offset line
  | missing {next : ℕ} (bound : next ≤ starts.length) (before : ∀ s ∈ starts.take next, s < offset)
      (behind : ∀ s ∈ starts.drop next, offset < s) : IsSought starts offset (next - 1)

/-- A table of line starts cut at the line of an offset. -/
structure CutAt (starts : List ℕ) (offset : ℕ) (earlier : List ℕ) (start : ℕ) (later : List ℕ) :
    Prop where
  eq : starts = earlier ++ start :: later
  earlier_lt : ∀ s ∈ earlier, s < start
  le : start ≤ offset
  lt_later : ∀ s ∈ later, offset < s

namespace CutAt

variable {starts earlier later : List ℕ} {offset start : ℕ}

lemma getElem?_eq (h : CutAt starts offset earlier start later) :
    starts[earlier.length]? = some start := by
  rw [h.eq, List.getElem?_append_right le_rfl, Nat.sub_self, List.getElem?_cons_zero]

/-- What starts behind the line of an offset starts behind the offset. -/
lemma lt_of_getElem? (h : CutAt starts offset earlier start later) {line s : ℕ}
    (hline : earlier.length < line) (hs : starts[line]? = some s) : offset < s := by
  rw [h.eq, List.getElem?_append_right hline.le] at hs
  obtain ⟨k, hk⟩ := Nat.exists_eq_add_of_lt hline
  have hsub : line - earlier.length = k + 1 := by omega
  rw [hsub, List.getElem?_cons_succ] at hs
  exact h.lt_later s (List.mem_of_getElem? hs)

lemma countP_eq (h : CutAt starts offset earlier start later) :
    starts.countP (· ≤ offset) = earlier.length + 1 := by
  have hearlier : earlier.countP (· ≤ offset) = earlier.length := by
    rw [List.countP_eq_length]
    exact fun s hs => decide_eq_true ((h.earlier_lt s hs).le.trans h.le)
  have hlater : later.countP (· ≤ offset) = 0 := by
    rw [List.countP_eq_zero]
    exact fun s hs => by simpa using h.lt_later s hs
  rw [h.eq, List.countP_append, hearlier, List.countP_cons, hlater, decide_eq_true h.le]
  rfl

/-- A search leads to the line of the offset and to no other. -/
lemma isSought_iff (h : CutAt starts offset earlier start later) {line : ℕ} :
    IsSought starts offset line ↔ line = earlier.length := by
  constructor
  · intro hsought
    cases hsought with
    | found here =>
        rcases lt_trichotomy line earlier.length with hlt | heq | hgt
        · rw [h.eq, List.getElem?_append_left hlt] at here
          exact absurd (h.earlier_lt offset (List.mem_of_getElem? here)) h.le.not_gt
        · exact heq
        · exact absurd (h.lt_of_getElem? hgt here) (lt_irrefl _)
    | @missing next bound before behind =>
        rcases lt_trichotomy next (earlier.length + 1) with hlt | heq | hgt
        · have hstart : start ∈ starts.drop next := by
            rw [h.eq, List.drop_append_of_le_length (Nat.le_of_lt_succ hlt)]
            exact List.mem_append_right _ List.mem_cons_self
          exact absurd (behind start hstart) h.le.not_gt
        · rw [heq, Nat.add_sub_cancel]
        · -- one more line would start before the offset
          have hnext : earlier.length + 1 < starts.length := hgt.trans_le bound
          have hs := List.getElem?_eq_getElem hnext
          have htake : starts[earlier.length + 1] ∈ starts.take next :=
            List.mem_of_getElem? ((List.getElem?_take_of_lt hgt).trans hs)
          exact absurd (before _ htake) (h.lt_of_getElem? (Nat.lt_succ_self _) hs).not_gt
  · rintro rfl
    rcases h.le.eq_or_lt with rfl | hlt
    · exact .found h.getElem?_eq
    · have hlength : (earlier ++ [start]).length = earlier.length + 1 := by simp
      have heq : starts = (earlier ++ [start]) ++ later := by simp [h.eq]
      refine @IsSought.missing _ _ (earlier.length + 1) (by simp [h.eq]) ?_ ?_
      · rw [heq, ← hlength, List.take_left]
        exact List.forall_mem_append.mpr
          ⟨fun s hs => (h.earlier_lt s hs).trans hlt, List.forall_mem_singleton.mpr hlt⟩
      · rw [heq, ← hlength, List.drop_left]
        exact h.lt_later

end CutAt

/-- The walk through a table that increases stops at the line of the offset. -/
lemma exists_cutAt_seek {offset line start : ℕ} {later : List ℕ}
    (hsorted : (start :: later).Pairwise (· < ·)) (hstart : start ≤ offset) :
    ∃ earlier found rest, CutAt (start :: later) offset earlier found rest ∧
      LineIndex.seek offset line start later = (line + earlier.length, found) := by
  induction later generalizing line start with
  | nil =>
      exact ⟨[], start, [], ⟨rfl, List.forall_mem_nil _, hstart, List.forall_mem_nil _⟩, rfl⟩
  | cons next later ih =>
      obtain ⟨hfirst, hlater⟩ := List.pairwise_cons.mp hsorted
      rw [LineIndex.seek]
      split_ifs with hnext
      · obtain ⟨earlier, found, rest, hcut, hseek⟩ := @ih (line + 1) _ hlater hnext
        have hfound : found ∈ next :: later := by
          rw [hcut.eq]
          exact List.mem_append_right _ List.mem_cons_self
        refine ⟨start :: earlier, found, rest, ⟨?_, ?_, hcut.le, hcut.lt_later⟩, ?_⟩
        · rw [hcut.eq, List.cons_append]
        · exact List.forall_mem_cons.mpr ⟨hfirst found hfound, hcut.earlier_lt⟩
        · rw [hseek, List.length_cons, Nat.add_assoc, Nat.add_comm 1]
      · have hbehind : ∀ s ∈ next :: later, offset < s := by
          have hlt := Nat.lt_of_not_le hnext
          exact List.forall_mem_cons.mpr
            ⟨hlt, fun s hs => hlt.trans (List.rel_of_pairwise_cons hlater hs)⟩
        exact ⟨[], start, next :: later, ⟨rfl, List.forall_mem_nil _, hstart, hbehind⟩, rfl⟩

/-! ### Positions -/

lemma Position.before_iff {p q : Position} :
    p.before q = true ↔ p.line < q.line ∨ p.line = q.line ∧ p.column < q.column := by
  simp [before]

/-- As many lines lie before that of an offset as line feeds. -/
lemma CutAt.length_earlier {bytes : List UInt8} {offset start : ℕ} {earlier later : List ℕ}
    (h : CutAt (0 :: feedEnds 0 bytes) offset earlier start later) :
    earlier.length = (bytes.take offset).count lineFeed := by
  have hcount := countP_feedEnds 0 offset bytes
  have hcut := h.countP_eq
  rw [Nat.zero_add] at hcount
  rw [List.countP_cons, hcount, decide_eq_true (Nat.zero_le offset), if_pos rfl] at hcut
  exact Nat.succ.inj hcut.symm

lemma CutAt.isLineStart {bytes : List UInt8} {offset start : ℕ} {earlier later : List ℕ}
    (h : CutAt (0 :: feedEnds 0 bytes) offset earlier start later) :
    IsLineStart bytes offset start := by
  have hstart : start ∈ 0 :: feedEnds 0 bytes := h.eq ▸ List.mem_append_right _ List.mem_cons_self
  refine ⟨h.le, (List.mem_cons.mp hstart).imp_right mem_feedEnds_iff.mp, fun i hi hbyte => ?_⟩
  have hmem : i + 1 ∈ 0 :: feedEnds 0 bytes :=
    List.mem_cons_of_mem _ (mem_feedEnds_iff.mpr ⟨i, hbyte, rfl⟩)
  rw [h.eq, List.mem_append, List.mem_cons] at hmem
  rcases hmem with hearlier | rfl | hlater
  · exact (h.earlier_lt _ hearlier).le
  · exact le_rfl
  · exact absurd (h.lt_later _ hlater) (Nat.not_lt.mpr hi)

namespace LineIndex

/-- The position of an offset names the line at which the table of the text is
cut. -/
lemma exists_cutAt_position (text : String) {offset : ℕ} (h : offset ≤ Position.limit) :
    ∃ earlier start later, CutAt (0 :: feedEnds 0 (textBytes text)) offset earlier start later ∧
      (ofText text.toList).position offset = ⟨earlier.length, offset - start⟩ := by
  obtain ⟨earlier, start, later, hcut, hseek⟩ := @exists_cutAt_seek offset 0 _ _
    (pairwise_feedEnds 0 (textBytes text)) (Nat.zero_le offset)
  refine ⟨earlier, start, later, hcut, ?_⟩
  have hline : earlier.length ≤ Position.limit := by
    calc earlier.length
        = ((textBytes text).take offset).count lineFeed := hcut.length_earlier
      _ ≤ ((textBytes text).take offset).length := List.count_le_length
      _ ≤ offset := List.length_take_le _ _
      _ ≤ Position.limit := h
  rw [position, starts_ofText, List.drop_one, List.tail_cons, hseek, Nat.zero_add]
  exact congrArg₂ Position.mk (Nat.min_eq_left hline)
    (Nat.min_eq_left ((Nat.sub_le _ _).trans h))

/-- Of two offsets the lesser one has the lesser position. -/
lemma position_before {text : String} {a b : ℕ} (hab : a < b) (hb : b ≤ Position.limit) :
    ((ofText text.toList).position a).before ((ofText text.toList).position b) = true := by
  obtain ⟨earlier, start, later, hcut, ha⟩ := exists_cutAt_position text (hab.le.trans hb)
  obtain ⟨earlier', start', later', hcut', hb⟩ := exists_cutAt_position text hb
  rw [ha, hb, Position.before_iff]
  dsimp only
  rcases lt_trichotomy earlier.length earlier'.length with hlt | heq | hgt
  · exact .inl hlt
  · have hsame : start = start' := by
      have hstart := hcut.getElem?_eq
      rw [heq, hcut'.getElem?_eq] at hstart
      exact (Option.some.inj hstart).symm
    have := hcut.le
    exact .inr ⟨heq, by omega⟩
  · -- the line of the lesser offset would start behind the greater one
    have := hcut'.lt_of_getElem? hgt hcut.getElem?_eq
    have := hcut.le
    omega

/-- **Lines and columns are exact and keep the order of offsets.**  The line of
an offset counts the line feeds before it, and the column the bytes from the
end of the last of them, or from the beginning of the text; so the start of the
line, which is the entry of the table at that line, and the column make up the
offset, also behind the end of the text.  Whichever way a search in the table
ends, it leads to that line.  Of two offsets the lesser one has the lesser
position. -/
theorem positions_are_exact (text : String) {offset : ℕ} (h : offset < 2 ^ 32) :
    let index := ofText text.toList
    (∃ start, IsLineStart (textBytes text) offset start ∧
      index.position offset =
        ⟨((textBytes text).take offset).count lineFeed, offset - start⟩ ∧
      index.starts[(index.position offset).line]? = some start ∧
      start + (index.position offset).column = offset) ∧
    (∀ line, IsSought index.starts offset line ↔ line = (index.position offset).line) ∧
    ∀ other < 2 ^ 32,
      offset < other ↔ (index.position offset).before (index.position other) = true := by
  have hlimit {n : ℕ} : n < 2 ^ 32 ↔ n ≤ Position.limit := Nat.lt_succ_iff
  rw [hlimit] at h
  obtain ⟨earlier, start, later, hcut, hposition⟩ := exists_cutAt_position text h
  dsimp only
  refine ⟨⟨start, hcut.isLineStart, ?_, ?_, ?_⟩, ?_, fun other hother => ⟨fun hlt => ?_, ?_⟩⟩
  · rw [hposition, hcut.length_earlier]
  · rw [hposition, starts_ofText]
    exact hcut.getElem?_eq
  · rw [hposition]
    exact Nat.add_sub_of_le hcut.le
  · intro line
    rw [hposition, starts_ofText]
    exact hcut.isSought_iff
  · exact position_before hlt (hlimit.mp hother)
  · intro hbefore
    by_contra hle
    rcases (Nat.le_of_not_lt hle).eq_or_lt with rfl | hgt
    · simp [Position.before_iff] at hbefore
    · have hafter := @position_before text _ _ hgt h
      rw [Position.before_iff] at hbefore hafter
      omega

/-- A text with a character of two bytes and an empty line. -/
def noteText : String := "né\n\nb"

theorem positions_in_noteText :
    let index := ofText noteText.toList
    index.position 4 = ⟨1, 0⟩ ∧ index.position 100 = ⟨2, 95⟩ ∧
    ((textBytes noteText).take 4).count lineFeed = 1 ∧ IsSought index.starts 4 1 ∧
    (index.position 4).before (index.position 100) = true := by
  have hfour : (ofText noteText.toList).position 4 = ⟨1, 0⟩ := by decide
  have hfar : (ofText noteText.toList).position 100 = ⟨2, 95⟩ := by decide
  obtain ⟨⟨start, -, hposition, -, -⟩, hsought, horder⟩ :=
    @positions_are_exact noteText 4 (by decide)
  refine ⟨hfour, hfar, ?_, ?_, (horder 100 (by decide)).mp (by decide)⟩
  · exact (congrArg Position.line (hposition.symm.trans hfour))
  · exact (hsought 1).mpr (by rw [hfour])

end LineIndex

end GraphMigrate
