/-
Where cursors and tokens stand in a text.

Reading a token only moves forward: what a cursor has passed and what it
still has before it make up the text, and its offset counts the bytes it
has passed.  So the span of every token that is read on the way covers the
characters of that token.

* `Cursor.Reaches`: a cursor behind another, in the same text;
* `Cursor.reaches_drop`, `skipGap_reaches`, `Token.read_reaches`: no step
  of the reading of a token loses or invents a character;
* `Cursor.In`, `Token.In`: cursors and tokens of a text;
* `Token.In.exists_append`: the text is what stands before a token, the
  token, and what stands behind it;
* `Segment`, `segment_of_templateSegment`: the characters of a template up
  to the mark that ends them.
-/
import GraphMigrate.Script.Token
import Mathlib.Tactic

namespace GraphMigrate.Script

variable {text : List Char}

/-! ### Moving forward -/

namespace Cursor

/-- The second cursor stands behind the first one, in the same text. -/
def Reaches (c d : Cursor) : Prop :=
  ∃ passed, c.chars = passed ++ d.chars ∧ d.offset = c.offset + byteLength passed

namespace Reaches

lemma refl (c : Cursor) : c.Reaches c := ⟨[], rfl, rfl⟩

lemma trans {c d e : Cursor} (h : c.Reaches d) (h' : d.Reaches e) : c.Reaches e := by
  obtain ⟨passed, hchars, hoffset⟩ := h
  obtain ⟨later, hchars', hoffset'⟩ := h'
  refine ⟨passed ++ later, ?_, ?_⟩
  · rw [hchars, hchars', List.append_assoc]
  · rw [hoffset', hoffset, byteLength_append, Nat.add_assoc]

/-- Whatever stands behind the next characters stands behind the first. -/
lemma of_append (passed : List Char) {offset : Nat} {cs : List Char} {d : Cursor}
    (h : Reaches ⟨offset + byteLength passed, cs⟩ d) : Reaches ⟨offset, passed ++ cs⟩ d :=
  trans ⟨passed, rfl, rfl⟩ h

lemma cons {offset : Nat} {c : Char} {cs : List Char} {d : Cursor}
    (h : Reaches ⟨offset + c.utf8Size, cs⟩ d) : Reaches ⟨offset, c :: cs⟩ d :=
  of_append [c] h

/-- A character of one byte. -/
lemma cons_one {offset : Nat} {c : Char} {cs : List Char} {d : Cursor} (hc : c.utf8Size = 1)
    (h : Reaches ⟨offset + 1, cs⟩ d) : Reaches ⟨offset, c :: cs⟩ d := by
  refine cons ?_
  rwa [hc]

/-- A backslash and the character that it takes along. -/
lemma escape {offset : Nat} {c : Char} {cs : List Char} {d : Cursor}
    (h : Reaches ⟨offset + 1 + c.utf8Size, cs⟩ d) : Reaches ⟨offset, '\\' :: c :: cs⟩ d :=
  cons_one rfl (cons h)

end Reaches

lemma reaches_drop (c : Cursor) (count : Nat) : c.Reaches (c.drop count) := by
  induction count generalizing c with
  | zero => exact .refl c
  | succ count ih =>
      obtain ⟨offset, chars⟩ := c
      cases chars with
      | nil => exact .refl _
      | cons c cs => exact (ih ⟨offset + c.utf8Size, cs⟩).cons

/-- The characters passed and those left make up the text. -/
lemma takeWhile_spec (p : Char → Bool) (offset : Nat) (cs : List Char) :
    cs = (takeWhile p offset cs).1 ++ (takeWhile p offset cs).2.chars ∧
      (takeWhile p offset cs).2.offset = offset + byteLength (takeWhile p offset cs).1 := by
  induction cs generalizing offset with
  | nil => exact ⟨rfl, rfl⟩
  | cons c cs ih =>
      rw [takeWhile]
      split
      · obtain ⟨hchars, hoffset⟩ := ih (offset + c.utf8Size)
        refine ⟨congrArg (c :: ·) hchars, ?_⟩
        rw [hoffset, byteLength, Nat.add_assoc]
      · exact ⟨rfl, rfl⟩

lemma reaches_takeWhile (p : Char → Bool) (c : Cursor) :
    c.Reaches (takeWhile p c.offset c.chars).2 :=
  ⟨_, takeWhile_spec p c.offset c.chars⟩

lemma reaches_skipWhile (p : Char → Bool) (c : Cursor) : c.Reaches (c.skipWhile p) :=
  reaches_takeWhile p c

end Cursor

open Cursor (Reaches)

lemma skipGap_reaches (broken : Bool) (offset : Nat) (mode : GapMode) (cs : List Char) :
    Reaches ⟨offset, cs⟩ (skipGap broken offset mode cs).1 := by
  fun_induction skipGap broken offset mode cs with
  | case1 => exact .refl _
  | case2 broken offset cs ih => exact .of_append ['/', '/'] ih
  | case3 broken offset cs ih => exact .of_append ['/', '*'] ih
  | case9 broken offset cs ih => exact .of_append ['*', '/'] ih
  | case6 => exact .refl _
  | case4 => exact .cons ‹_›
  | case5 => exact .cons ‹_›
  | case7 => exact .cons ‹_›
  | case8 => exact .cons ‹_›
  | case10 => exact .cons ‹_›

/-- Tokens that are neither names, strings, brackets, separators nor
operators, nor the mark that opens a template. -/
def TokenKind.isOther : TokenKind → Bool
  | .word _ _ | .punct _ | .quoted | .backtick => false
  | _ => true

lemma readName_reaches (fuel : Nat) (c : Cursor) : c.Reaches (readName fuel c).2.2 := by
  induction fuel generalizing c with
  | zero => exact .refl c
  | succ fuel ih =>
      rw [readName]
      refine (Cursor.reaches_takeWhile isWordPart c).trans ?_
      generalize Cursor.takeWhile isWordPart c.offset c.chars = passed
      obtain ⟨taken, rest⟩ := passed
      dsimp only
      split
      · split
        · exact (Cursor.reaches_drop rest _).trans (ih _)
        · exact .refl _
      · exact .refl _

/-- A name without escapes is read as it is written. -/
lemma readName_of_not_escaped (fuel : Nat) (c : Cursor) (h : (readName fuel c).2.1 = false) :
    c.chars = (readName fuel c).1 ++ (readName fuel c).2.2.chars := by
  cases fuel with
  | zero => rfl
  | succ fuel =>
      have hwhole := (Cursor.takeWhile_spec isWordPart c.offset c.chars).1
      rw [readName] at h ⊢
      generalize Cursor.takeWhile isWordPart c.offset c.chars = passed at h hwhole ⊢
      obtain ⟨taken, rest⟩ := passed
      dsimp only at h ⊢
      split at h
      · split at h
        · cases h
        · exact hwhole
      · exact hwhole

lemma readQuoted_reaches (quote : Char) (offset : Nat) (cs : List Char)
    (hquote : quote.utf8Size = 1) :
    Reaches ⟨offset, cs⟩ (readQuoted quote offset cs).2 := by
  fun_induction readQuoted quote offset cs with
  | case1 => exact .refl _
  | case2 offset cs ih => exact .of_append ['\\', '\r', '\n'] ih
  | case3 => exact .refl _
  | case4 offset c cs _ _ ih => exact .escape ih
  | case5 offset cs => exact .cons_one hquote (.refl _)
  | case6 => exact .refl _
  | case7 offset c cs _ _ _ _ ih => exact .cons ih

lemma readQuoted_kind (quote : Char) (offset : Nat) (cs : List Char) :
    (readQuoted quote offset cs).1 = .quoted ∨ (readQuoted quote offset cs).1.isOther := by
  fun_induction readQuoted quote offset cs with
  | case1 | case5 | case6 => exact .inl rfl
  | case3 => exact .inr rfl
  | case2 offset cs ih => exact ih
  | case4 offset c cs _ _ ih => exact ih
  | case7 offset c cs _ _ _ _ ih => exact ih

lemma skipDigits?_reaches {base : Nat} {c d : Cursor} (h : skipDigits? base c = .ok d) :
    c.Reaches d := by
  unfold skipDigits? at h
  split at h
  · cases h
  · cases h
    exact Cursor.reaches_skipWhile _ c

lemma skipExponent_reaches {c d : Cursor} (h : skipExponent c = .ok d) : c.Reaches d := by
  unfold skipExponent at h
  split at h
  · split at h
    · split at h
      · refine Cursor.Reaches.trans ?_ (skipDigits?_reaches h)
        split
        · exact Cursor.reaches_drop c 2
        · exact Cursor.reaches_drop c 1
      · cases h
    · cases h
      exact .refl c
  · cases h
    exact .refl c

lemma skipFraction_reaches {c d : Cursor} (h : skipFraction c = .ok d) : c.Reaches d := by
  unfold skipFraction at h
  split at h
  · have hpoint : c.Reaches (c.drop 1) := Cursor.reaches_drop c 1
    have hdigits : (c.drop 1).Reaches ((c.drop 1).skipWhile (isDigitOf 10)) :=
      Cursor.reaches_skipWhile _ _
    exact (hpoint.trans hdigits).trans (skipExponent_reaches h)
  · exact skipExponent_reaches h

lemma skipBigMark_reaches (c : Cursor) : c.Reaches (skipBigMark c) := by
  unfold skipBigMark
  split
  · exact Cursor.reaches_drop c 1
  · exact .refl c

lemma skipDecimal_reaches {c d : Cursor} (h : skipNumeral.decimal c = .ok d) : c.Reaches d := by
  have hwhole : c.Reaches (c.skipWhile (isDigitOf 10)) := Cursor.reaches_skipWhile _ c
  unfold skipNumeral.decimal at h
  dsimp only at h
  split at h
  · cases h
    exact hwhole.trans (Cursor.reaches_drop _ 1)
  · exact hwhole.trans (skipFraction_reaches h)

lemma skipNumeral_reaches {c d : Cursor} (h : skipNumeral c = .ok d) : c.Reaches d := by
  unfold skipNumeral at h
  split at h
  · split at h
    · cases hdigits : skipDigits? _ (c.drop 2) with
      | error e =>
          rw [hdigits] at h
          cases h
      | ok rest =>
          rw [hdigits] at h
          cases h
          exact ((Cursor.reaches_drop c 2).trans (skipDigits?_reaches hdigits)).trans
            (skipBigMark_reaches rest)
    · exact skipDecimal_reaches h
  · exact skipDecimal_reaches h

lemma readNumeral_reaches (c : Cursor) : c.Reaches (readNumeral c).2 := by
  unfold readNumeral
  cases h : skipNumeral c with
  | error offset => exact .refl c
  | ok rest =>
      dsimp only
      split
      · exact skipNumeral_reaches h
      · exact skipNumeral_reaches h

lemma isOther_readNumeral (c : Cursor) : (readNumeral c).1.isOther := by
  unfold readNumeral
  split
  · rfl
  · split <;> rfl

lemma regexEnd?_reaches {bracketed : Bool} {offset : Nat} {cs : List Char} {rest : Cursor}
    (h : regexEnd? bracketed offset cs = some rest) : Reaches ⟨offset, cs⟩ rest := by
  fun_induction regexEnd? bracketed offset cs with
  | case1 => cases h
  | case2 => cases h
  | case3 bracketed offset c cs _ ih => exact .escape (ih h)
  | case4 => cases h
  | case5 bracketed offset c cs _ _ hslash =>
      obtain ⟨rfl, -⟩ := hslash
      cases h
      exact .cons_one rfl (Cursor.reaches_skipWhile isWordPart ⟨offset + 1, cs⟩)
  | case6 bracketed offset cs _ _ _ ih => exact .cons_one rfl (ih h)
  | case7 bracketed offset cs _ _ _ _ ih => exact .cons_one rfl (ih h)
  | case8 bracketed offset c cs _ _ _ _ _ ih => exact .cons (ih h)

/-! ### Tokens -/

/-- A slash and an opening angle bracket are read from themselves. -/
lemma Punct.head?_of_read? {p : Punct} {cs : List Char} {width : Nat}
    (h : Punct.read? cs = some (p, width)) :
    (p = .slash → cs.head? = some '/') ∧ (p = .less → cs.head? = some '<') := by
  unfold Punct.read? at h
  split at h
  all_goals grind

/-- What reading a token at a cursor does: the kind of the token and the
cursor behind it. -/
inductive Token.Reading (c : Cursor) : TokenKind → Cursor → Prop
  | word {fuel : Nat} {name : List Char} {escaped : Bool} {rest : Cursor}
      (h : readName fuel c = (name, escaped, rest)) :
      Reading c (.word (String.ofList name) escaped) rest
  | backtick {cs : List Char} (hchars : c.chars = '`' :: cs) :
      Reading c .backtick ⟨c.offset + 1, cs⟩
  | punct {p : Punct} {width : Nat} (h : Punct.read? c.chars = some (p, width)) :
      Reading c (.punct p) (c.drop width)
  | quoted {quote : Char} {cs : List Char} {rest : Cursor} (hchars : c.chars = quote :: cs)
      (hquote : quote = '"' ∨ quote = '\'') (hrest : Cursor.Reaches ⟨c.offset + 1, cs⟩ rest) :
      Reading c .quoted rest
  | other {kind : TokenKind} {rest : Cursor} (hkind : kind.isOther) (hrest : c.Reaches rest) :
      Reading c kind rest

namespace Token

lemma reading_read (c : Cursor) : Reading c (read c).1 (read c).2 := by
  obtain ⟨offset, chars⟩ := c
  unfold read
  cases chars with
  | nil => exact .other rfl (.refl _)
  | cons c cs =>
      have hfirst := Cursor.reaches_drop ⟨offset, c :: cs⟩ 1
      dsimp only
      split
      · exact .word rfl
      split
      · exact .other (isOther_readNumeral _) (readNumeral_reaches _)
      split
      next hquote =>
        rw [Bool.or_eq_true, beq_iff_eq, beq_iff_eq] at hquote
        have hsize : c.utf8Size = 1 := by rcases hquote with rfl | rfl <;> rfl
        have hrest := readQuoted_reaches c (offset + 1) cs hsize
        rcases readQuoted_kind c (offset + 1) cs with hkind | hkind
        · rw [hkind]
          exact .quoted rfl hquote hrest
        · exact .other hkind (.cons_one hsize hrest)
      split
      next h =>
        rw [beq_iff_eq] at h
        subst h
        exact .backtick rfl
      split
      · split
        · split
          · exact .other rfl (hfirst.trans (readName_reaches _ _))
          · exact .other rfl hfirst
        · exact .other rfl hfirst
      · split
        next h => exact .punct h
        next => exact .other rfl hfirst

namespace Reading

variable {c rest : Cursor}

lemma reaches {kind : TokenKind} (h : Reading c kind rest) : c.Reaches rest := by
  cases h with
  | @word fuel name escaped rest h =>
      have hname := readName_reaches fuel c
      rwa [h] at hname
  | backtick hchars => exact ⟨['`'], hchars, rfl⟩
  | punct h => exact Cursor.reaches_drop c _
  | @quoted quote cs rest hchars hquote hrest =>
      have hsize : quote.utf8Size = 1 := by rcases hquote with rfl | rfl <;> rfl
      obtain ⟨offset, chars⟩ := c
      dsimp only at hchars
      subst hchars
      exact .cons_one hsize hrest
  | other _ hrest => exact hrest

/-- A name written without escapes is the text that it takes up. -/
lemma of_word {name : String} (h : Reading c (.word name false) rest) :
    c.chars = name.toList ++ rest.chars := by
  generalize hkind : TokenKind.word name false = kind at h
  cases h with
  | @word fuel spelled escaped rest h =>
      obtain ⟨rfl, rfl⟩ := TokenKind.word.inj hkind
      have hplain := readName_of_not_escaped fuel c (by rw [h])
      rw [h] at hplain
      rwa [String.toList_ofList]
  | other hother => rw [← hkind] at hother; cases hother
  | _ => cases hkind

/-- A string begins with a quote. -/
lemma of_quoted (h : Reading c .quoted rest) :
    ∃ quote inside, c.chars = quote :: (inside ++ rest.chars) ∧ (quote = '"' ∨ quote = '\'') := by
  generalize hkind : TokenKind.quoted = kind at h
  cases h with
  | @quoted quote cs rest hchars hquote hrest =>
      obtain ⟨inside, hinside, -⟩ := hrest
      dsimp only at hinside
      exact ⟨quote, inside, by rw [hchars, hinside], hquote⟩
  | other hother => rw [← hkind] at hother; cases hother
  | _ => cases hkind

lemma of_backtick (h : Reading c .backtick rest) :
    c.chars = '`' :: rest.chars ∧ rest.offset = c.offset + 1 := by
  generalize hkind : TokenKind.backtick = kind at h
  cases h with
  | backtick hchars => exact ⟨hchars, rfl⟩
  | other hother => rw [← hkind] at hother; cases hother
  | _ => cases hkind

lemma of_punct {p : Punct} (h : Reading c (.punct p) rest) :
    ∃ width, Punct.read? c.chars = some (p, width) := by
  generalize hkind : TokenKind.punct p = kind at h
  cases h with
  | @punct q width h =>
      cases hkind
      exact ⟨width, h⟩
  | other hother => rw [← hkind] at hother; cases hother
  | _ => cases hkind

lemma head?_of_slash (h : Reading c (.punct .slash) rest) : c.chars.head? = some '/' := by
  obtain ⟨width, hread⟩ := h.of_punct
  exact (Punct.head?_of_read? hread).1 rfl

lemma head?_of_less (h : Reading c (.punct .less) rest) : c.chars.head? = some '<' := by
  obtain ⟨width, hread⟩ := h.of_punct
  exact (Punct.head?_of_read? hread).2 rfl

end Reading

lemma read_reaches (c : Cursor) : c.Reaches (read c).2 := (reading_read c).reaches

end Token

/-! ### Segments of templates -/

/-- The characters of a template up to the mark that ends them: a backtick
or the start of an interpolation.  A backslash takes the character behind
it along. -/
inductive Segment : List Char → List Char → Prop
  | closed (rest : List Char) : Segment [] ('`' :: rest)
  | interpolated (rest : List Char) : Segment [] ('$' :: '{' :: rest)
  | escape (c : Char) {raw rest : List Char} (h : Segment raw rest) :
      Segment ('\\' :: c :: raw) rest
  | char {c : Char} {raw rest : List Char} (hmark : c ≠ '`') (hescape : c ≠ '\\')
      (hopen : c = '$' → (raw ++ rest).head? ≠ some '{') (h : Segment raw rest) :
      Segment (c :: raw) rest

lemma segment_of_templateSegment (offset : Nat) (cs : List Char)
    (h : (templateSegment offset cs).2.1 ≠ .unfinished) :
    ∃ raw, cs = raw ++ (templateSegment offset cs).1.chars ∧
      (templateSegment offset cs).1.offset = offset + byteLength raw ∧
      Segment raw (templateSegment offset cs).1.chars := by
  fun_induction templateSegment offset cs with
  | case1 => exact absurd rfl h
  | case2 offset c cs ih =>
      obtain ⟨raw, hchars, hoffset, hraw⟩ := ih h
      refine ⟨'\\' :: c :: raw, congrArg ('\\' :: c :: ·) hchars, ?_, hraw.escape c⟩
      have hbackslash : Char.utf8Size '\\' = 1 := rfl
      simp only [hoffset, byteLength, hbackslash]
      omega
  | case3 offset cs => exact ⟨[], rfl, rfl, .closed cs⟩
  | case4 offset cs => exact ⟨[], rfl, rfl, .interpolated cs⟩
  | case5 offset c cs hescape hmark hopen ih =>
      obtain ⟨raw, hchars, hoffset, hraw⟩ := ih h
      refine ⟨c :: raw, congrArg (c :: ·) hchars, ?_, .char hmark ?_ ?_ hraw⟩
      · rw [hoffset, byteLength, Nat.add_assoc]
      · -- a backslash at the very end leaves the template unfinished
        rintro rfl
        cases cs with
        | nil => exact h rfl
        | cons d cs => exact hescape d cs rfl rfl
      · intro hdollar hbrace
        rw [← hchars] at hbrace
        obtain ⟨cs', rfl⟩ := List.head?_eq_some_iff.mp hbrace
        exact hopen cs' hdollar rfl

lemma templateSegment_reaches (offset : Nat) (cs : List Char) :
    Cursor.Reaches ⟨offset, cs⟩ (templateSegment offset cs).2.2 := by
  fun_induction templateSegment offset cs with
  | case1 => exact .refl _
  | case2 offset c cs ih => exact .escape ih
  | case3 offset cs => exact ⟨['`'], rfl, rfl⟩
  | case4 offset cs => exact ⟨['$', '{'], rfl, rfl⟩
  | case5 offset c cs _ _ _ ih => exact .cons ih

/-! ### Cursors and tokens of a text -/

/-- The cursor stands in a text: its offset counts the bytes before it. -/
def Cursor.In (text : List Char) (c : Cursor) : Prop := (⟨0, text⟩ : Cursor).Reaches c

namespace Cursor.In

lemma start (text : List Char) : Cursor.In text ⟨0, text⟩ := .refl _

lemma of_reaches {c d : Cursor} (h : c.In text) (hcd : c.Reaches d) : d.In text := h.trans hcd

end Cursor.In

/-- The token stands in a text. -/
def Token.In (text : List Char) (t : Token) : Prop :=
  ∃ c : Cursor, c.In text ∧ t = Token.next c

lemma Token.in_next {c : Cursor} (h : c.In text) : (Token.next c).In text := ⟨c, h, rfl⟩

namespace Token.In

variable {t : Token}

lemma start_in (h : t.In text) : t.start.In text := by
  obtain ⟨c, hc, rfl⟩ := h
  exact hc.of_reaches (skipGap_reaches false c.offset .code c.chars)

lemma read_start (h : t.In text) : read t.start = (t.kind, t.after) := by
  obtain ⟨c, hc, rfl⟩ := h
  rfl

lemma reading (h : t.In text) : Reading t.start t.kind t.after := by
  have hread := reading_read t.start
  rwa [h.read_start] at hread

lemma after_in (h : t.In text) : t.after.In text := h.start_in.of_reaches h.reading.reaches

lemma span_eq (h : t.In text) : t.span = ⟨t.start.offset, t.after.offset⟩ := by
  obtain ⟨c, hc, rfl⟩ := h
  rfl

/-- The text is what stands before a token, the token, and what stands
behind it. -/
lemma exists_append (h : t.In text) :
    ∃ before written, text = before ++ written ++ t.after.chars ∧
      t.start.chars = written ++ t.after.chars ∧
      t.span = ⟨byteLength before, byteLength before + byteLength written⟩ := by
  obtain ⟨before, htext, hstart⟩ := h.start_in
  obtain ⟨written, hchars, hafter⟩ := h.reading.reaches
  dsimp only at htext hstart
  refine ⟨before, written, ?_, hchars, ?_⟩
  · rw [htext, hchars, List.append_assoc]
  · rw [h.span_eq, hafter, hstart, Nat.zero_add]

end Token.In

end GraphMigrate.Script
