/-
What settles how a text begins.

How a text begins is told by its first characters.  If these go as far as a mark, or
as far as a word does, then nothing behind them matters.  All places that nodes record
are of that kind, so what is written behind them leaves the beginning as it is.

* `IsFirm`: characters that settle the beginning, in front of others;
* `IsFirm.of_word`, `IsFirm.of_mark`: words, and marks that stand for themselves;
* `exists_firm_of_segment`, `exists_firm_of_token`: what stands behind a token in front
  of the places that are recorded there.
-/
import GraphMigrate.Proofs.Script.Reading.Directives

namespace GraphMigrate.Script

/-- Characters that settle how a text begins which goes on with others: they are no
character whose meaning depends on the next one, and they do not end within a word. -/
structure IsFirm (p s : List Char) : Prop where
  nonempty : p ≠ []
  single : ∀ c, p = [c] → isPaired c = false
  word : (∃ c ∈ p, isWordPart c = false) ∨ ∀ c ∈ s.head?, isWordPart c = false

namespace IsFirm

variable {mid p s s' : List Char} {c : Char}

lemma keepsBeginning (h : IsFirm p s) (h' : IsFirm p s') (hbegins : beginsToken (p ++ s) = true) :
    KeepsBeginning (p ++ s) (p ++ s') := by
  refine keepsBeginning_append h.nonempty hbegins h.single ?_
  rcases h.word with hmark | hs
  · exact .inl hmark
  · exact h'.word.imp_right fun hs' => ⟨hs, hs'⟩

lemma eq_of_append_eq_singleton {w : List Char} {d : Char} (hw : w ≠ []) (h : mid ++ w = [d]) :
    w = [d] := by
  rcases List.append_eq_singleton_iff.mp h with ⟨-, h⟩ | ⟨-, h⟩
  · exact h
  · exact absurd h hw

/-- A mark settles the beginning if it stands for itself. -/
lemma of_mark (hc : isWordPart c = false) (hpair : isPaired c = false) (mid s : List Char) :
    IsFirm (mid ++ [c]) s where
  nonempty := by simp
  single d hd := by
    cases eq_of_append_eq_singleton (List.cons_ne_nil c []) hd
    exact hpair
  word := .inl ⟨c, by simp, hc⟩

lemma isPaired_of_isWordStart (h : isWordStart c = true ∨ c = '\\') : isPaired c = false := by
  by_contra hpair
  rw [Bool.not_eq_false, isPaired, List.contains_iff_mem] at hpair
  simp only [List.mem_cons, List.not_mem_nil, or_false] at hpair
  rcases h with h | rfl
  · rcases hpair with rfl | rfl | rfl | rfl | rfl | rfl <;> exact absurd h (by decide)
  · simp at hpair

/-- A word settles the beginning if it ends where it goes. -/
lemma of_word {w : List Char} (hc : isWordStart c = true ∨ c = '\\')
    (hw : (∃ d ∈ c :: w, isWordPart d = false) ∨ ∀ d ∈ s.head?, isWordPart d = false)
    (mid : List Char) : IsFirm (mid ++ c :: w) s where
  nonempty := by simp
  single d hd := by
    cases eq_of_append_eq_singleton (List.cons_ne_nil c w) hd
    exact isPaired_of_isWordStart hc
  word := hw.imp_left fun ⟨d, hd, hpart⟩ => ⟨d, List.mem_append_right _ hd, hpart⟩

end IsFirm

/-! ### Words and brackets -/

lemma head?_takeWhile (q : Char → Bool) (offset : Nat) (cs : List Char) :
    ∀ d ∈ (Cursor.takeWhile q offset cs).2.chars.head?, q d = false := by
  induction cs generalizing offset with
  | nil => simp [Cursor.takeWhile]
  | cons c cs ih =>
      rw [Cursor.takeWhile]
      split
      · exact ih _
      next h => simpa using h

/-- A word is read as far as it goes, or it has an escape in it.  Nothing is read only
where no word begins. -/
lemma exists_append_of_readName (fuel : Nat) (c : Cursor) :
    ∃ passed, c.chars = passed ++ (readName (fuel + 1) c).2.2.chars ∧
      ((∃ d ∈ passed, isWordPart d = false) ∨
        ∀ d ∈ (readName (fuel + 1) c).2.2.chars.head?, isWordPart d = false) ∧
      (passed = [] → ∀ d cs, c.chars = d :: cs →
        isWordPart d = false ∧ (d = '\\' → nameEscape? cs = none)) := by
  have happend := (Cursor.takeWhile_spec isWordPart c.offset c.chars).1
  have hstop := head?_takeWhile isWordPart c.offset c.chars
  rw [readName]
  generalize Cursor.takeWhile isWordPart c.offset c.chars = found at happend hstop
  obtain ⟨taken, offset, chars⟩ := found
  dsimp only at happend hstop ⊢
  split
  next cs =>
    split
    next width _ =>
      obtain ⟨passed, hpassed, -⟩ := (Cursor.reaches_drop ⟨offset + '\\'.utf8Size, cs⟩ width).trans
        (readName_reaches fuel _)
      dsimp only at hpassed
      refine ⟨taken ++ '\\' :: passed, ?_, .inl ⟨'\\', by simp, by decide⟩, by simp⟩
      rw [happend, List.append_assoc, List.cons_append]
      exact congrArg (taken ++ '\\' :: ·) hpassed
    next hescape =>
      refine ⟨taken, happend, .inr hstop, ?_⟩
      rintro rfl d ds hds
      rw [happend, List.nil_append, List.cons.injEq] at hds
      obtain ⟨rfl, rfl⟩ := hds
      exact ⟨by decide, fun _ => hescape⟩
  next hplain =>
    refine ⟨taken, happend, .inr hstop, ?_⟩
    rintro rfl d ds hds
    rw [happend, List.nil_append] at hds
    refine ⟨hstop d (by rw [hds]; rfl), ?_⟩
    rintro rfl
    exact absurd hds (hplain ds)

/-- What is read as a word begins as a word does, or with an escape. -/
lemma begins_of_read_word {c rest : Cursor} {spelled : String} {escaped : Bool}
    (h : Token.read c = (.word spelled escaped, rest)) :
    ∃ d cs, c.chars = d :: cs ∧
      (isWordStart d = true ∨ d = '\\' ∧ (nameEscape? cs).isSome = true) ∧
      ∃ fuel, (readName (fuel + 1) c).2.2 = rest := by
  obtain ⟨offset, chars⟩ := c
  unfold Token.read at h
  cases chars with
  | nil => cases h
  | cons d cs =>
      refine ⟨d, cs, rfl, ?_⟩
      have hother {found : TokenKind × Cursor} (hfound : found.1 = .quoted ∨ found.1.isOther = true)
          (h : found = (.word spelled escaped, rest)) : False := by
        rw [h] at hfound
        rcases hfound with h | h <;> cases h
      dsimp only at h
      split at h
      next hstart =>
        refine ⟨?_, cs.length + 1, congrArg Prod.snd h⟩
        rwa [Bool.or_eq_true, Bool.and_eq_true, beq_iff_eq] at hstart
      split at h
      · exact (hother (.inr (isOther_readNumeral _)) h).elim
      split at h
      · exact (hother (readQuoted_kind _ _ _) h).elim
      split at h
      · cases h
      split at h
      · split at h
        · split at h <;> cases h
        · cases h
      · split at h <;> cases h

lemma exists_of_word {t : Token} (ht : t.IsRead) {spelled : String} {escaped : Bool}
    (h : t.kind = .word spelled escaped) :
    ∃ c w, t.start.chars = c :: w ++ t.after.chars ∧ (isWordStart c = true ∨ c = '\\') ∧
      ((∃ d ∈ c :: w, isWordPart d = false) ∨
        ∀ d ∈ t.after.chars.head?, isWordPart d = false) := by
  rw [Token.IsRead, h] at ht
  obtain ⟨c, cs, hchars, hc, fuel, hafter⟩ := begins_of_read_word ht
  obtain ⟨passed, hpassed, hstop, hnil⟩ := exists_append_of_readName fuel t.start
  rw [hafter] at hpassed hstop
  cases passed with
  | nil =>
      obtain ⟨hpart, hescape⟩ := hnil rfl c cs hchars
      rcases hc with hc | ⟨rfl, hc⟩
      · rw [isWordPart_of_isWordStart hc] at hpart
        cases hpart
      · rw [hescape rfl] at hc
        cases hc
  | cons d w =>
      rw [hchars, List.cons_append, List.cons.injEq] at hpassed
      obtain ⟨rfl, rfl⟩ := hpassed
      exact ⟨c, w, hchars, hc.imp_right And.left, hstop⟩

lemma eq_cons_of_read?_closing {p : Punct} {cs : List Char} {width : Nat}
    (h : Punct.read? cs = some (p, width)) (hp : p = .rbrace ∨ p = .rparen) :
    width = 1 ∧ ∃ c rest, cs = c :: rest ∧ (c = '\x7d' ∨ c = ')') := by
  unfold Punct.read? at h
  split at h
  all_goals grind

lemma exists_of_closing {t : Token} (ht : t.IsRead) {p : Punct}
    (h : t.kind = .punct p) (hp : p = .rbrace ∨ p = .rparen) :
    ∃ c, t.start.chars = c :: t.after.chars ∧ (c = '\x7d' ∨ c = ')') := by
  have hreading := Token.reading_read t.start
  rw [ht, h] at hreading
  generalize hkind : TokenKind.punct p = kind at hreading
  generalize t.after = after at hreading
  cases hreading with
  | @punct q width hread =>
      cases hkind
      obtain ⟨rfl, c, rest, hchars, hc⟩ := eq_cons_of_read?_closing hread hp
      refine ⟨c, ?_, hc⟩
      generalize t.start = start at hchars
      obtain ⟨offset, chars⟩ := start
      dsimp only at hchars
      subst hchars
      rfl
  | other hother => rw [← hkind] at hother; cases hother
  | _ => cases hkind

/-- A token that may end a value is a word or a mark, up to where it ends. -/
lemma exists_of_endsValue {t : Token} (ht : t.IsRead) (h : t.kind.EndsValue) :
    ∃ c w, t.start.chars = c :: w ++ t.after.chars ∧ (isLineEnd c || isGap c) = false ∧
      ∀ mid s, ((∀ d ∈ s.head?, isWordPart d = false) → IsFirm (mid ++ c :: w) s) ∧
        IsFirm (mid ++ c :: w) t.after.chars := by
  cases hkind : t.kind with
  | word spelled escaped =>
      obtain ⟨c, w, hchars, hc, hstop⟩ := exists_of_word ht hkind
      refine ⟨c, w, hchars, ?_, fun mid s => ⟨fun hs => .of_word hc (.inr hs) mid,
        .of_word hc hstop mid⟩⟩
      rcases hc with hc | rfl
      · have hends := endsGap_of_isWordStart hc
        simp only [endsGap, Bool.and_eq_true, Bool.not_eq_true'] at hends
        rw [hends.1.2, hends.2]
        rfl
      · rfl
  | punct p =>
      rw [hkind] at h
      obtain ⟨c, hchars, hc⟩ := exists_of_closing ht hkind h
      refine ⟨c, [], hchars, ?_, fun mid s => ?_⟩
      · rcases hc with rfl | rfl <;> rfl
      · have hmark (s : List Char) : IsFirm (mid ++ [c]) s := by
          rcases hc with rfl | rfl <;> exact .of_mark (by decide) rfl mid s
        exact ⟨fun _ => hmark s, hmark _⟩
  | _ =>
      rw [hkind] at h
      exact h.elim

/-! ### Places behind a token -/

variable {v : Token}

/-- What is no blank in front of a token stands at or behind it. -/
lemma exists_append_of_blankBefore {before rest : List Char} {c : Char}
    (h : v.blankBefore = before ++ c :: rest) (hc : (isLineEnd c || isGap c) = false) :
    ∃ mid, v.start.chars = mid ++ c :: rest ∧
      byteLength before = v.start.offset + byteLength mid := by
  have hblank (count : Nat) :
      byteLength (List.replicate count (if v.broken then '\n' else ' ')) = count := by
    induction count with
    | zero => rfl
    | succ count ih =>
        rw [List.replicate_succ, byteLength, ih, Nat.add_comm]
        cases v.broken <;> rfl
  rw [Token.blankBefore] at h
  rcases List.append_eq_append_iff.mp h with ⟨mid, hbefore, hchars⟩ | ⟨more, hreplicate, hchars⟩
  · exact ⟨mid, hchars, by rw [hbefore, byteLength_append, hblank]⟩
  · cases more with
    | nil =>
        refine ⟨[], hchars.symm, ?_⟩
        rw [List.append_nil] at hreplicate
        rw [← hreplicate, hblank]
        rfl
    | cons d more =>
        obtain ⟨rfl, -⟩ := List.cons.inj hchars
        have hmem : c ∈ List.replicate v.start.offset (if v.broken then '\n' else ' ') := by
          rw [hreplicate]
          simp
        rw [List.eq_of_mem_replicate hmem] at hc
        cases hbroken : v.broken <;> rw [hbroken] at hc <;> cases hc

/-- In front of a segment stands its mark. -/
lemma exists_firm_of_segment {segment : Span} (h : SegmentStandsIn v.blankBefore segment) :
    ∃ mid s, v.start.chars = mid ++ ['`'] ++ s ∧
      segment.start = v.start.offset + byteLength (mid ++ ['`']) := by
  obtain ⟨before, raw, rest, hblank, -, rfl⟩ := h
  obtain ⟨mid, hchars, hbefore⟩ := exists_append_of_blankBefore hblank (by decide)
  refine ⟨mid, raw ++ rest, by rw [hchars]; simp, ?_⟩
  dsimp only
  rw [byteLength_append, hbefore, Nat.add_assoc]
  rfl

/-- A token of the text that may end a value stands behind the token. -/
lemma exists_firm_of_token {t : Token} (ht : t.In v.blankBefore) (h : t.kind.EndsValue) :
    ∃ mid w s, v.start.chars = mid ++ w ++ s ∧
      t.span = ⟨v.start.offset + byteLength mid, v.start.offset + byteLength (mid ++ w)⟩ ∧
      IsFirm (mid ++ w) s ∧
      ∀ s', (∀ d ∈ s'.head?, isWordPart d = false) → IsFirm (mid ++ w) s' := by
  obtain ⟨before, written, hblank, hwritten, hspan⟩ := ht.exists_append
  obtain ⟨c, w, hchars, hc, hfirm⟩ := exists_of_endsValue ht.read_start h
  obtain rfl := List.append_cancel_right (hwritten.symm.trans hchars)
  rw [List.append_assoc, List.cons_append] at hblank
  obtain ⟨mid, hmid, hbefore⟩ := exists_append_of_blankBefore hblank hc
  refine ⟨mid, c :: w, t.after.chars, by rw [hmid]; simp, ?_, (hfirm mid []).2,
    fun s' hs' => (hfirm mid s').1 hs'⟩
  rw [hspan, hbefore, byteLength_append, Nat.add_assoc]

end GraphMigrate.Script
