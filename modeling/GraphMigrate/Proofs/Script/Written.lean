/-
Reading what is written.

A migration writes pieces of a script and leaves their reading to the
grammar.  To see that a piece is read as it was meant, the reader is put
before the characters of the piece: it uses them all, whatever stands
behind them, and stops before the first character that is not its own.

* `Begins`: a text begins with a token of a kind;
* `begins_word`, `begins_punct`, `Begins.space`: tokens as they are written;
* `Takes`: a reader uses the characters written and gives a value of a sort;
* `Takes.bind`, `Takes.look`: readers put together from others;
* `takes_separated`: items separated by commas.
-/
import GraphMigrate.Proofs.Script.VariableName
import GraphMigrate.Script.Grammar.Basic
import Mathlib.Tactic

namespace GraphMigrate.Script

/-! ### Tokens as they are written -/

/-- The characters stand at the end of a word. -/
def EndsWord (rest : List Char) : Prop :=
  ∀ c ∈ rest.head?, isWordPart c = false ∧ c ≠ '\\'

/-- The characters written are the first token of the text, with the gap
before it. -/
def Begins (written rest : List Char) (kind : TokenKind) : Prop :=
  ∀ broken offset, ∃ start broken' stop,
    skipGap broken offset .code (written ++ rest) = (start, broken') ∧
      Token.read start = (kind, ⟨stop, rest⟩) ∧ rest.length < start.chars.length

/-- A character at which a gap ends. -/
def endsGap (c : Char) : Bool := c != '/' && !isLineEnd c && !isGap c

lemma skipGap_of_endsGap {c : Char} (h : endsGap c = true) (broken : Bool) (offset : ℕ)
    (cs : List Char) : skipGap broken offset .code (c :: cs) = (⟨offset, c :: cs⟩, broken) := by
  simp only [endsGap, Bool.and_eq_true, bne_iff_ne, Bool.not_eq_true'] at h
  obtain ⟨⟨hslash, hline⟩, hgap⟩ := h
  rw [skipGap.eq_def]
  split
  all_goals simp_all

lemma begins_of_read {c : Char} {cs rest : List Char} {kind : TokenKind} (hc : endsGap c = true)
    (hread : ∀ offset, ∃ stop, Token.read ⟨offset, c :: (cs ++ rest)⟩ = (kind, ⟨stop, rest⟩)) :
    Begins (c :: cs) rest kind := by
  intro broken offset
  obtain ⟨stop, hstop⟩ := hread offset
  refine ⟨_, broken, stop, skipGap_of_endsGap hc broken offset (cs ++ rest), hstop, ?_⟩
  simp only [List.length_cons, List.length_append]
  omega

namespace Begins

variable {written rest : List Char} {kind : TokenKind}

/-- The token that is read where a text begins. -/
lemma next (h : Begins written rest kind) (offset : ℕ) :
    ∃ t stop, Token.next ⟨offset, written ++ rest⟩ = t ∧ t.kind = kind ∧
      t.after = ⟨stop, rest⟩ ∧ rest.length < t.start.chars.length := by
  obtain ⟨start, broken, stop, hskip, hread, hlong⟩ := h false offset
  refine ⟨_, stop, rfl, ?_⟩
  simp only [Token.next, hskip, hread, hlong, and_self]

/-- White space and line ends may stand before a token. -/
lemma gap {blanks : List Char} (h : Begins written rest kind)
    (hblanks : ∀ c ∈ blanks, isLineEnd c = true ∨ isGap c = true) :
    Begins (blanks ++ written) rest kind := by
  induction blanks with
  | nil => exact h
  | cons c blanks ih =>
      rw [List.forall_mem_cons] at hblanks
      have hslash : c ≠ '/' := by
        rintro rfl
        exact absurd hblanks.1 (by decide)
      intro broken offset
      rw [List.cons_append, List.cons_append, skipGap]
      · split
        · exact ih hblanks.2 _ _
        · rename_i hline
          rw [if_pos (hblanks.1.resolve_left hline)]
          exact ih hblanks.2 _ _
      · exact fun _ hc => absurd hc hslash
      · exact fun _ hc => absurd hc hslash

lemma space (h : Begins written rest kind) : Begins (' ' :: written) rest kind := by
  have hblank : ∀ c ∈ [' '], isLineEnd c = true ∨ isGap c = true :=
    List.forall_mem_singleton.mpr (.inr rfl)
  exact h.gap hblank

end Begins

/-- The code points of slashes, line ends and gaps. -/
def gapCodes : List ℕ :=
  [9, 10, 11, 12, 13, 32, 47, 0xA0, 0xFEFF, 0x1680, 0x2028, 0x2029, 0x202F, 0x205F, 0x3000] ++
    (List.range 11).map (0x2000 + ·)

lemma mem_gapCodes_of_endsGap {c : Char} (h : endsGap c = false) : c.toNat ∈ gapCodes := by
  have hslash (hc : c = '/') : c.toNat = 47 := by rw [hc]; rfl
  have hnewline (hc : c = '\n') : c.toNat = 10 := by rw [hc]; rfl
  have hreturn (hc : c = '\r') : c.toNat = 13 := by rw [hc]; rfl
  simp only [endsGap, isLineEnd, isGap, Bool.and_eq_false_iff, bne_eq_false_iff_eq,
    Bool.not_eq_false', Bool.or_eq_true, beq_iff_eq, Bool.and_eq_true, decide_eq_true_eq] at h
  simp only [gapCodes, List.mem_append, List.mem_cons, List.mem_map, List.mem_range,
    List.not_mem_nil, or_false]
  by_cases hrange : 0x2000 ≤ c.toNat ∧ c.toNat ≤ 0x200A
  · exact .inr ⟨c.toNat - 0x2000, by omega, by omega⟩
  · left
    rcases h with (hc | ((hc | hc) | hc) | hc) | hc
    · exact hslash hc ▸ by simp
    · exact hnewline hc ▸ by simp
    · exact hreturn hc ▸ by simp
    all_goals omega

set_option maxRecDepth 2000 in
/-- White space and line ends begin no word. -/
lemma endsGap_of_isWordStart {c : Char} (h : isWordStart c = true) : endsGap c = true := by
  have hnone : ∀ n ∈ gapCodes, isWordStart (Char.ofNat n) = false := by decide
  by_contra hc
  have hcode := hnone c.toNat (mem_gapCodes_of_endsGap (Bool.not_eq_true _ ▸ hc))
  rw [Char.ofNat_toNat, h] at hcode
  cases hcode

lemma takeWhile_append {p : Char → Bool} {cs rest : List Char} (hcs : ∀ c ∈ cs, p c = true)
    (hrest : ∀ c ∈ rest.head?, p c = false) (offset : ℕ) :
    Cursor.takeWhile p offset (cs ++ rest) = (cs, ⟨offset + byteLength cs, rest⟩) := by
  induction cs generalizing offset with
  | nil =>
      cases rest with
      | nil => rfl
      | cons c rest => simp [Cursor.takeWhile, hrest c rfl, byteLength]
  | cons c cs ih =>
      rw [List.forall_mem_cons] at hcs
      simp [Cursor.takeWhile, hcs.1, ih hcs.2, byteLength, Nat.add_assoc]

/-- A word is read up to where it ends. -/
lemma begins_word {name : String} {rest : List Char} (h : isWord name = true)
    (hrest : EndsWord rest) : Begins name.toList rest (.word name false) := by
  rw [isWord] at h
  split at h
  · cases h
  next c cs hname =>
    rw [Bool.and_eq_true, List.all_eq_true] at h
    rw [hname]
    refine begins_of_read (endsGap_of_isWordStart h.1) fun offset =>
      ⟨offset + byteLength (c :: cs), ?_⟩
    have hparts : ∀ d ∈ c :: cs, isWordPart d = true :=
      List.forall_mem_cons.mpr ⟨isWordPart_of_isWordStart h.1, h.2⟩
    have htake := takeWhile_append hparts (fun d hd => (hrest d hd).1) offset
    rw [List.cons_append] at htake
    have hread : readName ((cs ++ rest).length + 2) ⟨offset, c :: (cs ++ rest)⟩ =
        (c :: cs, false, ⟨offset + byteLength (c :: cs), rest⟩) := by
      simp only [readName, htake]
      split
      next later => exact absurd rfl (hrest '\\' rfl).2
      next => rfl
    simp only [Token.read, h.1, Bool.true_or, if_true, hread]
    rw [← hname, String.ofList_toList]

/-- Brackets and separators of one character. -/
lemma begins_punct {c : Char} {p : Punct} (rest : List Char) (hgap : endsGap c = true)
    (hother : isWordStart c = false ∧ c.isDigit = false ∧
      c ∉ ['\\', '.', '"', '\'', '`', '#'])
    (hpunct : Punct.read? (c :: rest) = some (p, 1)) : Begins [c] rest (.punct p) := by
  refine begins_of_read hgap fun offset => ⟨offset + c.utf8Size, ?_⟩
  obtain ⟨hword, hdigit, hmark⟩ := hother
  simp only [List.mem_cons, List.not_mem_nil, or_false, not_or] at hmark
  obtain ⟨h1, h2, h3, h4, h5, h6⟩ := hmark
  simp [Token.read, hword, hdigit, h1, h2, h3, h4, h5, h6, hpunct, Cursor.drop]

lemma begins_ellipsis (rest : List Char) : Begins ['.', '.', '.'] rest (.punct .ellipsis) :=
  begins_of_read rfl fun offset => ⟨offset + 1 + 1 + 1, rfl⟩

/-! ### Readers before a text -/

namespace Grammar

/-- The state before the characters of a text. -/
def State.before (cs : List Char) (offset lastStop : ℕ) (context : Context) : State :=
  ⟨Token.next ⟨offset, cs⟩, lastStop, context⟩

variable {context : Context} {α β : Type} {p : Parse α} {written later rest : List Char}
  {P : α → Prop} {Q : β → Prop}

/-- Before the characters written, a reader uses just these and gives a
value of a sort. -/
def Takes (context : Context) (p : Parse α) (written rest : List Char) (P : α → Prop) : Prop :=
  ∀ offset lastStop, ∃ a offset' lastStop',
    p (.before (written ++ rest) offset lastStop context) =
      .ok (a, .before rest offset' lastStop' context) ∧ P a

namespace Takes

lemma mono {P' : α → Prop} (h : Takes context p written rest P) (hP : ∀ a, P a → P' a) :
    Takes context p written rest P' := by
  intro offset lastStop
  obtain ⟨a, offset', lastStop', hrun, ha⟩ := h offset lastStop
  exact ⟨a, offset', lastStop', hrun, hP a ha⟩

protected lemma pure {a : α} (h : P a) : Takes context (pure a) [] rest P :=
  fun offset lastStop => ⟨a, offset, lastStop, rfl, h⟩

/-- One reader goes on where another has stopped. -/
protected lemma bind {f : α → Parse β} (hp : Takes context p written (later ++ rest) P)
    (hf : ∀ a, P a → Takes context (f a) later rest Q) :
    Takes context (p >>= f) (written ++ later) rest Q := by
  intro offset lastStop
  obtain ⟨a, offset', lastStop', hrun, ha⟩ := hp offset lastStop
  obtain ⟨b, offset'', lastStop'', hrun', hb⟩ := hf a ha offset' lastStop'
  refine ⟨b, offset'', lastStop'', ?_, hb⟩
  rw [← List.append_assoc] at hrun
  change (p _ >>= fun result => f result.1 result.2) = _
  rw [hrun]
  exact hrun'

/-- A reader that only looks, before one that uses what is written. -/
lemma look {f : α → Parse β} (hp : Takes context p [] (written ++ rest) P)
    (hf : ∀ a, P a → Takes context (f a) written rest Q) :
    Takes context (p >>= f) written rest Q :=
  hp.bind hf

/-- A reader that uses everything, before one that adds nothing. -/
lemma andThen {f : α → Parse β} (hp : Takes context p written rest P)
    (hf : ∀ a, P a → Takes context (f a) [] rest Q) :
    Takes context (p >>= f) written rest Q := by
  rw [← List.append_nil written]
  exact hp.bind hf

protected lemma within {change : Context → Context}
    (h : Takes (change context) p written rest P) :
    Takes context (within change p) written rest P := by
  intro offset lastStop
  obtain ⟨a, offset', lastStop', hrun, ha⟩ := h offset lastStop
  refine ⟨a, offset', lastStop', ?_, ha⟩
  change (p (.before (written ++ rest) offset lastStop (change context)) >>= fun result =>
    Except.ok (result.1, { result.2 with context := context })) = _
  rw [hrun]
  rfl

end Takes

/-! ### Tokens -/

section Tokens

variable {kind : TokenKind}

lemma takes_here : Takes context here [] rest fun _ => True :=
  fun offset lastStop => ⟨_, offset, lastStop, rfl, trivial⟩

lemma takes_spanFrom (start : ℕ) : Takes context (spanFrom start) [] rest fun _ => True :=
  fun offset lastStop => ⟨_, offset, lastStop, rfl, trivial⟩

lemma takes_hasTypes : Takes context hasTypes [] rest (· = context.types) :=
  fun offset lastStop => ⟨_, offset, lastStop, rfl, rfl⟩

lemma takes_token (h : Begins written rest kind) :
    Takes context token [] (written ++ rest) fun t => t.kind = kind := by
  intro offset lastStop
  obtain ⟨t, stop, ht, hkind, -⟩ := h.next offset
  exact ⟨t, offset, lastStop, by rw [← ht]; rfl, hkind⟩

lemma takes_advance (h : Begins written rest kind) :
    Takes context advance written rest fun _ => True := by
  intro offset lastStop
  obtain ⟨t, stop, ht, -, hafter, -⟩ := h.next offset
  refine ⟨(), stop, stop, ?_, trivial⟩
  change Except.ok ((), State.mk (Token.next (Token.next ⟨offset, written ++ rest⟩).after)
    (Token.next ⟨offset, written ++ rest⟩).after.offset context) = _
  rw [ht, hafter]
  rfl

lemma takes_atPunct (h : Begins written rest kind) (p : Punct) :
    Takes context (atPunct p) [] (written ++ rest) (· = decide (kind = .punct p)) := by
  unfold atPunct
  refine (takes_token h).andThen fun t ht => .pure ?_
  rw [ht, TokenKind.isPunct]
  rfl

lemma takes_eat {p : Punct} (h : Begins written rest (.punct p)) :
    Takes context (eat p) written rest (· = true) := by
  unfold eat
  refine (takes_atPunct h p).look fun found hfound => ?_
  rw [hfound, if_pos (by simp)]
  exact (takes_advance h).andThen fun _ _ => .pure rfl

lemma takes_eat_of_ne {p : Punct} (h : Begins written rest kind) (hp : kind ≠ .punct p) :
    Takes context (eat p) [] (written ++ rest) (· = false) := by
  unfold eat
  refine (takes_atPunct h p).andThen fun found hfound => ?_
  rw [hfound, if_neg (by simp [hp])]
  exact .pure rfl

lemma takes_expect {p : Punct} (h : Begins written rest (.punct p)) :
    Takes context (expect p) written rest fun _ => True := by
  unfold expect
  refine (takes_atPunct h p).look fun found hfound => ?_
  rw [hfound, if_pos (by simp)]
  exact takes_advance h

end Tokens

/-! ### Items in braces -/

/-- What stands behind an item: a comma, or the brace that closes. -/
inductive EndsItem : List Char → Prop
  | comma (cs : List Char) : EndsItem (',' :: cs)
  | close (cs : List Char) : EndsItem (' ' :: '}' :: cs)

lemma begins_comma (rest : List Char) : Begins [','] rest (.punct .comma) :=
  begins_punct rest rfl (by decide) rfl

lemma begins_open (rest : List Char) : Begins ['{'] rest (.punct .lbrace) :=
  begins_punct rest rfl (by decide) rfl

lemma begins_close (rest : List Char) : Begins [' ', '}'] rest (.punct .rbrace) :=
  (begins_punct rest rfl (by decide) rfl).space

lemma EndsItem.endsWord (h : EndsItem rest) : EndsWord rest := by
  cases h with
  | comma cs =>
      rintro c ⟨⟩
      decide
  | close cs =>
      rintro c ⟨⟩
      decide

lemma EndsItem.exists_begins (h : EndsItem rest) :
    ∃ written later p, rest = written ++ later ∧ Begins written later (.punct p) ∧
      (p = .comma ∨ p = .rbrace) := by
  cases h with
  | comma cs => exact ⟨[','], cs, .comma, rfl, begins_comma cs, .inl rfl⟩
  | close cs => exact ⟨[' ', '}'], cs, .rbrace, rfl, begins_close cs, .inr rfl⟩

/-- Items, each with a space before it, with commas between them. -/
def spaced : List (List Char) → List Char
  | [] => []
  | [w] => ' ' :: w
  | w :: ws => ' ' :: (w ++ ',' :: spaced ws)

lemma spaced_cons {ws : List (List Char)} (w : List Char) (h : ws ≠ []) :
    spaced (w :: ws) = ' ' :: (w ++ ',' :: spaced ws) := by
  cases ws with
  | nil => exact absurd rfl h
  | cons _ _ => rfl

lemma length_le_length_spaced (ws : List (List Char)) : ws.length ≤ (spaced ws).length := by
  induction ws with
  | nil => exact le_rfl
  | cons w ws ih =>
      by_cases hws : ws = []
      · subst hws
        simp [spaced]
      · rw [spaced_cons w hws]
        simp only [List.length_cons, List.length_append]
        omega

/-- A way of writing items: what is written, and what is read there. -/
structure WritesItem (context : Context) (item : Parse Node) (w : List Char)
    (S : Node → Prop) : Prop where
  begins : ∃ first later kind, w = first ++ later ∧ kind ≠ .punct .rbrace ∧
    ∀ rest, EndsItem rest → Begins first (later ++ rest) kind
  takes : ∀ rest, EndsItem rest → Takes context item (' ' :: w) rest S

lemma WritesItem.mono {item : Parse Node} {w : List Char} {S S' : Node → Prop}
    (h : WritesItem context item w S) (hS : ∀ n, S n → S' n) : WritesItem context item w S' :=
  ⟨h.begins, fun rest hrest => (h.takes rest hrest).mono hS⟩

section Separated

variable {item : Parse Node} {S : List Char → Node → Prop}

/-- One step of the loop over items in braces. -/
def separatedStep (item : Parse Node) (items : List Node) : Parse (List Node ⊕ List Node) := do
  if ← eat .rbrace then return .inr items.reverse
  let n ← item
  if ← eat .rbrace then return .inr (n :: items).reverse
  expect .comma
  return .inl (n :: items)

lemma takes_notClosed {w : List Char} {S : Node → Prop} (h : WritesItem context item w S)
    (hrest : EndsItem rest) :
    Takes context (eat .rbrace) [] (' ' :: w ++ rest) (· = false) := by
  obtain ⟨first, later, kind, rfl, hkind, hbegins⟩ := h.begins
  have hspace := (hbegins rest hrest).space
  have heat : Takes context (eat .rbrace) [] (' ' :: first ++ (later ++ rest)) (· = false) :=
    takes_eat_of_ne hspace hkind
  rwa [List.cons_append, List.append_assoc]

/-- The last item, with the brace behind it. -/
lemma takes_lastItem {w : List Char} {S : Node → Prop} (h : WritesItem context item w S)
    (items : List Node) :
    Takes context (separatedStep item items) (' ' :: w ++ [' ', '}']) rest
      fun r => ∃ n, S n ∧ r = .inr (n :: items).reverse := by
  have hrest : EndsItem ([' ', '}'] ++ rest) := .close rest
  unfold separatedStep
  refine Takes.look (by simpa using takes_notClosed h hrest) fun closed hclosed => ?_
  rw [hclosed, if_neg (by decide)]
  refine (h.takes _ hrest).bind fun n hn => ?_
  refine (takes_eat (begins_close rest)).andThen fun closed hclosed => ?_
  rw [hclosed, if_pos rfl]
  exact .pure ⟨n, hn, rfl⟩

/-- An item that is not the last, with the comma behind it. -/
lemma takes_nextItem {w : List Char} {S : Node → Prop} (h : WritesItem context item w S)
    (items : List Node) :
    Takes context (separatedStep item items) (' ' :: w ++ [',']) rest
      fun r => ∃ n, S n ∧ r = .inl (n :: items) := by
  have hrest : EndsItem ([','] ++ rest) := .comma rest
  unfold separatedStep
  refine Takes.look (by simpa using takes_notClosed h hrest) fun closed hclosed => ?_
  rw [hclosed, if_neg (by decide)]
  refine (h.takes _ hrest).bind fun n hn => ?_
  refine (takes_eat_of_ne (begins_comma rest) (by decide)).look fun closed hclosed => ?_
  rw [hclosed, if_neg (by decide)]
  exact (takes_expect (begins_comma rest)).andThen fun _ _ => .pure ⟨n, hn, rfl⟩

lemma takes_loopUpTo {ws : List (List Char)} (hws : ws ≠ [])
    (h : ∀ w ∈ ws, WritesItem context item w (S w)) (items : List Node) {bound : ℕ}
    (hbound : ws.length ≤ bound) :
    Takes context (loopUpTo bound (separatedStep item) items) (spaced ws ++ [' ', '}']) rest
      fun ns => ∃ found, ns = items.reverse ++ found ∧ List.Forall₂ S ws found := by
  induction ws generalizing items bound with
  | nil => exact absurd rfl hws
  | cons w ws ih =>
      obtain ⟨bound, rfl⟩ : ∃ k, bound = k + 1 := ⟨bound - 1, by simp at hbound; omega⟩
      rw [List.forall_mem_cons] at h
      by_cases hlast : ws = []
      · subst hlast
        refine (takes_lastItem h.1 items).andThen fun r hr => ?_
        obtain ⟨n, hn, rfl⟩ := hr
        exact .pure ⟨[n], by simp, .cons hn .nil⟩
      · have hsplit : spaced (w :: ws) ++ [' ', '}'] =
            (' ' :: w ++ [',']) ++ (spaced ws ++ [' ', '}']) := by
          simp [spaced_cons w hlast]
        rw [hsplit]
        refine (takes_nextItem h.1 items).bind fun r hr => ?_
        obtain ⟨n, hn, rfl⟩ := hr
        have hlater := ih hlast h.2 (n :: items) (by simpa using hbound)
        refine hlater.mono fun ns hns => ?_
        obtain ⟨found, rfl, hfound⟩ := hns
        exact ⟨n :: found, by simp, .cons hn hfound⟩

/-- The text that is left bounds the number of items. -/
lemma length_le_of_writesItem {ws : List (List Char)}
    (h : ∀ w ∈ ws, WritesItem context item w (S w)) (offset lastStop : ℕ) :
    ws.length ≤ (State.before (spaced ws ++ [' ', '}'] ++ rest) offset lastStop
      context).token.start.chars.length + 2 := by
  cases ws with
  | nil => exact Nat.zero_le _
  | cons w ws =>
      by_cases hlast : ws = []
      · simp [hlast]
      · obtain ⟨first, later, kind, rfl, -, hbegins⟩ := (h w List.mem_cons_self).begins
        let behind := spaced ws ++ [' ', '}'] ++ rest
        obtain ⟨t, stop, ht, -, -, hlong⟩ := (hbegins _ (.comma behind)).space.next offset
        have htext : spaced ((first ++ later) :: ws) ++ [' ', '}'] ++ rest =
            ' ' :: first ++ (later ++ ',' :: behind) := by
          simp [spaced_cons _ hlast, behind]
        rw [State.before, htext, ht]
        have hspaced := length_le_length_spaced ws
        simp only [List.length_append, List.length_cons, behind] at hlong ⊢
        omega

/-- Items that can be written are read in a row. -/
lemma takes_separated {ws : List (List Char)} (hws : ws ≠ [])
    (h : ∀ w ∈ ws, WritesItem context item w (S w)) :
    Takes context (separated .rbrace item) (spaced ws ++ [' ', '}']) rest (List.Forall₂ S ws) := by
  intro offset lastStop
  let state : State := .before (spaced ws ++ [' ', '}'] ++ rest) offset lastStop context
  have hloop : Takes context (loopUpTo (state.token.start.chars.length + 2) (separatedStep item) [])
      (spaced ws ++ [' ', '}']) rest fun ns => ∃ found, ns = found ∧ List.Forall₂ S ws found :=
    takes_loopUpTo hws h [] (length_le_of_writesItem h offset lastStop)
  obtain ⟨ns, offset', lastStop', hrun, found, hns, hfound⟩ := hloop offset lastStop
  exact ⟨ns, offset', lastStop', hrun, hns ▸ hfound⟩

end Separated

end Grammar

end GraphMigrate.Script
