/-
The head of a script.

A script may begin with a line that names its interpreter, and its first
statements may be strings, which then are directives for all of it.  Both count
only where they are, so whatever is put in front of them takes their force.

* `interpreterLine?`, `directives`: the head of a text;
* `Token.Prologue`: the directives from a token on, and the token behind them;
* `Prologue.directivesFrom_eq`: they are the ones that are computed;
* `KeepsBeginning`, `Prologue.congr`: **the directives of a text do not depend on
  what stands behind the beginning of the token behind them**;
* `head_append`: the same of the whole head of a text;
* `keepsBeginning_append`: what keeps a beginning.
-/
import GraphMigrate.Proofs.Script.Scanning
import GraphMigrate.Proofs.Script.WrittenDeclaration
import GraphMigrate.Script.Grammar

namespace GraphMigrate.Script

/-! ### Heads -/

/-- The line that names an interpreter, if a text begins with one. -/
def interpreterLine? : List Char → Option (List Char)
  | '#' :: '!' :: cs => some ('#' :: '!' :: cs.takeWhile fun c => !isLineEnd c)
  | _ => none

/-- Whether what begins here goes on with a string on a line before: it is an operator
between two expressions, a bracket, a dot or a comma. -/
def continuesLine : List Char → Bool
  | '+' :: cs => cs.head? != some '+'
  | '-' :: cs => cs.head? != some '-'
  | '!' :: cs => cs.head? == some '='
  | '.' :: cs => !cs.head?.any Char.isDigit
  | c :: cs =>
    ['(', '[', '`', '*', '/', '%', '<', '>', '=', '&', '|', '^', '?', ':', ','].contains c ||
      ["in", "instanceof"].contains (String.ofList ((c :: cs).takeWhile isWordPart))
  | [] => false

namespace Token

/-- Whether a string begins where the token does. -/
def isString (t : Token) : Bool := t.start.chars.head?.any fun c => c == '"' || c == '\''

def isSemicolon (t : Token) : Bool := t.start.chars.head? == some ';'

/-- Whether a statement that is a string ends before the token. -/
def endsString (t : Token) : Bool :=
  t.start.chars.isEmpty || t.broken && !continuesLine t.start.chars

/-- The characters of a token. -/
def written (t : Token) : String :=
  String.ofList (t.start.chars.take (t.start.chars.length - t.after.chars.length))

end Token

/-- The statements from a token on that are strings, up to the first that is none. -/
def directivesFrom : Nat → Token → List String
  | 0, _ => []
  | fuel + 1, t =>
    if t.isString then
      let next := Token.next t.after
      if next.isSemicolon then t.written :: directivesFrom fuel (Token.next next.after)
      else if next.endsString then t.written :: directivesFrom fuel next
      else []
    else []

/-- The directives that a text begins with. -/
def directives (text : List Char) : List String :=
  directivesFrom text.length (Token.next (skipInterpreterLine ⟨0, text⟩))

/-! ### The directives from a token on -/

/-- From a token on a text has these directives, and behind them comes another token:
one that no directive begins with, or that may go on with a string. -/
inductive Token.Prologue : Token → List String → Token → Prop
  | none {t : Token} (h : t.isString = false) : Prologue t [] t
  | closed {t v : Token} {ds : List String} (hstring : t.isString = true)
      (hkind : t.kind = .quoted) (hnext : (next t.after).isSemicolon = true)
      (h : Prologue (next (next t.after).after) ds v) : Prologue t (t.written :: ds) v
  | ended {t v : Token} {ds : List String} (hstring : t.isString = true)
      (hkind : t.kind = .quoted) (hnext : (next t.after).isSemicolon = false)
      (hends : (next t.after).endsString = true) (hlater : (next t.after).isString = true)
      (h : Prologue (next t.after) ds v) : Prologue t (t.written :: ds) v
  | last {t : Token} (hstring : t.isString = true) (hkind : t.kind = .quoted)
      (hnext : (next t.after).isSemicolon = false)
      (hlast : ((next t.after).isString && (next t.after).endsString) = false) :
      Prologue t (if (next t.after).endsString then [t.written] else []) (next t.after)

/-! ### Tokens in front of what may change -/

/-- The token is the one that is read where it begins. -/
def Token.IsRead (t : Token) : Prop := read t.start = (t.kind, t.after)

namespace Token

variable {t v : Token} {ds : List String}

lemma isRead_next (c : Cursor) : (next c).IsRead := rfl

lemma IsRead.reaches (h : t.IsRead) : t.start.Reaches t.after := by
  have hreaches := read_reaches t.start
  rwa [h] at hreaches

lemma reaches_next (c : Cursor) : c.Reaches (next c).start :=
  skipGap_reaches false c.offset .code c.chars

lemma exists_quote_of_isString (h : t.isString = true) :
    ∃ quote cs, t.start.chars = quote :: cs ∧ (quote = '"' ∨ quote = '\'') := by
  rw [isString, Option.any_eq_true] at h
  obtain ⟨quote, hhead, hquote⟩ := h
  obtain ⟨cs, hcs⟩ := List.head?_eq_some_iff.mp hhead
  exact ⟨quote, cs, hcs, by simpa using hquote⟩

lemma read_string {quote : Char} (hquote : quote = '"' ∨ quote = '\'') (offset : Nat)
    (cs : List Char) : read ⟨offset, quote :: cs⟩ = readQuoted quote (offset + 1) cs := by
  rcases hquote with rfl | rfl <;> rfl

lemma read_semicolon (offset : Nat) (cs : List Char) :
    read ⟨offset, ';' :: cs⟩ = (.punct .semicolon, ⟨offset + 1, cs⟩) := rfl

lemma written_eq {p : List Char} (h : t.start.chars = p ++ t.after.chars) :
    t.written = String.ofList p := by
  rw [written, h, List.length_append, Nat.add_sub_cancel, List.take_left]

/-- A string is read from behind its opening quote, and it takes up characters. -/
lemma IsRead.exists_of_isString (h : t.IsRead) (hstring : t.isString = true) :
    ∃ quote cs, (quote = '"' ∨ quote = '\'') ∧ t.start.chars = quote :: cs ∧
      readQuoted quote (t.start.offset + 1) cs = (t.kind, t.after) ∧
      ∃ passed, cs = passed ++ t.after.chars := by
  obtain ⟨quote, cs, hcs, hquote⟩ := exists_quote_of_isString hstring
  have hsize : quote.utf8Size = 1 := by rcases hquote with rfl | rfl <;> rfl
  have hread : readQuoted quote (t.start.offset + 1) cs = (t.kind, t.after) := by
    rw [← read_string hquote, ← hcs]
    exact h
  obtain ⟨passed, hpassed, -⟩ := readQuoted_reaches quote (t.start.offset + 1) cs hsize
  rw [hread] at hpassed
  exact ⟨quote, cs, hquote, hcs, hread, passed, hpassed⟩

/-- The walk over the directives goes forward. -/
lemma Prologue.reaches (h : Prologue t ds v) (ht : t.IsRead) : t.start.Reaches v.start := by
  induction h with
  | none => exact .refl _
  | closed _ _ _ _ ih =>
      exact ht.reaches.trans ((reaches_next _).trans
        ((isRead_next _).reaches.trans ((reaches_next _).trans (ih (isRead_next _)))))
  | ended _ _ _ _ _ _ ih =>
      exact ht.reaches.trans ((reaches_next _).trans (ih (isRead_next _)))
  | last => exact ht.reaches.trans (reaches_next _)

end Token

/-- The beginning of a text is kept: what a token before it and the token itself are
told by. -/
structure KeepsBeginning (r r' : List Char) : Prop where
  nonempty : r ≠ []
  head : r'.head? = r.head?
  begins : beginsToken r = true
  begins' : beginsToken r' = true
  continues : continuesLine r' = continuesLine r
  interpreter : (interpreterLine? r').isSome → (interpreterLine? r).isSome

lemma KeepsBeginning.nonempty' {r r' : List Char} (h : KeepsBeginning r r') : r' ≠ [] := fun hnil =>
  h.nonempty (List.head?_eq_none_iff.mp (by rw [← h.head, hnil]; rfl))

namespace Token

variable {x y z r r' : List Char} {offset : Nat}

lemma next_start_append (hkeeps : KeepsBeginning r r')
    (hy : (next ⟨offset, x ++ r⟩).start.chars = y ++ r) :
    (next ⟨offset, x ++ r'⟩).start = ⟨(next ⟨offset, x ++ r⟩).start.offset, y ++ r'⟩ ∧
      (next ⟨offset, x ++ r'⟩).broken = (next ⟨offset, x ++ r⟩).broken := by
  refine next_append hkeeps.nonempty hy (beginsToken_append hkeeps.head hkeeps.begins' ?_)
  rw [← hy]
  exact beginsToken_skipGap _ _ _ _

/-- By its first character a token is told as before. -/
lemma told_append (hkeeps : KeepsBeginning r r')
    (hy : (next ⟨offset, x ++ r⟩).start.chars = y ++ r) :
    (next ⟨offset, x ++ r'⟩).isString = (next ⟨offset, x ++ r⟩).isString ∧
      (next ⟨offset, x ++ r'⟩).isSemicolon = (next ⟨offset, x ++ r⟩).isSemicolon := by
  have hstart := (next_start_append hkeeps hy).1
  have hhead := head?_append_congr y hkeeps.head
  rw [isString, isString, isSemicolon, isSemicolon, hstart, hy, hhead]
  exact ⟨rfl, rfl⟩

lemma endsString_append (hkeeps : KeepsBeginning r r')
    (hv : (next ⟨offset, x ++ r⟩).start.chars = r) :
    (next ⟨offset, x ++ r'⟩).endsString = (next ⟨offset, x ++ r⟩).endsString := by
  obtain ⟨hstart, hbroken⟩ := next_start_append (y := []) hkeeps hv
  rw [endsString, endsString, hstart, hbroken, hv, List.nil_append, hkeeps.continues,
    List.isEmpty_eq_false_iff.mpr hkeeps.nonempty, List.isEmpty_eq_false_iff.mpr hkeeps.nonempty']

/-- A string among characters that are kept is the same string. -/
lemma string_append (hkeeps : KeepsBeginning r r')
    (hstring : (next ⟨offset, x ++ r⟩).isString = true)
    (hkind : (next ⟨offset, x ++ r⟩).kind = .quoted)
    (hz : (next ⟨offset, x ++ r⟩).after.chars = z ++ r) :
    (next ⟨offset, x ++ r'⟩).isString = true ∧ (next ⟨offset, x ++ r'⟩).kind = .quoted ∧
      (next ⟨offset, x ++ r'⟩).written = (next ⟨offset, x ++ r⟩).written ∧
      (next ⟨offset, x ++ r'⟩).after = ⟨(next ⟨offset, x ++ r⟩).after.offset, z ++ r'⟩ := by
  have hread := isRead_next ⟨offset, x ++ r⟩
  have hread' := isRead_next ⟨offset, x ++ r'⟩
  obtain ⟨quote, cs, hquote, hstart, hquoted, passed, hpassed⟩ := hread.exists_of_isString hstring
  rw [hkind, hpassed, hz, ← List.append_assoc] at hquoted
  have hy : (next ⟨offset, x ++ r⟩).start.chars = (quote :: passed ++ z) ++ r := by
    rw [hstart, hpassed, hz]
    simp
  obtain ⟨hstart', -⟩ := next_start_append hkeeps hy
  have hquoted' := readQuoted_append hquote hkeeps.nonempty hkeeps.head hkeeps.begins
    hquoted hz
  rw [IsRead, hstart', List.cons_append, List.cons_append, read_string hquote, hquoted'] at hread'
  obtain ⟨hkind', hafter'⟩ := Prod.mk.inj hread'
  refine ⟨?_, hkind'.symm, ?_, hafter'.symm⟩
  · rw [isString, hstart']
    rcases hquote with rfl | rfl <;> rfl
  · rw [written_eq (p := quote :: passed) (by rw [← hafter', hstart']; simp),
      written_eq (p := quote :: passed) (by rw [hz, hy]; simp)]

lemma semicolon_append (hkeeps : KeepsBeginning r r')
    (hsemicolon : (next ⟨offset, x ++ r⟩).isSemicolon = true)
    (hz : (next ⟨offset, x ++ r⟩).after.chars = z ++ r) :
    (next ⟨offset, x ++ r'⟩).isSemicolon = true ∧
      (next ⟨offset, x ++ r'⟩).after = ⟨(next ⟨offset, x ++ r⟩).after.offset, z ++ r'⟩ := by
  have hread := isRead_next ⟨offset, x ++ r⟩
  have hread' := isRead_next ⟨offset, x ++ r'⟩
  obtain ⟨cs, hstart⟩ := List.head?_eq_some_iff.mp (eq_of_beq hsemicolon)
  generalize hcursor : (next ⟨offset, x ++ r⟩).start = cursor at hread hstart
  obtain ⟨at', chars⟩ := cursor
  dsimp only at hstart
  subst hstart
  rw [IsRead, hcursor, read_semicolon] at hread
  obtain ⟨-, hafter⟩ := Prod.mk.inj hread
  rw [← hafter] at hz ⊢
  dsimp only at hz
  have hy : (next ⟨offset, x ++ r⟩).start.chars = (';' :: z) ++ r := by rw [hcursor, hz]; rfl
  obtain ⟨hstart', -⟩ := next_start_append hkeeps hy
  rw [IsRead, hstart', List.cons_append, read_semicolon] at hread'
  obtain ⟨-, hafter'⟩ := Prod.mk.inj hread'
  rw [hcursor] at hafter'
  exact ⟨by rw [isSemicolon, hstart']; rfl, hafter'.symm⟩

lemma exists_append_of_reaches {c d : Cursor} (h : c.Reaches d) :
    ∃ passed, c = ⟨c.offset, passed ++ d.chars⟩ := by
  obtain ⟨passed, hpassed, -⟩ := h
  exact ⟨passed, by rw [← hpassed]⟩

lemma length_le_of_reaches {c d : Cursor} (h : c.Reaches d) :
    d.chars.length ≤ c.chars.length := by
  obtain ⟨passed, hpassed, -⟩ := h
  rw [hpassed, List.length_append]
  omega

lemma continuesLine_of_isString {t : Token} (h : t.isString = true) :
    continuesLine t.start.chars = false := by
  obtain ⟨quote, cs, hcs, hquote⟩ := exists_quote_of_isString h
  rw [hcs]
  rcases hquote with rfl | rfl <;> rfl

lemma endsString_of_isString {t : Token} (h : t.isString = true) : t.endsString = t.broken := by
  obtain ⟨quote, cs, hcs, -⟩ := exists_quote_of_isString h
  rw [endsString, continuesLine_of_isString h, hcs]
  simp

/-- Which directives begin at a token does not depend on what stands behind the
beginning of the token behind them. -/
lemma Prologue.congr {t v : Token} {ds : List String} (h : Prologue t ds v)
    (hkeeps : KeepsBeginning r r') (hv : v.start.chars = r) {offset : Nat} {x : List Char}
    (ht : t = next ⟨offset, x ++ r⟩) : ∃ v', Prologue (next ⟨offset, x ++ r'⟩) ds v' := by
  induction h generalizing offset x with
  | @none t h =>
      subst ht
      obtain ⟨hstart, -⟩ := next_start_append (y := []) hkeeps hv
      refine ⟨_, .none ?_⟩
      rw [isString, hv] at h
      rw [isString, hstart, List.nil_append, hkeeps.head, h]
  | @closed t v ds hstring hkind hnext h ih =>
      have hlater := (reaches_next _).trans (h.reaches (isRead_next _))
      obtain ⟨z, hz⟩ := exists_append_of_reaches hlater
      obtain ⟨z', hz'⟩ := exists_append_of_reaches
        ((reaches_next _).trans ((isRead_next t.after).reaches.trans hlater))
      rw [hv] at hz hz'
      subst ht
      obtain ⟨hstring', hkind', hwritten, hafter⟩ :=
        string_append hkeeps hstring hkind (congrArg Cursor.chars hz')
      rw [hz'] at hnext hz
      obtain ⟨hnext', hafter'⟩ := semicolon_append hkeeps hnext (congrArg Cursor.chars hz)
      rw [hz', hz] at ih
      obtain ⟨v', hv'⟩ := ih hv rfl
      rw [← hwritten]
      refine ⟨v', .closed hstring' hkind' ?_ ?_⟩
      · rwa [hafter]
      · rwa [hafter, hafter']
  | @ended t v ds hstring hkind hnext hends hlater h ih =>
      obtain ⟨z, hz⟩ := exists_append_of_reaches (h.reaches (isRead_next _))
      obtain ⟨z', hz'⟩ := exists_append_of_reaches
        ((reaches_next _).trans (h.reaches (isRead_next _)))
      rw [hv] at hz hz'
      subst ht
      obtain ⟨hstring', hkind', hwritten, hafter⟩ :=
        string_append hkeeps hstring hkind (congrArg Cursor.chars hz')
      rw [hz'] at hnext hends hlater hz ih
      have hbroken := (next_start_append hkeeps (congrArg Cursor.chars hz)).2
      obtain ⟨hstring'', hsemicolon⟩ := told_append hkeeps (congrArg Cursor.chars hz)
      rw [← hstring''] at hlater
      rw [← hsemicolon] at hnext
      rw [endsString_of_isString (hstring'' ▸ hlater), ← hbroken] at hends
      obtain ⟨v', hv'⟩ := ih hv rfl
      rw [← hwritten]
      refine ⟨v', .ended hstring' hkind' ?_ ?_ ?_ ?_⟩ <;> rw [hafter]
      · exact hnext
      · rw [endsString_of_isString hlater, hends]
      · exact hlater
      · exact hv'
  | @last t hstring hkind hnext hlast =>
      obtain ⟨z', hz'⟩ := exists_append_of_reaches (reaches_next t.after)
      rw [hv] at hz'
      subst ht
      obtain ⟨hstring', hkind', hwritten, hafter⟩ :=
        string_append hkeeps hstring hkind (congrArg Cursor.chars hz')
      rw [hz'] at hnext hlast hv ⊢
      obtain ⟨hstring'', hsemicolon⟩ := told_append (y := []) hkeeps hv
      have hends := endsString_append hkeeps hv
      rw [← hwritten, ← hends]
      rw [← hstring'', ← hends] at hlast
      rw [← hsemicolon] at hnext
      have hprologue := Prologue.last hstring' hkind' (hafter ▸ hnext) (hafter ▸ hlast)
      rw [hafter] at hprologue
      exact ⟨_, hprologue⟩

/-- The directives that begin at a token are the ones that are computed. -/
lemma Prologue.directivesFrom_eq {t v : Token} {ds : List String} (h : Prologue t ds v)
    (ht : t.IsRead) {fuel : Nat} (hfuel : t.start.chars.length ≤ fuel) :
    directivesFrom fuel t = ds := by
  have hstep {t : Token} {fuel : Nat} (ht : t.IsRead) (hstring : t.isString = true)
      (hfuel : t.start.chars.length ≤ fuel) :
      ∃ less, fuel = less + 1 ∧ t.after.chars.length ≤ less := by
    obtain ⟨quote, cs, -, hcs, -, passed, hpassed⟩ := ht.exists_of_isString hstring
    have hlength := congrArg List.length hpassed
    rw [List.length_append] at hlength
    rw [hcs, List.length_cons] at hfuel
    exact ⟨fuel - 1, by omega, by omega⟩
  have hnone {t : Token} {fuel : Nat} (h : t.isString = false) : directivesFrom fuel t = [] := by
    cases fuel with
    | zero => rfl
    | succ fuel => rw [directivesFrom, h]; rfl
  induction h generalizing fuel with
  | none h => exact hnone h
  | closed hstring hkind hnext h ih =>
      obtain ⟨less, rfl, hless⟩ := hstep ht hstring hfuel
      rw [directivesFrom, if_pos hstring, if_pos hnext, ih (isRead_next _)]
      exact (length_le_of_reaches (reaches_next _)).trans ((length_le_of_reaches
        ((reaches_next _).trans (isRead_next _).reaches)).trans hless)
  | ended hstring hkind hnext hends hlater h ih =>
      obtain ⟨less, rfl, hless⟩ := hstep ht hstring hfuel
      rw [directivesFrom, if_pos hstring, if_neg (by simp [hnext]), if_pos hends,
        ih (isRead_next _)]
      exact (length_le_of_reaches (reaches_next _)).trans hless
  | @last t hstring hkind hnext hlast =>
      obtain ⟨less, rfl, -⟩ := hstep ht hstring hfuel
      rw [directivesFrom, if_pos hstring, if_neg (by simp [hnext])]
      split
      next hends =>
        rw [hends, Bool.and_true] at hlast
        rw [hnone hlast]
      next => rfl

end Token

/-! ### Heads of whole texts -/

lemma skipInterpreterLine_reaches (c : Cursor) : c.Reaches (skipInterpreterLine c) := by
  unfold skipInterpreterLine
  split
  · exact Cursor.reaches_skipWhile _ _
  · exact .refl _

/-- A line that names an interpreter ends where a line ends. -/
lemma skipInterpreterLine_append {line rest : List Char}
    (hline : ∀ c ∈ line, (!isLineEnd c) = true)
    (hrest : ∀ c ∈ rest.head?, (!isLineEnd c) = false) :
    skipInterpreterLine ⟨0, '#' :: '!' :: line ++ rest⟩ =
        ⟨byteLength ('#' :: '!' :: line), rest⟩ ∧
      interpreterLine? ('#' :: '!' :: line ++ rest) = some ('#' :: '!' :: line) := by
  have hpassed : ∀ c ∈ '#' :: '!' :: line, (!isLineEnd c) = true := by
    simp only [List.mem_cons]
    rintro c (rfl | rfl | hc)
    · rfl
    · rfl
    · exact hline c hc
  constructor
  · change (Cursor.takeWhile (fun c => !isLineEnd c) 0 ('#' :: '!' :: line ++ rest)).2 = _
    rw [takeWhile_append hpassed hrest, Nat.zero_add]
  · have hstop : rest.takeWhile (fun c => !isLineEnd c) = [] := by
      cases rest with
      | nil => rfl
      | cons c rest => rw [List.takeWhile_cons, hrest c rfl]; rfl
    rw [List.cons_append, List.cons_append, interpreterLine?,
      List.takeWhile_append_of_pos hline, hstop, List.append_nil]

/-- Where there is a line that names an interpreter, it is what is skipped. -/
lemma exists_line_of_interpreterLine? {text line : List Char}
    (h : interpreterLine? text = some line) : ∃ cs rest, line = '#' :: '!' :: cs ∧
      text = '#' :: '!' :: cs ++ rest ∧ (∀ c ∈ cs, (!isLineEnd c) = true) ∧
      ∀ c ∈ rest.head?, (!isLineEnd c) = false := by
  unfold interpreterLine? at h
  split at h
  next cs =>
    cases h
    refine ⟨cs.takeWhile fun c => !isLineEnd c, cs.dropWhile fun c => !isLineEnd c, rfl, ?_,
      fun c hc => List.mem_takeWhile_imp (p := fun c => !isLineEnd c) hc, fun c hc => ?_⟩
    · rw [List.cons_append, List.cons_append, List.takeWhile_append_dropWhile]
    · obtain ⟨rest, hrest⟩ := List.head?_eq_some_iff.mp hc
      have hhead := List.head_dropWhile_not (p := fun c => !isLineEnd c) (l := cs) (by simp [hrest])
      simpa [hrest] using hhead
  next => cases h

lemma interpreterLine?_isSome_iff {text : List Char} :
    (interpreterLine? text).isSome ↔ text.head? = some '#' ∧ text.tail.head? = some '!' := by
  unfold interpreterLine?
  split
  · simp
  next hne =>
    simp only [Option.isSome_none, Bool.false_eq_true, false_iff, not_and]
    intro hhead htail
    obtain ⟨cs, rfl⟩ := List.head?_eq_some_iff.mp hhead
    obtain ⟨ds, rfl⟩ := List.head?_eq_some_iff.mp htail
    exact hne ds rfl

lemma skipInterpreterLine_of_none {text : List Char} (h : interpreterLine? text = none) :
    skipInterpreterLine ⟨0, text⟩ = ⟨0, text⟩ := by
  unfold skipInterpreterLine
  split
  next cs heq =>
    dsimp only at heq
    rw [heq, interpreterLine?] at h
    cases h
  next => rfl

variable {pre r r' : List Char} {v : Token} {ds : List String}

/-- The line that names an interpreter does not depend on what stands behind the
beginning of a token behind it. -/
lemma interpreterLine?_append (hkeeps : KeepsBeginning r r') {x : List Char}
    (hx : (skipInterpreterLine ⟨0, pre ++ r⟩).chars = x ++ r) :
    skipInterpreterLine ⟨0, pre ++ r'⟩ = ⟨(skipInterpreterLine ⟨0, pre ++ r⟩).offset, x ++ r'⟩ ∧
      interpreterLine? (pre ++ r') = interpreterLine? (pre ++ r) := by
  cases hline : interpreterLine? (pre ++ r) with
  | some line =>
      obtain ⟨cs, rest, rfl, htext, hcs, hrest⟩ := exists_line_of_interpreterLine? hline
      obtain ⟨hskip, -⟩ := skipInterpreterLine_append hcs hrest
      rw [htext, hskip] at hx ⊢
      dsimp only at hx
      subst hx
      rw [← List.append_assoc] at htext
      obtain rfl := List.append_cancel_right htext
      rw [head?_append_congr x hkeeps.head.symm] at hrest
      rw [List.append_assoc]
      exact skipInterpreterLine_append hcs hrest
  | none =>
      rw [skipInterpreterLine_of_none hline] at hx ⊢
      obtain rfl := List.append_cancel_right hx
      have hline' : interpreterLine? (pre ++ r') = none := by
        rw [← Option.not_isSome_iff_eq_none] at hline ⊢
        match pre with
        | [] => exact fun hsome => hline (hkeeps.interpreter hsome)
        | [c] =>
            rw [interpreterLine?_isSome_iff] at hline ⊢
            simpa [hkeeps.head] using hline
        | c :: d :: pre =>
            rw [interpreterLine?_isSome_iff] at hline ⊢
            simpa using hline
      exact ⟨skipInterpreterLine_of_none hline', hline'⟩

/-- The head of a text does not depend on what stands behind the beginning of the
token behind it. -/
theorem head_append (hkeeps : KeepsBeginning r r')
    (h : Token.Prologue (Token.next (skipInterpreterLine ⟨0, pre ++ r⟩)) ds v)
    (hv : v.start.chars = r) :
    interpreterLine? (pre ++ r') = interpreterLine? (pre ++ r) ∧
      directives (pre ++ r') = directives (pre ++ r) := by
  have hcomputed {text : List Char} {v : Token}
      (h : Token.Prologue (Token.next (skipInterpreterLine ⟨0, text⟩)) ds v) :
      directives text = ds :=
    h.directivesFrom_eq (Token.isRead_next _) (Token.length_le_of_reaches
      ((skipInterpreterLine_reaches _).trans (Token.reaches_next _)))
  obtain ⟨x, hx⟩ := Token.exists_append_of_reaches
    ((Token.reaches_next _).trans (h.reaches (Token.isRead_next _)))
  rw [hv] at hx
  obtain ⟨hskip, hline⟩ := interpreterLine?_append hkeeps (congrArg Cursor.chars hx)
  rw [hcomputed h]
  rw [hx] at h
  obtain ⟨v', hv'⟩ := h.congr hkeeps hv rfl
  rw [← hskip] at hv'
  exact ⟨hline, hcomputed hv'⟩

/-! ### What keeps a beginning -/

/-- Characters whose meaning at a beginning depends on the character behind them. -/
def isPaired (c : Char) : Bool := ['/', '+', '-', '!', '.', '#'].contains c

lemma continuesLine_of_not_mem {c : Char} (h : c ∉ ['+', '-', '!', '.']) (cs : List Char) :
    continuesLine (c :: cs) =
      (['(', '[', '`', '*', '/', '%', '<', '>', '=', '&', '|', '^', '?', ':', ','].contains c ||
        ["in", "instanceof"].contains (String.ofList ((c :: cs).takeWhile isWordPart))) := by
  simp only [List.mem_cons, List.not_mem_nil, or_false, not_or] at h
  obtain ⟨hplus, hminus, hbang, hdot⟩ := h
  rw [continuesLine]
  · exact hplus
  · exact hminus
  · exact hbang
  · exact hdot

lemma takeWhile_append_congr {p s s' : List Char} {q : Char → Bool}
    (h : (∃ c ∈ p, q c = false) ∨ (∀ c ∈ s.head?, q c = false) ∧ ∀ c ∈ s'.head?, q c = false) :
    (p ++ s').takeWhile q = (p ++ s).takeWhile q := by
  have hstop {s : List Char} (h : ∀ c ∈ s.head?, q c = false) : s.takeWhile q = [] := by
    cases s with
    | nil => rfl
    | cons c s => rw [List.takeWhile_cons, h c rfl]; rfl
  rw [List.takeWhile_append, List.takeWhile_append]
  rcases h with ⟨c, hc, hq⟩ | ⟨hs, hs'⟩
  · have hne : (p.takeWhile q).length ≠ p.length := fun heq => by
      have hall := (List.takeWhile_prefix q).eq_of_length heq
      rw [← hall] at hc
      exact absurd (List.mem_takeWhile_imp hc) (by simp [hq])
    rw [if_neg hne, if_neg hne]
  · rw [hstop hs, hstop hs']

/-- Two texts begin alike if they begin with the same characters, and if what tells
their beginning ends there. -/
lemma keepsBeginning_append {p s s' : List Char} (hp : p ≠ [])
    (hbegins : beginsToken (p ++ s) = true) (hpair : ∀ c, p = [c] → isPaired c = false)
    (hword : (∃ c ∈ p, isWordPart c = false) ∨
      (∀ c ∈ s.head?, isWordPart c = false) ∧ ∀ c ∈ s'.head?, isWordPart c = false) :
    KeepsBeginning (p ++ s) (p ++ s') := by
  have htake := takeWhile_append_congr hword
  cases p with
  | nil => exact absurd rfl hp
  | cons c p =>
      cases p with
      | nil =>
          have hc : c ∉ ['/', '+', '-', '!', '.', '#'] := by
            simpa [isPaired] using hpair c rfl
          have hplain : c ∉ ['+', '-', '!', '.'] := fun h => hc (List.mem_cons_of_mem _ (by
            simp only [List.mem_cons, List.not_mem_nil, or_false] at h ⊢
            tauto))
          refine ⟨List.cons_ne_nil _ _, rfl, hbegins, ?_, ?_, fun h => ?_⟩
          · simp only [List.mem_cons, not_or] at hc
            simpa [beginsToken, hc.1] using hbegins
          · rw [List.cons_append, List.cons_append] at htake ⊢
            rw [continuesLine_of_not_mem hplain, continuesLine_of_not_mem hplain, htake]
          · obtain ⟨hhash, -⟩ := interpreterLine?_isSome_iff.mp h
            cases hhash
            exact absurd (by simp) hc
      | cons d p =>
          refine ⟨List.cons_ne_nil _ _, rfl, hbegins, hbegins, ?_, fun h => ?_⟩
          · simp only [List.cons_append] at htake ⊢
            by_cases hc : c ∈ ['+', '-', '!', '.']
            · simp only [List.mem_cons, List.not_mem_nil, or_false] at hc
              rcases hc with rfl | rfl | rfl | rfl <;> rfl
            · rw [continuesLine_of_not_mem hc, continuesLine_of_not_mem hc, htake]
          · rw [interpreterLine?_isSome_iff] at h ⊢
            exact h

end GraphMigrate.Script
