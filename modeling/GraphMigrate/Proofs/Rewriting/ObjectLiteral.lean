/-
Object literals from which entries are removed.

Between the braces of an object literal entries are separated by commas,
with white space and comments anywhere between.  Removing an entry takes
the comma behind it along if nothing but spaces and tabs stand before that
comma; only then is what is left an object literal again.

* `ObjectBody`: the text between the braces, cut at entries and commas;
* `removalSpan_takes_comma`, `removalSpan_leaves_comma`: what is removed
  with an entry, up to the rest of its line;
* `exists_append_of_lineRest`: what is removed before an entry begins behind
  what was removed with the one before;
* `LeavesObject`, `leavesObject_of_isWritten`: the text with some entries
  removed;
* `removed_entries_leave_object_iff`: **removing entries leaves an object
  literal of the others exactly if every comma that has to go is close to
  its entry**.
-/
import GraphMigrate.Proofs.Rewriting.RemovalSpan
import GraphMigrate.Proofs.Script.Trivia
import GraphMigrate.Proofs.Text.Nesting

namespace GraphMigrate

open Script (endsGap isTrivia)

/-- The text between the braces of an object literal. -/
inductive ObjectBody where
  /-- No entry, or none behind the last comma. -/
  | done (gap : List Char)
  /-- An entry without a comma behind it. -/
  | last (lead entry trail : List Char)
  /-- An entry with a comma behind it. -/
  | more (lead entry trail : List Char) (rest : ObjectBody)
  deriving DecidableEq, Repr

/-- An entry of an object literal where it stands in a script. -/
structure PlacedEntry where
  span : Span
  text : List Char
  /-- What stands between the entry and the comma behind it, if there is
  one. -/
  beforeComma? : Option (List Char)
  deriving DecidableEq, Repr

/-- A text that an entry may be: no comma, and no white space or comment,
stands at its ends. -/
def isEntryText (entry : List Char) : Bool :=
  entry.head?.any (fun c => endsGap c && !isFiller c) && entry.getLast?.any (!isFiller ·)

namespace ObjectBody

/-- The body as it is written. -/
def text : ObjectBody → List Char
  | done gap => gap
  | last lead entry trail => lead ++ entry ++ trail
  | more lead entry trail rest => lead ++ entry ++ trail ++ ',' :: rest.text

/-- The entries of the body. -/
def entries : ObjectBody → List (List Char)
  | done _ => []
  | last _ entry _ => [entry]
  | more _ entry _ rest => entry :: rest.entries

/-- White space and comments stand around the entries, and nothing else. -/
def isWritten : ObjectBody → Bool
  | done gap => isTrivia gap
  | last lead entry trail => isTrivia lead && isEntryText entry && isTrivia trail
  | more lead entry trail rest =>
    isTrivia lead && isEntryText entry && isTrivia trail && rest.isWritten

/-- The entries of a body that begins at an offset. -/
def placed (offset : Nat) : ObjectBody → List PlacedEntry
  | done _ => []
  | last lead entry _ =>
    [⟨⟨offset + byteLength lead, offset + byteLength (lead ++ entry)⟩, entry, none⟩]
  | more lead entry trail rest =>
    ⟨⟨offset + byteLength lead, offset + byteLength (lead ++ entry)⟩, entry, some trail⟩ ::
      rest.placed (offset + byteLength (lead ++ entry ++ trail ++ [',']))

/-- White space and comments at the start of the body. -/
def gap : ObjectBody → List Char
  | done gap => gap
  | last lead _ _ => lead
  | more lead _ _ _ => lead

/-- The body behind its first gap. -/
def behindGap : ObjectBody → List Char
  | done _ => []
  | last _ entry trail => entry ++ trail
  | more _ entry trail rest => entry ++ trail ++ ',' :: rest.text

/-- The body with another gap at its start. -/
def withGap (gap : List Char) : ObjectBody → ObjectBody
  | done _ => done gap
  | last _ entry trail => last gap entry trail
  | more _ entry trail rest => more gap entry trail rest

section Gaps

variable {body : ObjectBody}

lemma gap_append_behindGap (body : ObjectBody) : body.gap ++ body.behindGap = body.text := by
  cases body <;> simp [gap, behindGap, text]

@[simp] lemma gap_withGap (gap : List Char) (body : ObjectBody) : (body.withGap gap).gap = gap := by
  cases body <;> rfl

@[simp] lemma behindGap_withGap (gap : List Char) (body : ObjectBody) :
    (body.withGap gap).behindGap = body.behindGap := by
  cases body <;> rfl

@[simp] lemma entries_withGap (gap : List Char) (body : ObjectBody) :
    (body.withGap gap).entries = body.entries := by
  cases body <;> rfl

lemma isTrivia_gap (h : body.isWritten = true) : isTrivia body.gap = true := by
  cases body <;> simp only [isWritten, Bool.and_eq_true] at h <;> simp [gap, h]

lemma isWritten_withGap {gap : List Char} (hgap : isTrivia gap = true)
    (h : body.isWritten = true) : (body.withGap gap).isWritten = true := by
  cases body <;> simp only [isWritten, Bool.and_eq_true] at h <;> simp [withGap, isWritten, hgap, h]

end Gaps

end ObjectBody

/-! ### The first and the last character of an entry -/

/-- An entry begins with a character that ends a gap and is no filler. -/
lemma exists_cons_of_isEntryText {entry : List Char} (h : isEntryText entry = true) :
    ∃ c cs, entry = c :: cs ∧ endsGap c = true ∧ isFiller c = false := by
  rw [isEntryText, Bool.and_eq_true, Option.any_eq_true] at h
  obtain ⟨⟨c, hc, hends⟩, -⟩ := h
  obtain ⟨cs, rfl⟩ := List.head?_eq_some_iff.mp hc
  rw [Bool.and_eq_true, Bool.not_eq_true'] at hends
  exact ⟨c, cs, rfl, hends⟩

/-- Behind the first gap of a body, and of what closes it, no gap goes on. -/
lemma ObjectBody.exists_behindGap {body : ObjectBody} (h : body.isWritten = true)
    (after : List Char) : ∃ c rest, body.behindGap ++ '\x7d' :: after = c :: rest ∧
      endsGap c = true ∧ isFiller c = false := by
  cases body with
  | done gap => exact ⟨'\x7d', after, rfl, by decide, by decide⟩
  | last lead entry trail =>
      simp only [isWritten, Bool.and_eq_true] at h
      obtain ⟨c, cs, rfl, hc⟩ := exists_cons_of_isEntryText h.1.2
      exact ⟨c, _, rfl, hc⟩
  | more lead entry trail rest =>
      simp only [isWritten, Bool.and_eq_true] at h
      obtain ⟨c, cs, rfl, hc⟩ := exists_cons_of_isEntryText h.1.1.2
      exact ⟨c, _, rfl, hc⟩

/-- What is removed at the start of a body is white space of its first gap. -/
lemma ObjectBody.exists_gap_eq {body : ObjectBody} (h : body.isWritten = true)
    {passed behind after : List Char} (hpassed : ∀ c ∈ passed, isBlank c = true)
    (heq : body.text ++ '\x7d' :: after = passed ++ behind) :
    ∃ gap, body.gap = passed ++ gap ∧ behind = gap ++ body.behindGap ++ '\x7d' :: after := by
  obtain ⟨c, cs, hcs, -, hc⟩ := body.exists_behindGap h after
  rw [isFiller, Bool.or_eq_false_iff] at hc
  have hsplit : passed ++ behind = body.gap ++ ([c] ++ cs) := by
    rw [← heq, List.singleton_append, ← hcs, ← List.append_assoc, gap_append_behindGap]
  obtain ⟨gap, hgap⟩ := exists_append_of_run hsplit hpassed ⟨c, rfl, hc.1⟩
  refine ⟨gap, hgap, ?_⟩
  rw [hgap, List.singleton_append, ← hcs, List.append_assoc, List.append_right_inj] at hsplit
  rw [hsplit, List.append_assoc]

/-! ### What is left without an entry -/

section Left

/-- What is left can be an object literal of some entries. -/
def IsObjectOf (entries : List (List Char)) (text : List Char) : Prop :=
  ∃ left : ObjectBody, left.isWritten = true ∧ left.text = text ∧ left.entries = entries

variable {es : List (List Char)} {lead entry trail gap result : List Char}

/-- An entry that stays may be put in front. -/
lemma isObjectOf_cons_iff (hlead : isTrivia lead = true) (hentry : isEntryText entry = true)
    (htrail : isTrivia trail = true) :
    IsObjectOf (entry :: es) (lead ++ entry ++ trail ++ ',' :: result) ↔ IsObjectOf es result := by
  constructor
  · rintro ⟨left, hwritten, htext, hentries⟩
    obtain ⟨c, cs, rfl, hc, -⟩ := exists_cons_of_isEntryText hentry
    cases left with
    | done gap => cases hentries
    | last lead' entry' trail' =>
        -- the comma would lie in the white space behind the entry
        obtain rfl : entry' = c :: cs := List.head_eq_of_cons_eq hentries
        simp only [ObjectBody.isWritten, Bool.and_eq_true] at hwritten
        simp only [ObjectBody.text, List.append_assoc, List.cons_append] at htext
        obtain ⟨-, -, hrest⟩ := Script.append_inj_of_isTrivia htext hwritten.1.1 hlead hc hc
        rw [List.append_right_inj] at hrest
        have hcomma := hwritten.2
        rw [hrest, Script.isTrivia_append htrail, Script.isTrivia_cons_of_endsGap (by decide)]
          at hcomma
        cases hcomma
    | more lead' entry' trail' rest =>
        obtain ⟨rfl, hes⟩ : entry' = c :: cs ∧ rest.entries = es := List.cons_eq_cons.mp hentries
        simp only [ObjectBody.isWritten, Bool.and_eq_true] at hwritten
        simp only [ObjectBody.text, List.append_assoc, List.cons_append] at htext
        obtain ⟨-, -, hrest⟩ := Script.append_inj_of_isTrivia htext hwritten.1.1.1 hlead hc hc
        rw [List.append_right_inj] at hrest
        obtain ⟨-, -, hresult⟩ := Script.append_inj_of_isTrivia hrest hwritten.1.2 htrail
          (by decide) (by decide)
        exact ⟨rest, hwritten.2, hresult, hes⟩
  · rintro ⟨left, hwritten, rfl, rfl⟩
    exact ⟨.more lead entry trail left, by simp [ObjectBody.isWritten, hlead, hentry, htrail,
      hwritten], rfl, rfl⟩

/-- White space and comments may be put in front. -/
lemma isObjectOf_append_iff (hgap : isTrivia gap = true) :
    IsObjectOf es (gap ++ result) ↔ IsObjectOf es result := by
  constructor
  · rintro ⟨left, hwritten, htext, hentries⟩
    obtain ⟨c, rest, hrest, hc, -⟩ := left.exists_behindGap hwritten []
    have hsplit : gap ++ (result ++ ['\x7d']) = left.gap ++ c :: rest := by
      rw [← hrest, ← List.append_assoc, ← List.append_assoc, left.gap_append_behindGap, htext]
    obtain ⟨more, -, hmore, htrivia⟩ := Script.exists_append_of_isTrivia hsplit hgap
      (left.isTrivia_gap hwritten) hc
    refine ⟨left.withGap more, left.isWritten_withGap htrivia hwritten, ?_, by simp [hentries]⟩
    rw [← hrest, ← List.append_assoc] at hmore
    rw [← ObjectBody.gap_append_behindGap, ObjectBody.gap_withGap, ObjectBody.behindGap_withGap]
    exact (List.append_left_inj _).mp hmore.symm
  · rintro ⟨left, hwritten, rfl, rfl⟩
    refine ⟨left.withGap (gap ++ left.gap), left.isWritten_withGap ?_ hwritten, ?_, by simp⟩
    · rw [Script.isTrivia_append hgap, left.isTrivia_gap hwritten]
    · rw [← ObjectBody.gap_append_behindGap, ObjectBody.gap_withGap, ObjectBody.behindGap_withGap,
        List.append_assoc, left.gap_append_behindGap]

/-- A comma may not be put in front. -/
lemma not_isObjectOf_comma (hgap : isTrivia gap = true) :
    ¬ IsObjectOf es (gap ++ ',' :: result) := by
  rintro ⟨left, hwritten, htext, -⟩
  obtain ⟨c, rest, hrest, hc, hfiller⟩ := left.exists_behindGap hwritten []
  have hsplit : left.gap ++ c :: rest = gap ++ ',' :: (result ++ ['\x7d']) := by
    rw [← hrest, ← List.append_assoc, left.gap_append_behindGap, htext, List.append_assoc,
      List.cons_append]
  obtain ⟨-, rfl, -⟩ := Script.append_inj_of_isTrivia hsplit (left.isTrivia_gap hwritten) hgap hc
    (by decide)
  cases hfiller

end Left

/-! ### What is removed with an entry -/

/-- Spaces and tabs are white space of a script. -/
lemma isLineEnd_or_isGap_of_isInlineBlank {c : Char} (h : isInlineBlank c = true) :
    (Script.isLineEnd c || Script.isGap c) = true := by
  rw [isInlineBlank, Bool.or_eq_true, beq_iff_eq, beq_iff_eq] at h
  rcases h with rfl | rfl <;> rfl

/-- The rest of a line: spaces and tabs, and the line end if there is one. -/
def IsLineRest (passed : List Char) : Prop :=
  ∃ blanks ending, passed = blanks ++ ending ∧ (∀ c ∈ blanks, isInlineBlank c = true) ∧
    (ending = [] ∨ ending = ['\n'] ∨ ending = ['\r', '\n'])

lemma isTrivia_of_isLineRest {passed : List Char} (h : IsLineRest passed) :
    isTrivia passed = true := by
  obtain ⟨blanks, ending, rfl, hblanks, hending⟩ := h
  have hgap : isTrivia blanks = true :=
    Script.isTrivia_of_forall fun c hc => isLineEnd_or_isGap_of_isInlineBlank (hblanks c hc)
  rw [Script.isTrivia_append hgap]
  rcases hending with rfl | rfl | rfl <;> rfl

lemma isBlank_of_isLineRest {passed : List Char} (h : IsLineRest passed) :
    ∀ c ∈ passed, isBlank c = true := by
  obtain ⟨blanks, ending, rfl, hblanks, hending⟩ := h
  intro c hc
  rcases List.mem_append.mp hc with hc | hc
  · have hone := hblanks c hc
    rw [isInlineBlank, Bool.or_eq_true, beq_iff_eq, beq_iff_eq] at hone
    rcases hone with rfl | rfl <;> rfl
  · rcases hending with rfl | rfl | rfl
    · cases hc
    · rw [List.mem_singleton.mp hc]
      rfl
    · simp only [List.mem_cons, List.not_mem_nil, or_false] at hc
      rcases hc with rfl | rfl <;> rfl

lemma newline_notMem_of_isLineRest {passed : List Char} (h : IsLineRest passed) :
    '\n' ∉ passed.dropLast := by
  obtain ⟨blanks, ending, rfl, hblanks, hending⟩ := h
  have hrun : '\n' ∉ blanks := fun hmem => ne_newline_of_isInlineBlank (hblanks _ hmem) rfl
  rcases hending with rfl | hending
  · rw [List.append_nil]
    exact fun hmem => hrun (List.mem_of_mem_dropLast hmem)
  · exact newline_notMem_dropLast hrun (Or.inr hending)

/-- The span of a part of a text. -/
abbrev spanBehind (before inside : List Char) : Span :=
  ⟨byteLength before, byteLength (before ++ inside)⟩

/-- A text that does not end in white space. -/
def EndsSolid (head : List Char) : Prop := ∃ c, head.getLast? = some c ∧ isBlank c = false

/-- White space that is removed in front of an entry, if any: it begins a
line. -/
def StartsLine (front indent : List Char) : Prop :=
  (∀ c ∈ indent, isBlank c = true ∧ c ≠ '\n') ∧ (indent = [] ∨ front.getLast? = some '\n')

section Removal

variable {head gap entry trail later : List Char}

/-- White space at the end of a text lies behind its last other character. -/
lemma exists_append_of_endsSolid {pre indent gap : List Char} (h : head ++ gap = pre ++ indent)
    (hhead : EndsSolid head) (hindent : ∀ c ∈ indent, isBlank c = true) :
    ∃ front, pre = head ++ front ∧ gap = front ++ indent := by
  rcases List.append_eq_append_iff.mp h with ⟨front, hpre, hgap⟩ | ⟨more, hmore, hindent'⟩
  · exact ⟨front, hpre, hgap⟩
  · cases more using List.reverseRecOn with
    | nil => exact ⟨[], by simpa using hmore.symm, by simpa using hindent'.symm⟩
    | append_singleton more c =>
        obtain ⟨d, hd, hnot⟩ := hhead
        rw [hmore, ← List.append_assoc, List.getLast?_concat, Option.some.injEq] at hd
        have := hindent c (by rw [hindent']; simp)
        rw [hd, hnot] at this
        cases this

/-- What is removed of the lines around an entry behind a gap. -/
lemma exists_removalSpan_of_gap {tail : List Char} (hhead : EndsSolid head)
    (hskip : skip isInlineBlank (head ++ gap ++ entry ++ tail ++ later)
      (skipComma (head ++ gap ++ entry ++ tail ++ later)
        (skip isInlineBlank (head ++ gap ++ entry ++ tail ++ later)
          (byteLength (head ++ gap ++ entry)))) =
      byteLength (head ++ gap ++ entry ++ tail)) :
    ∃ front indent ending post, gap = front ++ indent ∧ later = ending ++ post ∧
      removalSpan (head ++ gap ++ entry ++ tail ++ later)
          (spanBehind (head ++ gap) entry) =
        ⟨byteLength (head ++ front), byteLength (head ++ gap ++ entry ++ tail ++ ending)⟩ ∧
      StartsLine front indent ∧ (ending = [] ∨ ending = ['\n'] ∨ ending = ['\r', '\n']) := by
  obtain ⟨pre, indent, ending, post, hpre, hlater, hspan, hline⟩ :=
    exists_removalSpan_of_skip hskip
  have hindent : ∀ c ∈ indent, isBlank c = true ∧ c ≠ '\n' := by
    rcases hline with ⟨rfl, -⟩ | ⟨h, -⟩
    · simp
    · exact h
  obtain ⟨front, rfl, rfl⟩ := exists_append_of_endsSolid hpre hhead fun c hc => (hindent c hc).1
  refine ⟨front, indent, ending, post, rfl, hlater, hspan, ⟨hindent, ?_⟩, ?_⟩
  · rcases hline with ⟨rfl, -⟩ | ⟨-, hnil | hnewline, -⟩
    · exact .inl rfl
    · obtain ⟨c, hc, -⟩ := hhead
      rw [(List.append_eq_nil_iff.mp hnil).1] at hc
      cases hc
    · -- the line feed is none of the text before the gap
      right
      rw [List.getLast?_append] at hnewline
      cases hfront : front.getLast? with
      | some d => rwa [hfront, Option.some_or] at hnewline
      | none =>
          obtain ⟨c, hc, hnot⟩ := hhead
          rw [hfront, Option.none_or, hc, Option.some.injEq] at hnewline
          rw [hnewline] at hnot
          cases hnot
  · rcases hline with ⟨-, rfl⟩ | ⟨-, -, hending⟩
    · exact .inl rfl
    · exact .inr hending

lemma isInlineBlank_of_head?_dropWhile {cs : List Char} {c : Char}
    (hc : (cs.dropWhile isInlineBlank).head? = some c) : isInlineBlank c = false := by
  have hnot := List.head?_dropWhile_not isInlineBlank cs
  rw [hc] at hnot
  simpa using hnot

/-- A comma goes with its entry if only spaces and tabs stand between. -/
lemma removalSpan_takes_comma (hhead : EndsSolid head)
    (htrail : ∀ c ∈ trail, isInlineBlank c = true) (later : List Char) :
    ∃ front indent passed post, gap = front ++ indent ∧ later = passed ++ post ∧
      removalSpan (head ++ gap ++ entry ++ trail ++ ',' :: later)
          (spanBehind (head ++ gap) entry) =
        ⟨byteLength (head ++ front),
          byteLength (head ++ gap ++ entry ++ trail ++ [','] ++ passed)⟩ ∧
      StartsLine front indent ∧ IsLineRest passed := by
  let blanks := later.takeWhile isInlineBlank
  let rest := later.dropWhile isInlineBlank
  have hlater : later = blanks ++ rest := List.takeWhile_append_dropWhile.symm
  have hblanks : ∀ c ∈ blanks, isInlineBlank c = true := fun c hc => List.mem_takeWhile_imp hc
  have hrest : ∀ c, rest.head? = some c → isInlineBlank c = false := fun c hc =>
    isInlineBlank_of_head?_dropWhile hc
  have hcomma : ∀ c, (',' :: (blanks ++ rest)).head? = some c → isInlineBlank c = false := by
    rintro c ⟨⟩
    rfl
  have hskip : skip isInlineBlank (head ++ gap ++ entry ++ (trail ++ [','] ++ blanks) ++ rest)
      (skipComma (head ++ gap ++ entry ++ (trail ++ [','] ++ blanks) ++ rest)
        (skip isInlineBlank (head ++ gap ++ entry ++ (trail ++ [','] ++ blanks) ++ rest)
          (byteLength (head ++ gap ++ entry)))) =
      byteLength (head ++ gap ++ entry ++ (trail ++ [','] ++ blanks)) := by
    have hfirst := skip_append (head ++ gap ++ entry) htrail hcomma
    have hsecond := skipComma_comma (head ++ gap ++ entry ++ trail) (blanks ++ rest)
    have hthird := skip_append (head ++ gap ++ entry ++ trail ++ [',']) hblanks hrest
    simp only [List.append_assoc, List.cons_append, List.nil_append] at hfirst hsecond hthird ⊢
    rw [hfirst, hsecond, hthird]
  obtain ⟨front, indent, ending, post, hgap, hpost, hspan, hstart, hending⟩ :=
    exists_removalSpan_of_gap hhead hskip
  refine ⟨front, indent, blanks ++ ending, post, hgap, by rw [hlater, hpost, List.append_assoc],
    ?_, hstart, blanks, ending, rfl, hblanks, hending⟩
  simp only [← List.append_assoc] at hspan ⊢
  rw [hlater, ← hspan]
  simp only [List.append_assoc, List.cons_append, List.nil_append]

/-- A comma stays if something else stands between it and the entry. -/
lemma removalSpan_leaves_comma (hhead : EndsSolid head)
    (hlater : (later.dropWhile isInlineBlank).head? ≠ some ',') :
    ∃ front indent passed post, gap = front ++ indent ∧ later = passed ++ post ∧
      removalSpan (head ++ gap ++ entry ++ later)
          (spanBehind (head ++ gap) entry) =
        ⟨byteLength (head ++ front), byteLength (head ++ gap ++ entry ++ passed)⟩ ∧
      StartsLine front indent ∧ IsLineRest passed := by
  let blanks := later.takeWhile isInlineBlank
  let rest := later.dropWhile isInlineBlank
  have hsplit : later = blanks ++ rest := List.takeWhile_append_dropWhile.symm
  have hblanks : ∀ c ∈ blanks, isInlineBlank c = true := fun c hc => List.mem_takeWhile_imp hc
  have hrest : ∀ c, rest.head? = some c → isInlineBlank c = false := fun c hc =>
    isInlineBlank_of_head?_dropWhile hc
  have hskip : skip isInlineBlank (head ++ gap ++ entry ++ blanks ++ rest)
      (skipComma (head ++ gap ++ entry ++ blanks ++ rest)
        (skip isInlineBlank (head ++ gap ++ entry ++ blanks ++ rest)
          (byteLength (head ++ gap ++ entry)))) =
      byteLength (head ++ gap ++ entry ++ blanks) := by
    have hagain := @skip_append isInlineBlank (head ++ gap ++ entry ++ blanks) [] rest
      (by simp) hrest
    rw [List.append_nil] at hagain
    rw [skip_append _ hblanks hrest, skipComma_of_ne hlater, hagain]
  obtain ⟨front, indent, ending, post, hgap, hpost, hspan, hstart, hending⟩ :=
    exists_removalSpan_of_gap hhead hskip
  refine ⟨front, indent, blanks ++ ending, post, hgap, by rw [hsplit, hpost, List.append_assoc],
    ?_, hstart, blanks, ending, rfl, hblanks, hending⟩
  simp only [← List.append_assoc] at hspan ⊢
  rw [hsplit, ← hspan, ← List.append_assoc]

/-- White space and comments in front of what is removed stay whole. -/
lemma isTrivia_of_startsLine {front indent : List Char} (h : isTrivia (front ++ indent) = true)
    (hstart : StartsLine front indent) : isTrivia front = true := by
  rcases hstart.2 with rfl | hnewline
  · rwa [List.append_nil] at h
  · refine Script.isTriviaFrom_of_append_blanks h (fun hmem => ?_) (fun c hc => ?_)
      (fun _ => by decide)
    · exact absurd (hstart.1 _ hmem).1 (by decide)
    · rw [hnewline, Option.some.injEq] at hc
      exact hc.symm

/-- What is removed in front of an entry begins behind what was removed with
the entry before. -/
lemma exists_append_of_lineRest {eaten front indent : List Char} (heaten : IsLineRest eaten)
    (h : eaten ++ gap = front ++ indent) (hstart : StartsLine front indent) :
    ∃ front', front = eaten ++ front' ∧ gap = front' ++ indent := by
  rcases List.append_eq_append_iff.mp h with ⟨front', hfront, hgap⟩ | ⟨more, heaten', hindent⟩
  · exact ⟨front', hfront, hgap⟩
  · cases more with
    | nil => exact ⟨[], by simpa using heaten'.symm, by simpa using hindent.symm⟩
    | cons c more =>
        -- the line would begin before the end of the one that was removed
        have hnewline : front.getLast? = some '\n' :=
          hstart.2.resolve_left (by rw [hindent]; exact List.cons_ne_nil _ _)
        refine absurd ?_ (newline_notMem_of_isLineRest heaten)
        rw [heaten', List.dropLast_append_cons]
        exact List.mem_append_left _ (List.mem_of_getLast? hnewline)

/-- Of the gap before an entry, what is not removed stays whole. -/
lemma exists_front {eaten front indent : List Char} (heaten : IsLineRest eaten)
    (hlead : isTrivia (eaten ++ gap) = true) (h : eaten ++ gap = front ++ indent)
    (hstart : StartsLine front indent) :
    ∃ front', front = eaten ++ front' ∧ gap = front' ++ indent ∧ isTrivia front' = true := by
  rw [h] at hlead
  have hwhole := isTrivia_of_startsLine hlead hstart
  obtain ⟨front', rfl, rfl⟩ := exists_append_of_lineRest heaten h hstart
  rw [Script.isTrivia_append (isTrivia_of_isLineRest heaten)] at hwhole
  exact ⟨front', rfl, rfl, hwhole⟩

end Removal

/-! ### Several entries -/

/-- The edits that remove chosen entries. -/
def removals (text : List Char) (chosen : List Span) (placed : List PlacedEntry) : List Edit :=
  (placed.filter fun e => chosen.contains e.span).map fun e => removeEntry text e.span

/-- The entries that are not chosen. -/
def remaining (chosen : List Span) (placed : List PlacedEntry) : List (List Char) :=
  (placed.filter fun e => !chosen.contains e.span).map (·.text)

/-- Every comma behind a chosen entry is close to it: only spaces and tabs
stand between. -/
def HaveCloseCommas (chosen : List Span) (placed : List PlacedEntry) : Prop :=
  ∀ e ∈ placed, e.span ∈ chosen → ∀ trail ∈ e.beforeComma?, ∀ c ∈ trail, isInlineBlank c = true

instance (chosen : List Span) (placed : List PlacedEntry) :
    Decidable (HaveCloseCommas chosen placed) :=
  decidable_of_iff
    (placed.all fun e => !chosen.contains e.span ||
      e.beforeComma?.all fun trail => trail.all isInlineBlank)
    (by
      simp only [HaveCloseCommas, List.all_eq_true, Option.all_eq_true, Bool.or_eq_true,
        Bool.not_eq_true', ← Bool.not_eq_true, List.contains_iff_mem, Option.mem_def]
      exact forall₂_congr fun e _ => or_iff_not_imp_left.trans (by rw [not_not]))

section Several

variable {text after : List Char} {chosen : List Span}

lemma removals_nil : removals text chosen [] = [] := rfl

lemma removals_cons_of_pos {e : PlacedEntry} (h : e.span ∈ chosen) (placed : List PlacedEntry) :
    removals text chosen (e :: placed) =
      removeEntry text e.span :: removals text chosen placed := by
  rw [removals, List.filter_cons_of_pos (by simpa using h), List.map_cons, removals]

lemma removals_cons_of_neg {e : PlacedEntry} (h : e.span ∉ chosen) (placed : List PlacedEntry) :
    removals text chosen (e :: placed) = removals text chosen placed := by
  rw [removals, List.filter_cons_of_neg (by simpa using h), removals]

lemma remaining_cons_of_pos {e : PlacedEntry} (h : e.span ∈ chosen) (placed : List PlacedEntry) :
    remaining chosen (e :: placed) = remaining chosen placed := by
  rw [remaining, List.filter_cons_of_neg (by simpa using h), remaining]

lemma remaining_cons_of_neg {e : PlacedEntry} (h : e.span ∉ chosen) (placed : List PlacedEntry) :
    remaining chosen (e :: placed) = e.text :: remaining chosen placed := by
  rw [remaining, List.filter_cons_of_pos (by simpa using h), List.map_cons, remaining]

lemma haveCloseCommas_cons {e : PlacedEntry} {placed : List PlacedEntry} :
    HaveCloseCommas chosen (e :: placed) ↔
      (e.span ∈ chosen → ∀ trail ∈ e.beforeComma?, ∀ c ∈ trail, isInlineBlank c = true) ∧
        HaveCloseCommas chosen placed :=
  List.forall_mem_cons

lemma ObjectBody.placed_last (head lead entry trail : List Char) :
    (last lead entry trail).placed (byteLength head) =
      [⟨spanBehind (head ++ lead) entry, entry, none⟩] := by
  simp only [placed, spanBehind, byteLength_append, Nat.add_assoc]

lemma ObjectBody.placed_more (head lead entry trail : List Char) (rest : ObjectBody) :
    (more lead entry trail rest).placed (byteLength head) =
      ⟨spanBehind (head ++ lead) entry, entry, some trail⟩ ::
        rest.placed (byteLength (head ++ lead ++ entry ++ trail ++ [','])) := by
  simp only [placed, spanBehind, byteLength_append, Nat.add_assoc]

/-- The entries of a body stand behind its start. -/
lemma ObjectBody.exists_of_mem_placed {body : ObjectBody} {head : List Char} {e : PlacedEntry}
    (he : e ∈ body.placed (byteLength head)) :
    ∃ before later, body.text = before ++ e.text ++ later ∧
      e.span = spanBehind (head ++ before) e.text := by
  induction body generalizing head with
  | done gap => cases he
  | last lead entry trail =>
      rw [placed_last, List.mem_singleton] at he
      subst he
      exact ⟨lead, trail, rfl, rfl⟩
  | more lead entry trail rest ih =>
      rw [placed_more, List.mem_cons] at he
      rcases he with rfl | he
      · exact ⟨lead, trail ++ ',' :: rest.text, by simp [text], rfl⟩
      · obtain ⟨before, later, htext, hspan⟩ := ih he
        refine ⟨lead ++ entry ++ trail ++ [','] ++ before, later, by simp [text, htext], ?_⟩
        rw [hspan]
        simp only [List.append_assoc]

/-- An entry is removed without what stands before its gap. -/
lemma le_start_removalSpan {head before entry later : List Char} (hhead : EndsSolid head) :
    byteLength head ≤ (removalSpan (head ++ before ++ entry ++ later)
      (spanBehind (head ++ before) entry)).start := by
  obtain ⟨pre, indent, gap, comma, gap', ending, post, hpre, -, hspan, -, -, hline⟩ :=
    exists_removalSpan_eq (head ++ before) entry later
  have hindent : ∀ c ∈ indent, isBlank c = true := by
    rcases hline with ⟨rfl, -⟩ | ⟨h, -⟩
    · simp
    · exact fun c hc => (h c hc).1
  obtain ⟨front, rfl, -⟩ := exists_append_of_endsSolid hpre hhead hindent
  rw [hspan]
  simp only [byteLength_append]
  omega

lemma le_start_of_mem_removals (chosen : List Span) {body : ObjectBody} {head : List Char}
    (hhead : EndsSolid head)
    (htext : text = head ++ body.text ++ after) :
    ∀ e ∈ removals text chosen (body.placed (byteLength head)), byteLength head ≤ e.span.start := by
  intro e he
  obtain ⟨p, hp, rfl⟩ := List.mem_map.mp he
  obtain ⟨before, later, hbody, hspan⟩ :=
    ObjectBody.exists_of_mem_placed (List.mem_filter.mp hp).1
  have hle := @le_start_removalSpan head before p.text (later ++ after) hhead
  rw [htext, hbody, removeEntry, Edit.replace, hspan]
  simpa only [List.append_assoc] using hle

/-- In white space and comments no comma comes first, and none behind them
where the white space of some kind at their start is not all. -/
lemma head?_dropWhile_ne_comma {isSkipped : Char → Bool} {trail later : List Char}
    (hskipped : ∀ c, isSkipped c = true → (Script.isLineEnd c || Script.isGap c) = true)
    (htrail : isTrivia trail = true)
    (hlater : (∀ c ∈ trail, isSkipped c = true) →
      (later.dropWhile isSkipped).head? ≠ some ',') :
    ((trail ++ later).dropWhile isSkipped).head? ≠ some ',' := by
  induction trail with
  | nil => exact hlater (by simp)
  | cons c cs ih =>
      rw [List.cons_append, List.dropWhile_cons]
      split
      · rename_i hblank
        rw [isTrivia, Script.isTriviaFrom_code_cons (hskipped c hblank)] at htrail
        exact ih htrail fun hcs => hlater (List.forall_mem_cons.mpr ⟨hblank, hcs⟩)
      · rintro ⟨⟩
        rw [Script.isTrivia_cons_of_endsGap (by decide)] at htrail
        cases htrail

/-- A removal takes what stands in front of the entry behind a first part,
the entry and what follows it. -/
lemma splice_removal {head eaten front indent entry passed post : List Char} {e : Edit}
    (hspan : e.span = ⟨byteLength (head ++ (eaten ++ front)),
      byteLength (head ++ (eaten ++ (front ++ indent)) ++ entry ++ passed)⟩)
    (hnone : e.text = "") (es : List Edit) :
    splice (byteLength (head ++ eaten)) (front ++ indent ++ (entry ++ passed ++ post)) (e :: es) =
      front ++ splice (byteLength (head ++ (eaten ++ (front ++ indent)) ++ entry ++ passed)) post
        es := by
  have hstart : e.span.start = byteLength (head ++ eaten) + byteLength front := by
    rw [hspan]
    simp only [byteLength_append]
    omega
  have hstop : e.span.stop = e.span.start + byteLength (indent ++ entry ++ passed) := by
    rw [hspan]
    simp only [byteLength_append]
    omega
  have hsplice := @splice_cons _ front (indent ++ entry ++ passed) post e es hstart hstop
  rw [hnone, hspan] at hsplice
  simp only [List.append_assoc, String.toList_empty, List.nil_append] at hsplice ⊢
  exact hsplice

/-- An entry is removed without the comma behind it: what stands in front of
it and behind it stays, but for the rest of its line and white space at the
start of the line. -/
lemma exists_splice_leaving {head eaten gap entry trail later : List Char} {mark : Char}
    (hhead : EndsSolid head) (heaten : IsLineRest eaten) (hlead : isTrivia (eaten ++ gap) = true)
    (htrail : isTrivia trail = true) (hmark : isBlank mark = false)
    (hnone : ((trail ++ mark :: later).dropWhile isInlineBlank).head? ≠ some ',')
    (htext : text = head ++ (eaten ++ gap) ++ entry ++ (trail ++ mark :: later)) :
    ∃ front passed rest, isTrivia front = true ∧ trail = passed ++ rest ∧
      isTrivia rest = true ∧ ∀ es,
        splice (byteLength (head ++ eaten)) (gap ++ (entry ++ (trail ++ mark :: later)))
          (removeEntry text (spanBehind (head ++ (eaten ++ gap)) entry) :: es) =
        front ++ splice (byteLength (head ++ (eaten ++ gap) ++ entry ++ passed))
          (rest ++ mark :: later) es := by
  obtain ⟨front, indent, passed, post, hfront, hpost, hspan, hstart, hpassed⟩ :=
    @removalSpan_leaves_comma head (eaten ++ gap) entry _ hhead hnone
  obtain ⟨rest, rfl⟩ := @exists_append_of_run isBlank passed post trail [mark] later hpost.symm
    (isBlank_of_isLineRest hpassed) ⟨mark, rfl, hmark⟩
  obtain ⟨front', rfl, rfl, hwhole⟩ := exists_front heaten hlead hfront hstart
  rw [Script.isTrivia_append (isTrivia_of_isLineRest hpassed)] at htrail
  refine ⟨front', passed, rest, hwhole, rfl, htrail, fun es => ?_⟩
  have hremoved :
      (removeEntry text (spanBehind (head ++ (eaten ++ (front' ++ indent))) entry)).span =
      ⟨byteLength (head ++ (eaten ++ front')),
        byteLength (head ++ (eaten ++ (front' ++ indent)) ++ entry ++ passed)⟩ := by
    rw [htext, removeEntry, Edit.replace, hspan]
  have hsplice := @splice_removal head eaten front' indent entry _ (rest ++ mark :: later) _
    hremoved rfl es
  simp only [List.append_assoc] at hsplice ⊢
  exact hsplice

/-- An entry is removed with the comma behind it. -/
lemma exists_splice_taking {head eaten gap entry trail later : List Char}
    (hhead : EndsSolid head) (heaten : IsLineRest eaten) (hlead : isTrivia (eaten ++ gap) = true)
    (htrail : ∀ c ∈ trail, isInlineBlank c = true)
    (htext : text = head ++ (eaten ++ gap) ++ entry ++ trail ++ ',' :: later) :
    ∃ front passed rest, isTrivia front = true ∧ IsLineRest passed ∧ later = passed ++ rest ∧
      ∀ es, splice (byteLength (head ++ eaten)) (gap ++ (entry ++ (trail ++ ',' :: later)))
          (removeEntry text (spanBehind (head ++ (eaten ++ gap)) entry) :: es) =
        front ++ splice (byteLength (head ++ (eaten ++ gap) ++ entry ++ trail ++ [','] ++ passed))
          rest es := by
  obtain ⟨front, indent, passed, rest, hfront, rfl, hspan, hstart, hpassed⟩ :=
    @removalSpan_takes_comma head (eaten ++ gap) entry trail hhead htrail later
  obtain ⟨front', rfl, rfl, hwhole⟩ := exists_front heaten hlead hfront hstart
  refine ⟨front', passed, rest, hwhole, hpassed, rfl, fun es => ?_⟩
  have hremoved :
      (removeEntry text (spanBehind (head ++ (eaten ++ (front' ++ indent))) entry)).span =
      ⟨byteLength (head ++ (eaten ++ front')),
        byteLength (head ++ (eaten ++ (front' ++ indent)) ++ entry ++
          (trail ++ [','] ++ passed))⟩ := by
    rw [htext, removeEntry, Edit.replace, hspan]
    simp only [List.append_assoc]
  have hsplice := @splice_removal head eaten front' indent entry _ rest _ hremoved rfl es
  simp only [List.append_assoc, List.cons_append, List.nil_append] at hsplice ⊢
  exact hsplice

/-- Behind what was removed at its start the first gap of a body is whole. -/
lemma isTrivia_of_gap_eq {body : ObjectBody} {eaten gap : List Char}
    (hwritten : body.isWritten = true) (heaten : IsLineRest eaten)
    (hgap : body.gap = eaten ++ gap) : isTrivia (eaten ++ gap) = true ∧ isTrivia gap = true := by
  have hfirst : isTrivia (eaten ++ gap) = true := hgap ▸ body.isTrivia_gap hwritten
  refine ⟨hfirst, ?_⟩
  rwa [Script.isTrivia_append (isTrivia_of_isLineRest heaten)] at hfirst

/-- Nothing changes up to the comma before the first entry that is removed. -/
lemma splice_behind_comma {head rest result : List Char} {edits : List Edit} (cursor : ℕ)
    (kept : List Char)
    (hcursor : cursor + byteLength (kept ++ [',']) = byteLength head)
    (hstarts : ∀ e ∈ edits, byteLength head ≤ e.span.start)
    (hresult : splice (byteLength head) rest edits = result) :
    splice cursor (kept ++ ',' :: rest) edits = kept ++ ',' :: result := by
  have hsplice := @splice_append cursor (kept ++ [',']) rest edits (by rwa [hcursor])
  rw [hcursor, hresult] at hsplice
  simpa using hsplice

/-- With some entries removed, a body is an object literal of the others
exactly if the commas that have to go are close to their entries.  The body
stands behind a first part of the text; of its gap, which is `eaten ++ gap`,
the rest of a line may have been removed already. -/
def LeavesObject (text : List Char) (chosen : List Span) (head eaten gap after : List Char)
    (body : ObjectBody) : Prop :=
  ∃ result, splice (byteLength (head ++ eaten)) (gap ++ body.behindGap ++ '\x7d' :: after)
      (removals text chosen (body.placed (byteLength head))) = result ++ '\x7d' :: after ∧
    (IsObjectOf (remaining chosen (body.placed (byteLength head))) result ↔
      HaveCloseCommas chosen (body.placed (byteLength head)))

section Steps

variable {head eaten gap entry trail : List Char} {rest : ObjectBody}

lemma leavesObject_done (hgap : isTrivia gap = true) :
    LeavesObject text chosen head eaten gap after (.done (eaten ++ gap)) := by
  refine ⟨gap, by simp [ObjectBody.behindGap, ObjectBody.placed, removals, splice], ?_⟩
  refine iff_of_true ⟨.done gap, hgap, rfl, rfl⟩ ?_
  simp [HaveCloseCommas, ObjectBody.placed]

variable (hhead : EndsSolid head) (heaten : IsLineRest eaten)
  (hlead : isTrivia (eaten ++ gap) = true) (hgap : isTrivia gap = true)
  (hentry : isEntryText entry = true) (htrail : isTrivia trail = true)

include hhead heaten hlead hgap hentry htrail in
lemma leavesObject_last
    (htext : text = head ++ (ObjectBody.last (eaten ++ gap) entry trail).text ++ '\x7d' :: after) :
    LeavesObject text chosen head eaten gap after (.last (eaten ++ gap) entry trail) := by
  rw [LeavesObject, ObjectBody.placed_last]
  have hclose : HaveCloseCommas chosen
      [⟨spanBehind (head ++ (eaten ++ gap)) entry, entry, none⟩] := by
    simp [HaveCloseCommas]
  by_cases hchosen : spanBehind (head ++ (eaten ++ gap)) entry ∈ chosen
  · rw [removals_cons_of_pos hchosen, remaining_cons_of_pos hchosen]
    have hnone : ((trail ++ '\x7d' :: after).dropWhile isInlineBlank).head? ≠ some ',' :=
      head?_dropWhile_ne_comma (fun _ => isLineEnd_or_isGap_of_isInlineBlank) htrail fun _ => by
        rw [List.dropWhile_cons_of_neg (by decide), List.head?_cons]
        decide
    have htext' : text = head ++ (eaten ++ gap) ++ entry ++ (trail ++ '\x7d' :: after) := by
      rw [htext, ObjectBody.text]
      simp only [List.append_assoc]
    obtain ⟨front, passed, behind, hfront, rfl, hbehind, hsplice⟩ :=
      exists_splice_leaving hhead heaten hlead htrail (by decide) hnone htext'
    refine ⟨front ++ behind, ?_, iff_of_true ⟨.done (front ++ behind), ?_, rfl, rfl⟩ hclose⟩
    · have hone := hsplice []
      rw [splice] at hone
      rw [ObjectBody.behindGap, removals_nil]
      simp only [List.append_assoc] at hone ⊢
      exact hone
    · rwa [ObjectBody.isWritten, Script.isTrivia_append hfront]
  · rw [removals_cons_of_neg hchosen, remaining_cons_of_neg hchosen]
    exact ⟨gap ++ (entry ++ trail), rfl, iff_of_true ⟨.last gap entry trail,
      by simp [ObjectBody.isWritten, hgap, hentry, htrail], by simp [ObjectBody.text], rfl⟩
      hclose⟩

variable (hrest : rest.isWritten = true)
  (htext : text = (head ++ (eaten ++ gap) ++ entry ++ trail ++ [',']) ++ rest.text ++
    '\x7d' :: after)
  (hbehind : ∀ {eaten' gap'}, IsLineRest eaten' → rest.gap = eaten' ++ gap' →
    LeavesObject text chosen (head ++ (eaten ++ gap) ++ entry ++ trail ++ [',']) eaten' gap' after
      rest)

include hbehind htext

/-- Behind a comma that stays, the rest of the body is as it would be on its
own. -/
lemma exists_splice_behind_comma : ∃ result,
    (∀ (cursor : ℕ) (kept : List Char),
      cursor + byteLength (kept ++ [',']) =
        byteLength (head ++ (eaten ++ gap) ++ entry ++ trail ++ [',']) →
      splice cursor (kept ++ ',' :: (rest.text ++ '\x7d' :: after))
        (removals text chosen
          (rest.placed (byteLength (head ++ (eaten ++ gap) ++ entry ++ trail ++ [','])))) =
        kept ++ ',' :: (result ++ '\x7d' :: after)) ∧
    (IsObjectOf (remaining chosen
        (rest.placed (byteLength (head ++ (eaten ++ gap) ++ entry ++ trail ++ [','])))) result ↔
      HaveCloseCommas chosen
        (rest.placed (byteLength (head ++ (eaten ++ gap) ++ entry ++ trail ++ [','])))) := by
  have hsolid : EndsSolid (head ++ (eaten ++ gap) ++ entry ++ trail ++ [',']) :=
    ⟨',', List.getLast?_concat, by decide⟩
  have hstarts := le_start_of_mem_removals chosen hsolid htext
  have hnothing : IsLineRest [] := ⟨[], [], rfl, by simp, .inl rfl⟩
  obtain ⟨result, hresult, hiff⟩ := hbehind hnothing (List.nil_append rest.gap).symm
  rw [List.append_nil, rest.gap_append_behindGap] at hresult
  exact ⟨result, fun cursor kept hcursor => splice_behind_comma cursor kept hcursor hstarts hresult,
    hiff⟩

include hgap hentry htrail in
/-- An entry that stays. -/
lemma leavesObject_more_of_notMem
    (hchosen : spanBehind (head ++ (eaten ++ gap)) entry ∉ chosen) :
    LeavesObject text chosen head eaten gap after (.more (eaten ++ gap) entry trail rest) := by
  obtain ⟨result, hsplice, hiff⟩ := exists_splice_behind_comma htext hbehind
  rw [LeavesObject, ObjectBody.placed_more, haveCloseCommas_cons, ObjectBody.behindGap,
    removals_cons_of_neg hchosen, remaining_cons_of_neg hchosen]
  refine ⟨gap ++ entry ++ trail ++ ',' :: result, ?_, ?_⟩
  · have hlater := hsplice (byteLength (head ++ eaten)) (gap ++ entry ++ trail)
      (by simp only [byteLength_append, Nat.add_assoc])
    rw [List.append_assoc (gap ++ entry ++ trail), List.cons_append, ← hlater]
    simp only [List.append_assoc, List.cons_append]
  · rw [isObjectOf_cons_iff hgap hentry htrail, hiff]
    exact ⟨fun h => ⟨fun h' => absurd h' hchosen, h⟩, fun h => h.2⟩

include hhead heaten hlead hrest in
/-- An entry that goes with its comma, and with what follows that on its line. -/
lemma leavesObject_more_of_close
    (hchosen : spanBehind (head ++ (eaten ++ gap)) entry ∈ chosen)
    (hblank : ∀ c ∈ trail, isInlineBlank c = true) :
    LeavesObject text chosen head eaten gap after (.more (eaten ++ gap) entry trail rest) := by
  rw [LeavesObject, ObjectBody.placed_more, haveCloseCommas_cons, ObjectBody.behindGap,
    removals_cons_of_pos hchosen, remaining_cons_of_pos hchosen]
  have htext' : text = head ++ (eaten ++ gap) ++ entry ++ trail ++
      ',' :: (rest.text ++ '\x7d' :: after) := by
    rw [htext]
    simp only [List.append_assoc, List.cons_append, List.nil_append]
  obtain ⟨front, passed, behind, hfront, hpassed, hlater, hsplice⟩ :=
    exists_splice_taking hhead heaten hlead hblank htext'
  obtain ⟨gap', hgap', rfl⟩ := rest.exists_gap_eq hrest (isBlank_of_isLineRest hpassed) hlater
  obtain ⟨result, hresult, hiff⟩ := hbehind hpassed hgap'
  refine ⟨front ++ result, ?_, ?_⟩
  · rw [List.append_assoc front, ← hresult, ← hsplice]
    simp only [List.append_assoc, List.cons_append]
  · rw [isObjectOf_append_iff hfront, hiff]
    exact ⟨fun h => ⟨fun _ _ h' => Option.some.inj h' ▸ hblank, h⟩, fun h => h.2⟩

include hhead heaten hlead htrail in
/-- An entry that goes without its comma. -/
lemma leavesObject_more_of_not_close
    (hchosen : spanBehind (head ++ (eaten ++ gap)) entry ∈ chosen)
    (hblank : ¬ ∀ c ∈ trail, isInlineBlank c = true) :
    LeavesObject text chosen head eaten gap after (.more (eaten ++ gap) entry trail rest) := by
  obtain ⟨result, hrestSplice, -⟩ := exists_splice_behind_comma htext hbehind
  rw [LeavesObject, ObjectBody.placed_more, haveCloseCommas_cons, ObjectBody.behindGap,
    removals_cons_of_pos hchosen, remaining_cons_of_pos hchosen]
  have hnone : ((trail ++ ',' :: (rest.text ++ '\x7d' :: after)).dropWhile isInlineBlank).head? ≠
      some ',' := head?_dropWhile_ne_comma (fun _ => isLineEnd_or_isGap_of_isInlineBlank) htrail
      fun h => absurd h hblank
  have htext' : text = head ++ (eaten ++ gap) ++ entry ++
      (trail ++ ',' :: (rest.text ++ '\x7d' :: after)) := by
    rw [htext]
    simp only [List.append_assoc, List.cons_append, List.nil_append]
  obtain ⟨front, passed, behind, hfront, rfl, hleft, hsplice⟩ :=
    exists_splice_leaving hhead heaten hlead htrail (by decide) hnone htext'
  refine ⟨front ++ behind ++ ',' :: result, ?_, iff_of_false ?_ fun h => ?_⟩
  · have hlater := hrestSplice (byteLength (head ++ (eaten ++ gap) ++ entry ++ passed)) behind
      (by simp only [byteLength_append, Nat.add_assoc])
    rw [List.append_assoc front, List.append_assoc front, List.append_assoc behind,
      List.cons_append, ← hlater, ← hsplice]
    simp only [List.append_assoc, List.cons_append]
  · refine not_isObjectOf_comma ?_
    rwa [Script.isTrivia_append hfront]
  · exact hblank (h.1 hchosen _ rfl)

end Steps

/-- The entries are removed one behind the other, each with the gap before it. -/
lemma leavesObject_of_isWritten {body : ObjectBody} {head eaten gap : List Char}
    (hhead : EndsSolid head) (heaten : IsLineRest eaten) (hwritten : body.isWritten = true)
    (hgap : body.gap = eaten ++ gap) (htext : text = head ++ body.text ++ '\x7d' :: after) :
    LeavesObject text chosen head eaten gap after body := by
  induction body generalizing head eaten gap with
  | done lead =>
      obtain ⟨-, hleft⟩ := isTrivia_of_gap_eq hwritten heaten hgap
      obtain rfl : lead = eaten ++ gap := hgap
      exact leavesObject_done hleft
  | last lead entry trail =>
      obtain ⟨hfirst, hleft⟩ := isTrivia_of_gap_eq hwritten heaten hgap
      obtain rfl : lead = eaten ++ gap := hgap
      simp only [ObjectBody.isWritten, Bool.and_eq_true] at hwritten
      exact leavesObject_last hhead heaten hfirst hleft hwritten.1.2 hwritten.2 htext
  | more lead entry trail rest ih =>
      obtain ⟨hfirst, hleft⟩ := isTrivia_of_gap_eq hwritten heaten hgap
      obtain rfl : lead = eaten ++ gap := hgap
      simp only [ObjectBody.isWritten, Bool.and_eq_true] at hwritten
      have hrest : text = (head ++ (eaten ++ gap) ++ entry ++ trail ++ [',']) ++ rest.text ++
          '\x7d' :: after := by
        rw [htext, ObjectBody.text]
        simp only [List.append_assoc, List.cons_append, List.nil_append]
      have hsolid : EndsSolid (head ++ (eaten ++ gap) ++ entry ++ trail ++ [',']) :=
        ⟨',', List.getLast?_concat, by decide⟩
      have hbehind {eaten' gap' : List Char} (heaten' : IsLineRest eaten')
          (hgap' : rest.gap = eaten' ++ gap') :=
        ih hsolid heaten' hwritten.2 hgap' hrest
      by_cases hchosen : spanBehind (head ++ (eaten ++ gap)) entry ∈ chosen
      · by_cases hblank : ∀ c ∈ trail, isInlineBlank c = true
        · exact leavesObject_more_of_close hhead heaten hfirst hwritten.2 hrest hbehind hchosen
            hblank
        · exact leavesObject_more_of_not_close hhead heaten hfirst hwritten.1.2 hrest hbehind
            hchosen hblank
      · exact leavesObject_more_of_notMem hleft hwritten.1.1.2 hwritten.1.2 hrest hbehind hchosen

end Several

/-! ### Applying the edits -/

/-- The entries of a body stand one behind the other. -/
lemma ObjectBody.pairwise_placed (body : ObjectBody) (head : List Char) :
    (body.placed (byteLength head)).Pairwise fun a b => a.span.stop ≤ b.span.start := by
  induction body generalizing head with
  | done gap => exact .nil
  | last lead entry trail => exact List.pairwise_singleton _ _
  | more lead entry trail rest ih =>
      rw [placed_more, List.pairwise_cons]
      refine ⟨fun e he => ?_, ih _⟩
      obtain ⟨before, -, -, hspan⟩ := exists_of_mem_placed he
      rw [hspan]
      simp only [byteLength_append]
      omega

/-- An entry of a written body begins and ends with text of its own. -/
lemma ObjectBody.isEntryText_of_mem_placed {body : ObjectBody} (h : body.isWritten = true)
    {offset : ℕ} {e : PlacedEntry} (he : e ∈ body.placed offset) :
    isEntryText e.text = true := by
  induction body generalizing offset with
  | done gap => cases he
  | last lead entry trail =>
      simp only [isWritten, Bool.and_eq_true] at h
      rw [placed, List.mem_singleton] at he
      exact he ▸ h.1.2
  | more lead entry trail rest ih =>
      simp only [isWritten, Bool.and_eq_true] at h
      rcases List.mem_cons.mp he with rfl | he
      · exact h.1.1.2
      · exact ih h.2 he

lemma isSolid_of_mem_placed {text head after : List Char} {body : ObjectBody}
    (hwritten : body.isWritten = true) (htext : text = head ++ body.text ++ after)
    {e : PlacedEntry} (he : e ∈ body.placed (byteLength head)) : e.span.IsSolid text := by
  obtain ⟨before, later, hbody, hspan⟩ := ObjectBody.exists_of_mem_placed he
  have hslice : e.span.slice? text = some e.text :=
    slice?_eq_some_iff.mpr ⟨head ++ before, later ++ after, by rw [htext, hbody]; simp,
      by rw [hspan], by rw [hspan, ← byteLength_append]⟩
  have hentry := body.isEntryText_of_mem_placed hwritten he
  rw [isEntryText, Bool.and_eq_true] at hentry
  obtain ⟨c, cs, htext', -, hfiller⟩ := exists_cons_of_isEntryText (by
    rwa [isEntryText, Bool.and_eq_true] : isEntryText e.text = true)
  rw [Span.IsSolid, hslice, Option.any_some, Bool.and_eq_true]
  refine ⟨?_, hentry.2⟩
  rw [htext', List.head?_cons, Option.any_some, hfiller]
  rfl

/-- The edits of a batch that removes entries are applied in the order of
the entries. -/
lemma appliedEdits_removals {text head after : List Char} {body : ObjectBody}
    (hwritten : body.isWritten = true) (htext : text = head ++ body.text ++ after)
    {chosen : List Span}
    (hchosen : ∀ s ∈ chosen, s ∈ (body.placed (byteLength head)).map (·.span)) :
    appliedEdits text (chosen.map (removeEntry text)) =
      removals text chosen (body.placed (byteLength head)) := by
  have hextends : ∀ e ∈ body.placed (byteLength head),
      Extends text e.span (removalSpan text e.span) := fun e he =>
    extends_removalSpan (isSolid_of_mem_placed hwritten htext he).isSome_slice?
  refine appliedEdits_eq_of_apart (fun edit => ?_) ?_ (fun edit hedit => ?_) fun edit hedit => ?_
  · constructor
    · intro hedit
      obtain ⟨s, hs, rfl⟩ := List.mem_map.mp hedit
      obtain ⟨e, he, rfl⟩ := List.mem_map.mp (hchosen s hs)
      exact List.mem_map.mpr ⟨e, List.mem_filter.mpr ⟨he, by simpa using hs⟩, rfl⟩
    · intro hedit
      obtain ⟨e, he, rfl⟩ := List.mem_map.mp hedit
      exact List.mem_map.mpr ⟨e.span, by simpa using (List.mem_filter.mp he).2, rfl⟩
  · rw [removals, List.pairwise_map]
    refine ((body.pairwise_placed head).filter _).imp_of_mem fun {a b} ha hb hab => ?_
    have ha' := (List.mem_filter.mp ha).1
    have hb' := (List.mem_filter.mp hb).1
    exact (hextends a ha').stop_le_start (hextends b hb')
      (isSolid_of_mem_placed hwritten htext ha') (isSolid_of_mem_placed hwritten htext hb') hab
  · obtain ⟨e, he, rfl⟩ := List.mem_map.mp hedit
    exact slice?_isSome_iff.mp (hextends e (List.mem_filter.mp he).1).isSome_slice?
  · obtain ⟨e, he, rfl⟩ := List.mem_map.mp hedit
    have he' := (List.mem_filter.mp he).1
    have hsome := (isSolid_of_mem_placed hwritten htext he').start_lt_stop
    have hstart := (hextends e he').start_le
    have hstop := (hextends e he').le_stop
    exact lt_of_le_of_lt hstart (lt_of_lt_of_le hsome hstop)

/-- **Removing entries leaves an object literal exactly if the commas that
have to go are close.**  In a script that has an object literal somewhere,
with white space and comments anywhere around its entries and commas, let
any of its entries be removed, in any order.  The text outside of the
braces stays as it is, and so do the entries that are not removed.  What
stands between the braces afterwards is a body of exactly these entries, in
their order and with a comma between any two, if and only if nothing but
spaces and tabs stands between each removed entry and the comma behind it,
if there is one. -/
theorem removed_entries_leave_object_iff {text : String} {before after : List Char}
    {body : ObjectBody} (hwritten : body.isWritten = true)
    (htext : text.toList = before ++ '\x7b' :: (body.text ++ '\x7d' :: after))
    {chosen : List Span}
    (hchosen : ∀ s ∈ chosen, s ∈ (body.placed (byteLength before + 1)).map (·.span)) :
    (∃ left : ObjectBody, left.isWritten = true ∧
      (applyEdits text (chosen.map (removeEntry text.toList))).text.toList =
        before ++ '\x7b' :: (left.text ++ '\x7d' :: after) ∧
      left.entries = remaining chosen (body.placed (byteLength before + 1))) ↔
    HaveCloseCommas chosen (body.placed (byteLength before + 1)) := by
  have hoffset : byteLength before + 1 = byteLength (before ++ ['\x7b']) := by
    rw [byteLength_append]
    rfl
  have hsolid : EndsSolid (before ++ ['\x7b']) := ⟨'\x7b', List.getLast?_concat, by decide⟩
  have htext' : text.toList = (before ++ ['\x7b']) ++ body.text ++ '\x7d' :: after := by
    rw [htext]
    simp
  rw [hoffset] at hchosen ⊢
  obtain ⟨result, hresult, hiff⟩ := @leavesObject_of_isWritten text.toList after chosen body _ []
    body.gap hsolid ⟨[], [], rfl, by simp, .inl rfl⟩ hwritten rfl htext'
  rw [List.append_nil, body.gap_append_behindGap] at hresult
  have hstarts := le_start_of_mem_removals chosen hsolid htext'
  have happlied : (applyEdits text (chosen.map (removeEntry text.toList))).text.toList =
      before ++ '\x7b' :: (result ++ '\x7d' :: after) := by
    have hsplice := @splice_append 0 (before ++ ['\x7b']) (body.text ++ '\x7d' :: after) _
      (fun e he => by rw [Nat.zero_add]; exact hstarts e he)
    rw [applyEdits_text, appliedEdits_removals hwritten htext' hchosen]
    rw [Nat.zero_add, hresult, ← List.append_assoc, ← htext'] at hsplice
    rw [hsplice]
    simp
  rw [← hiff, happlied]
  constructor
  · rintro ⟨left, hleft, heq, hentries⟩
    refine ⟨left, hleft, ?_, hentries⟩
    simpa using heq.symm
  · rintro ⟨left, hleft, rfl, hentries⟩
    exact ⟨left, hleft, rfl, hentries⟩

/-- Entries on lines of their own, with a comment behind a comma. -/
def biographyBody : ObjectBody :=
  .more "\n  ".toList "born: 1".toList " ".toList
    (.more " // year\n  ".toList "name: 2".toList "".toList
      (.last " ".toList "died: 3".toList "\n".toList))

/-- The script around them. -/
def biographyText : String := "f(\x7b\n  born: 1 , // year\n  name: 2, died: 3\n\x7d)"

/-- The first and the last entry go, and a comma with the first. -/
theorem removed_entries_leave_biography :
    biographyBody.isWritten = true ∧
    biographyText.toList = "f(".toList ++ '\x7b' :: (biographyBody.text ++ '\x7d' :: ")".toList) ∧
    (∀ s ∈ [⟨35, 42⟩, (⟨6, 13⟩ : Span)], s ∈ (biographyBody.placed 3).map (·.span)) ∧
    HaveCloseCommas [⟨35, 42⟩, ⟨6, 13⟩] (biographyBody.placed 3) ∧
    ∃ left : ObjectBody, left.isWritten = true ∧
      (applyEdits biographyText
        ([⟨35, 42⟩, ⟨6, 13⟩].map (removeEntry biographyText.toList))).text.toList =
        "f(".toList ++ '\x7b' :: (left.text ++ '\x7d' :: ")".toList) ∧
      left.entries = ["name: 2".toList] := by
  have hwritten : biographyBody.isWritten = true := by decide
  have htext : biographyText.toList =
      "f(".toList ++ '\x7b' :: (biographyBody.text ++ '\x7d' :: ")".toList) := by decide
  have hchosen : ∀ s ∈ [⟨35, 42⟩, (⟨6, 13⟩ : Span)], s ∈ (biographyBody.placed 3).map (·.span) := by
    decide
  have hclose : HaveCloseCommas [⟨35, 42⟩, ⟨6, 13⟩] (biographyBody.placed 3) := by decide
  have hremaining :
      remaining [⟨35, 42⟩, ⟨6, 13⟩] (biographyBody.placed 3) = ["name: 2".toList] := by decide
  refine ⟨hwritten, htext, hchosen, hclose, ?_⟩
  rw [← hremaining]
  exact (removed_entries_leave_object_iff hwritten htext hchosen).mpr hclose

/-- Entries of which the first has a comment before its comma. -/
def bornBody : ObjectBody :=
  .more " ".toList "born: 1".toList " /* year */".toList
    (.last " ".toList "name: 2".toList " ".toList)

/-- The object literal. -/
def bornText : String := "\x7b born: 1 /* year */, name: 2 \x7d"

/-- The comma stays, and what is left is no object literal. -/
theorem comma_behind_comment_stays :
    bornBody.isWritten = true ∧
    bornText.toList = '\x7b' :: (bornBody.text ++ ['\x7d']) ∧
    (⟨2, 9⟩ : Span) ∈ (bornBody.placed 1).map (·.span) ∧
    (applyEdits bornText [removeEntry bornText.toList ⟨2, 9⟩]).text =
      "\x7b /* year */, name: 2 \x7d" ∧
    ¬ ∃ left : ObjectBody, left.isWritten = true ∧
      (applyEdits bornText [removeEntry bornText.toList ⟨2, 9⟩]).text.toList =
        '\x7b' :: (left.text ++ ['\x7d']) ∧
      left.entries = ["name: 2".toList] := by
  have hwritten : bornBody.isWritten = true := by decide
  have htext : bornText.toList = ['\x7b'] ++ bornBody.text ++ ['\x7d'] := by decide
  have hchosen : ∀ s ∈ [(⟨2, 9⟩ : Span)],
      s ∈ (bornBody.placed (byteLength ['\x7b'])).map (·.span) := by decide
  have hresult : (applyEdits bornText [removeEntry bornText.toList ⟨2, 9⟩]).text.toList =
      "\x7b /* year */, name: 2 \x7d".toList := by
    have happlied := appliedEdits_removals hwritten htext hchosen
    rw [List.map_singleton] at happlied
    rw [applyEdits_text, happlied]
    decide
  refine ⟨hwritten, by decide, by decide, ?_, ?_⟩
  · exact String.toList_inj.mp hresult
  · rintro ⟨left, hleft, heq, hentries⟩
    have hbody : left.text = " /* year */".toList ++ ',' :: " name: 2 ".toList := by
      have hsplit : "\x7b /* year */, name: 2 \x7d".toList =
          '\x7b' :: ((" /* year */".toList ++ ',' :: " name: 2 ".toList) ++ ['\x7d']) := by decide
      rw [hresult, hsplit, List.cons.injEq] at heq
      exact (List.append_left_inj _).mp heq.2.symm
    exact not_isObjectOf_comma (by decide) ⟨left, hleft, hbody, hentries⟩

end GraphMigrate
