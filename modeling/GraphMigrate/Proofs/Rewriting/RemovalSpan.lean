/-
What is removed along with an entry.

An entry goes with the comma behind it, the spaces and tabs around that
comma and, when it stands alone on its line, with the whole line.  None of
this reaches into an entry that stands apart from it.

* `exists_removalSpan_eq`: the parts of a text around an entry that are
  removed with it, in the order of the text;
* `Span.IsSolid`: a span that begins and ends with text of its own, neither
  white space nor a comma, like those of entries and configurations;
* `Stretch`, `Extends`: a span stretched over such characters only, and the
  parts of the text around it;
* `Stretch.IsRemoval`, `exists_isRemoval`: the stretch of a removal;
* `Extends.stop_le_start`: **stretched spans of disjoint solid spans are
  disjoint**, since a line that is removed ends before the next begins.
-/
import GraphMigrate.Proofs.Text.Cut
import GraphMigrate.Rewriting.Entry
import Mathlib.Data.List.TakeWhile

namespace GraphMigrate

/-! ### Scanning from an offset -/

/-- Behind a first half of the text stands the second. -/
lemma restFrom_append (before after : List Char) :
    restFrom (byteLength before) (before ++ after) = after := by
  simp [restFrom, cutAt?_byteLength]

/-- A run of characters of a class is skipped as a whole. -/
lemma exists_skip_eq (isSkipped : Char → Bool) (before after : List Char) :
    ∃ run rest, after = run ++ rest ∧ (∀ c ∈ run, isSkipped c = true) ∧
      skip isSkipped (before ++ after) (byteLength before) = byteLength (before ++ run) := by
  refine ⟨after.takeWhile isSkipped, after.dropWhile isSkipped,
    List.takeWhile_append_dropWhile.symm, fun c hc => List.mem_takeWhile_imp hc, ?_⟩
  rw [skip, restFrom_append, byteLength_append]

/-- A run is skipped up to the first character that is of another class. -/
lemma skip_append {isSkipped : Char → Bool} (before : List Char) {run rest : List Char}
    (hrun : ∀ c ∈ run, isSkipped c = true)
    (hrest : ∀ c, rest.head? = some c → isSkipped c = false) :
    skip isSkipped (before ++ run ++ rest) (byteLength before) = byteLength (before ++ run) := by
  have hnone : rest.takeWhile isSkipped = [] := by
    cases rest with
    | nil => rfl
    | cons c cs => rw [List.takeWhile_cons, hrest c rfl, if_neg (by decide)]
  rw [skip, List.append_assoc, restFrom_append, List.takeWhile_append_of_pos hrun, hnone,
    List.append_nil, byteLength_append]

lemma skipComma_comma (before rest : List Char) :
    skipComma (before ++ ',' :: rest) (byteLength before) = byteLength (before ++ [',']) := by
  rw [skipComma, restFrom_append, List.head?_cons, if_pos rfl, byteLength_append]
  rfl

lemma skipComma_of_ne {before rest : List Char} (h : rest.head? ≠ some ',') :
    skipComma (before ++ rest) (byteLength before) = byteLength before := by
  rw [skipComma, restFrom_append, if_neg h]

/-- At most one comma is skipped. -/
lemma exists_skipComma_eq (before after : List Char) :
    ∃ comma rest, after = comma ++ rest ∧ (comma = [] ∨ comma = [',']) ∧
      skipComma (before ++ after) (byteLength before) = byteLength (before ++ comma) := by
  by_cases h : after.head? = some ','
  · obtain ⟨rest, rfl⟩ := List.head?_eq_some_iff.mp h
    exact ⟨[','], rest, rfl, Or.inr rfl, skipComma_comma before rest⟩
  · exact ⟨[], after, rfl, Or.inl rfl, by rw [skipComma_of_ne h, List.append_nil]⟩

/-- A line end is a line feed, with or without a carriage return before
it. -/
lemma exists_of_lineEndWidth? {before after : List Char} {width : ℕ}
    (h : lineEndWidth? (before ++ after) (byteLength before) = some width) :
    ∃ ending rest, after = ending ++ rest ∧ (ending = ['\n'] ∨ ending = ['\r', '\n']) ∧
      width = byteLength ending := by
  rw [lineEndWidth?, restFrom_append] at h
  split at h
  · rename_i rest
    exact ⟨['\n'], rest, rfl, Or.inl rfl, (Option.some.inj h).symm⟩
  · rename_i rest
    exact ⟨['\r', '\n'], rest, rfl, Or.inr rfl, (Option.some.inj h).symm⟩
  · cases h

/-- A line begins behind a line feed or with the text. -/
lemma exists_lineStart_eq (before after : List Char) :
    ∃ pre, before = pre ++ lastLine before ∧
      lineStart (before ++ after) (byteLength before) = byteLength pre ∧
      (pre = [] ∨ pre.getLast? = some '\n') ∧ '\n' ∉ lastLine before := by
  have hsplit : before = (before.reverse.dropWhile (· != '\n')).reverse ++ lastLine before := by
    rw [lastLine, ← List.reverse_append, List.takeWhile_append_dropWhile, List.reverse_reverse]
  refine ⟨_, hsplit, ?_, ?_, ?_⟩
  · rw [lineStart, cutAt?_byteLength]
    dsimp only
    conv_lhs => rw [hsplit, byteLength_append]
    have hlast : lastLine ((before.reverse.dropWhile (· != '\n')).reverse ++ lastLine before)
        = lastLine before := by rw [← hsplit]
    rw [hlast, Nat.add_sub_cancel]
  · rw [List.reverse_eq_nil_iff, List.getLast?_reverse]
    rcases h : before.reverse.dropWhile (· != '\n') with - | ⟨c, cs⟩
    · exact Or.inl rfl
    · have := List.head?_dropWhile_not (· != '\n') before.reverse
      rw [h] at this
      right
      simpa using this
  · intro hmem
    rw [lastLine, List.mem_reverse] at hmem
    simpa using List.mem_takeWhile_imp hmem

/-- Trimming leaves nothing of white space only. -/
lemma isBlank_of_trim_isEmpty {cs : List Char} (h : (trim cs).isEmpty = true) :
    ∀ c ∈ cs, isBlank c = true := by
  rw [List.isEmpty_iff, trim, trimEnd, List.reverse_eq_nil_iff, List.dropWhile_eq_nil_iff] at h
  have hstart : trimStart cs = [] := by
    rw [trimStart]
    rcases hcs : cs.dropWhile isBlank with - | ⟨c, rest⟩
    · rfl
    · -- what stops the trimming at the start stops it at the end as well
      have hnot := List.head?_dropWhile_not isBlank cs
      rw [hcs] at hnot
      have hc := h c (by simp [trimStart, hcs])
      simp [hc] at hnot
  rw [trimStart, List.dropWhile_eq_nil_iff] at hstart
  exact hstart

/-- Nothing but white space stands before the first entry of a line. -/
lemma isBlank_of_isFirstOnLine {before after : List Char}
    (h : isFirstOnLine (before ++ after) (byteLength before) = true) :
    ∀ c ∈ lastLine before, isBlank c = true := by
  obtain ⟨pre, hpre, hstart, -, -⟩ := exists_lineStart_eq before after
  have hslice : (Span.mk (lineStart (before ++ after) (byteLength before))
      (byteLength before)).slice? (before ++ after) = some (lastLine before) := by
    refine slice?_eq_some_iff.mpr ⟨pre, after, by rw [← hpre], hstart, ?_⟩
    conv_lhs => rw [hpre, byteLength_append]
  rw [isFirstOnLine, hslice] at h
  exact isBlank_of_trim_isEmpty (by simpa using h)

/-! ### The parts around an entry -/

/-- What is removed of the lines around an entry, whatever is removed behind
it on its own line: the white space before it and the line end.  These go
only together, when nothing else stands on the line. -/
lemma exists_removalSpan_of_skip {before inside tail rest : List Char}
    (hskip : skip isInlineBlank (before ++ inside ++ tail ++ rest)
      (skipComma (before ++ inside ++ tail ++ rest)
        (skip isInlineBlank (before ++ inside ++ tail ++ rest) (byteLength (before ++ inside)))) =
      byteLength (before ++ inside ++ tail)) :
    ∃ pre indent ending post, before = pre ++ indent ∧ rest = ending ++ post ∧
      removalSpan (before ++ inside ++ tail ++ rest)
          ⟨byteLength before, byteLength (before ++ inside)⟩ =
        ⟨byteLength pre, byteLength (before ++ inside ++ tail ++ ending)⟩ ∧
      (indent = [] ∧ ending = [] ∨
        (∀ c ∈ indent, isBlank c = true ∧ c ≠ '\n') ∧ (pre = [] ∨ pre.getLast? = some '\n') ∧
          (ending = ['\n'] ∨ ending = ['\r', '\n'])) := by
  simp only [removalSpan, hskip]
  split
  · rename_i hfirst
    split
    · -- the entry stands alone on its line, which goes as a whole
      rename_i width hwidth
      obtain ⟨ending, post, rfl, hending, rfl⟩ := exists_of_lineEndWidth? hwidth
      have htext : before ++ inside ++ tail ++ (ending ++ post) =
          before ++ (inside ++ tail ++ (ending ++ post)) := by
        simp only [List.append_assoc]
      rw [htext] at hfirst ⊢
      obtain ⟨pre, hpre, hstart, hbegin, hline⟩ := exists_lineStart_eq before
        (inside ++ tail ++ (ending ++ post))
      have hindent := isBlank_of_isFirstOnLine hfirst
      refine ⟨pre, lastLine before, ending, post, hpre, rfl, ?_,
        Or.inr ⟨fun c hc => ⟨hindent c hc, fun heq => hline (heq ▸ hc)⟩, hbegin, hending⟩⟩
      rw [hstart, byteLength_append (before ++ inside ++ tail)]
    · exact ⟨before, [], [], rest, by simp, by simp, by simp, Or.inl ⟨rfl, rfl⟩⟩
  · exact ⟨before, [], [], rest, by simp, by simp, by simp, Or.inl ⟨rfl, rfl⟩⟩

/-- The parts of a text around an entry that go with it: the white space
before it on its line, spaces and tabs with at most one comma between them
behind it, and the line end. -/
lemma exists_removalSpan_eq (before inside after : List Char) :
    ∃ pre indent gap comma gap' ending post,
      before = pre ++ indent ∧ after = gap ++ comma ++ gap' ++ ending ++ post ∧
      removalSpan (before ++ inside ++ after) ⟨byteLength before, byteLength (before ++ inside)⟩ =
        ⟨byteLength pre, byteLength (before ++ inside ++ gap ++ comma ++ gap' ++ ending)⟩ ∧
      (∀ c ∈ gap ++ gap', isInlineBlank c = true) ∧ (comma = [] ∨ comma = [',']) ∧
      (indent = [] ∧ ending = [] ∨
        (∀ c ∈ indent, isBlank c = true ∧ c ≠ '\n') ∧ (pre = [] ∨ pre.getLast? = some '\n') ∧
          (ending = ['\n'] ∨ ending = ['\r', '\n'])) := by
  obtain ⟨gap, rest, rfl, hgap, hskip⟩ := exists_skip_eq isInlineBlank (before ++ inside) after
  obtain ⟨comma, rest, rfl, hcomma, hskipComma⟩ :=
    exists_skipComma_eq (before ++ inside ++ gap) rest
  obtain ⟨gap', rest, rfl, hgap', hskip'⟩ :=
    exists_skip_eq isInlineBlank (before ++ inside ++ gap ++ comma) rest
  have hblank : ∀ c ∈ gap ++ gap', isInlineBlank c = true := fun c hc =>
    (List.mem_append.mp hc).elim (hgap c) (hgap' c)
  simp only [← List.append_assoc] at hskip hskipComma hskip'
  obtain ⟨pre, indent, ending, post, hpre, hrest, hspan, hline⟩ :=
    @exists_removalSpan_of_skip before inside (gap ++ comma ++ gap') rest
      (by simp only [← List.append_assoc, hskip, hskipComma, hskip'])
  simp only [← List.append_assoc] at hspan ⊢
  exact ⟨pre, indent, gap, comma, gap', ending, post, hpre, by rw [hrest, ← List.append_assoc],
    hspan, hblank, hcomma, hline⟩

/-! ### Stretched spans -/

/-- What may be removed around an entry: white space and commas. -/
def isFiller (c : Char) : Bool := isBlank c || c == ','

/-- A span that begins and ends with characters that are no filler. -/
def Span.IsSolid (text : List Char) (s : Span) : Prop :=
  (s.slice? text).any (fun inside =>
    inside.head?.any (!isFiller ·) && inside.getLast?.any (!isFiller ·)) = true

instance (text : List Char) (s : Span) : Decidable (s.IsSolid text) :=
  inferInstanceAs (Decidable (_ = true))

/-- The first and the last character that a solid span covers are no
filler. -/
lemma Span.IsSolid.exists_slice {text : List Char} {s : Span} (h : s.IsSolid text) :
    ∃ inside, s.slice? text = some inside ∧ (∃ c, inside.head? = some c ∧ isFiller c = false) ∧
      (∃ c, inside.getLast? = some c ∧ isFiller c = false) := by
  rw [IsSolid, Option.any_eq_true] at h
  obtain ⟨inside, hslice, hends⟩ := h
  simp only [Bool.and_eq_true, Option.any_eq_true, Bool.not_eq_true'] at hends
  exact ⟨inside, hslice, hends⟩

lemma Span.IsSolid.isSome_slice? {text : List Char} {s : Span} (h : s.IsSolid text) :
    (s.slice? text).isSome := by
  obtain ⟨inside, hslice, -⟩ := h.exists_slice
  exact Option.isSome_iff_exists.mpr ⟨inside, hslice⟩

/-- A span that begins and ends with text of its own is not empty. -/
lemma Span.IsSolid.start_lt_stop {text : List Char} {s : Span} (h : s.IsSolid text) :
    s.start < s.stop := by
  obtain ⟨inside, hslice, ⟨c, hc, -⟩, -⟩ := h.exists_slice
  obtain ⟨before, after, -, hstart, hstop⟩ := slice?_eq_some_iff.mp hslice
  have hne : byteLength inside ≠ 0 := by
    rw [Ne, byteLength_eq_zero]
    rintro rfl
    cases hc
  omega

lemma isFiller_of_isInlineBlank {c : Char} (h : isInlineBlank c = true) : isFiller c = true := by
  simp only [isInlineBlank, Bool.or_eq_true, beq_iff_eq] at h
  rcases h with rfl | rfl <;> decide

lemma ne_newline_of_isInlineBlank {c : Char} (h : isInlineBlank c = true) : c ≠ '\n' := by
  rintro rfl
  exact absurd h (by decide)

/-- A line feed comes last in a line end. -/
lemma newline_notMem_dropLast {run ending : List Char} (hrun : '\n' ∉ run)
    (hending : ending = [] ∨ ending = ['\n'] ∨ ending = ['\r', '\n']) :
    '\n' ∉ (run ++ ending).dropLast := by
  rcases hending with rfl | rfl | rfl
  · rw [List.append_nil]
    exact fun hmem => hrun (List.mem_of_mem_dropLast hmem)
  · rwa [List.dropLast_concat]
  · rw [List.append_cons, List.dropLast_concat]
    simpa using hrun

/-- A run without a line feed, behind one or at the start of a text, is the last
line. -/
lemma lastLine_append {pre run : List Char} (hpre : pre = [] ∨ pre.getLast? = some '\n')
    (hrun : '\n' ∉ run) : lastLine (pre ++ run) = run := by
  have hnone : pre.reverse.takeWhile (· != '\n') = [] := by
    rcases hpre with rfl | hlast
    · rfl
    · obtain ⟨rest, hrest⟩ := List.head?_eq_some_iff.mp (List.head?_reverse.trans hlast)
      rw [hrest, List.takeWhile_cons_of_neg (by decide)]
  rw [lastLine, List.reverse_append, List.takeWhile_append_of_pos, hnone, List.append_nil,
    List.reverse_reverse]
  intro c hc
  rw [bne_iff_ne]
  rintro rfl
  exact hrun (List.mem_reverse.mp hc)

/-- A text around a span that is stretched to both sides: what stands
before, what is added in front, what the span covers, what is added behind
and what stands behind. -/
structure Stretch where
  pre : List Char
  front : List Char
  inside : List Char
  tail : List Char
  post : List Char

namespace Stretch

/-- The whole text. -/
def text (p : Stretch) : List Char := p.pre ++ p.front ++ p.inside ++ p.tail ++ p.post

/-- The text up to the end of the span. -/
def upTo (p : Stretch) : List Char := p.pre ++ p.front ++ p.inside

/-- The span before it is stretched. -/
def inner (p : Stretch) : Span := ⟨byteLength (p.pre ++ p.front), byteLength p.upTo⟩

/-- The span after it is stretched. -/
def outer (p : Stretch) : Span := ⟨byteLength p.pre, byteLength (p.upTo ++ p.tail)⟩

@[simp] lemma inner_start (p : Stretch) : p.inner.start = byteLength (p.pre ++ p.front) := rfl

@[simp] lemma inner_stop (p : Stretch) : p.inner.stop = byteLength p.upTo := rfl

@[simp] lemma outer_start (p : Stretch) : p.outer.start = byteLength p.pre := rfl

@[simp] lemma outer_stop (p : Stretch) : p.outer.stop = byteLength (p.upTo ++ p.tail) := rfl

/-- Only filler is added: in front, if at all, as far as a line begins, and
behind up to one line end at most. -/
structure IsModest (p : Stretch) : Prop where
  front : ∀ c ∈ p.front, isFiller c = true
  beginsLine : p.front = [] ∨ p.pre = [] ∨ p.pre.getLast? = some '\n'
  tail : ∀ c ∈ p.tail, isFiller c = true
  oneLine : '\n' ∉ p.tail.dropLast

/-- What goes with an entry.  In front it is the white space before the entry on
its line; behind, it is spaces and tabs around a comma, if there is one, and the
line end.  The white space in front and the line end go only where nothing else
stands before the entry on its line. -/
structure IsRemoval (p : Stretch) : Prop where
  front : ∀ c ∈ p.front, isBlank c = true
  tail : ∃ gap comma gap' ending, p.tail = gap ++ comma ++ gap' ++ ending ∧
    (∀ c ∈ gap ++ gap', isInlineBlank c = true) ∧ (comma = [] ∨ comma = [',']) ∧
    (ending = [] ∨ ending = ['\n'] ∨ ending = ['\r', '\n'])
  alone : p.front ≠ [] ∨ '\n' ∈ p.tail → p.front = lastLine (p.pre ++ p.front)

lemma slice?_inner (p : Stretch) : p.inner.slice? p.text = some p.inside :=
  slice?_eq_some_iff.mpr ⟨p.pre ++ p.front, p.tail ++ p.post, by simp [text], rfl,
    by rw [inner_stop, upTo, byteLength_append]⟩

lemma slice?_outer (p : Stretch) : p.outer.slice? p.text = some (p.front ++ p.inside ++ p.tail) :=
  slice?_eq_some_iff.mpr ⟨p.pre, p.post, by simp [text], rfl, by
    rw [outer_stop, upTo, ← byteLength_append]
    simp only [List.append_assoc]⟩

/-- What is added in front ends before a solid span, and what is added
behind begins behind it. -/
lemma ends_of_isSolid {p : Stretch} (h : p.inner.IsSolid p.text) :
    (∃ c, p.inside.head? = some c ∧ isFiller c = false) ∧
      ∃ c, p.upTo.getLast? = some c ∧ isFiller c = false := by
  obtain ⟨found, hfound, hhead, c, hc, hnot⟩ := h.exists_slice
  rw [slice?_inner, Option.some.injEq] at hfound
  subst hfound
  exact ⟨hhead, c, by rw [upTo, List.getLast?_append, hc, Option.some_or], hnot⟩

end Stretch

/-- One span is stretched to another over filler only. -/
def Extends (text : List Char) (s r : Span) : Prop :=
  ∃ p : Stretch, p.text = text ∧ p.inner = s ∧ p.outer = r ∧ p.IsModest

/-- A span of whole characters stretches over itself. -/
lemma Extends.refl {text : List Char} {s : Span} (h : (s.slice? text).isSome) :
    Extends text s s := by
  obtain ⟨inside, hslice⟩ := Option.isSome_iff_exists.mp h
  obtain ⟨before, after, rfl, hstart, hstop⟩ := slice?_eq_some_iff.mp hslice
  rw [← byteLength_append] at hstop
  obtain rfl : s = ⟨byteLength before, byteLength (before ++ inside)⟩ := by
    rw [← hstart, ← hstop]
  exact ⟨⟨before, [], inside, [], after⟩, by simp [Stretch.text],
    by simp [Stretch.inner, Stretch.upTo], by simp [Stretch.outer, Stretch.upTo],
    ⟨by simp, Or.inl rfl, by simp, by simp⟩⟩

/-- Spaces and tabs around a comma are filler on one line. -/
lemma isFiller_of_mem_gaps {gap comma gap' : List Char}
    (hgaps : ∀ c ∈ gap ++ gap', isInlineBlank c = true) (hcomma : comma = [] ∨ comma = [','])
    {c : Char} (hc : c ∈ gap ++ comma ++ gap') : isFiller c = true ∧ c ≠ '\n' := by
  have hinline (h : c ∈ gap ++ gap') : isFiller c = true ∧ c ≠ '\n' :=
    ⟨isFiller_of_isInlineBlank (hgaps c h), ne_newline_of_isInlineBlank (hgaps c h)⟩
  rw [List.append_assoc, List.mem_append, List.mem_append] at hc
  rcases hc with hc | hc | hc
  · exact hinline (List.mem_append_left _ hc)
  · rcases hcomma with rfl | rfl
    · cases hc
    · obtain rfl := List.mem_singleton.mp hc
      decide
  · exact hinline (List.mem_append_right _ hc)

/-- The parts of a text around an entry that go with it. -/
lemma exists_isRemoval {text : List Char} {s : Span} (h : (s.slice? text).isSome) :
    ∃ p : Stretch, p.text = text ∧ p.inner = s ∧ p.outer = removalSpan text s ∧ p.IsRemoval := by
  obtain ⟨inside, hslice⟩ := Option.isSome_iff_exists.mp h
  obtain ⟨before, after, rfl, hstart, hstop⟩ := slice?_eq_some_iff.mp hslice
  rw [← byteLength_append] at hstop
  obtain rfl : s = ⟨byteLength before, byteLength (before ++ inside)⟩ := by
    rw [← hstart, ← hstop]
  obtain ⟨pre, indent, gap, comma, gap', ending, post, rfl, rfl, heq, hblank, hcomma, hline⟩ :=
    exists_removalSpan_eq before inside after
  refine ⟨⟨pre, indent, inside, gap ++ comma ++ gap' ++ ending, post⟩, by simp [Stretch.text],
    rfl, ?_, ?_⟩
  · rw [heq, Stretch.outer, Stretch.upTo]
    simp only [List.append_assoc]
  rcases hline with ⟨rfl, rfl⟩ | ⟨hindent, hbegin, hending⟩
  · -- nothing but the gaps around the comma
    refine ⟨by simp, ⟨gap, comma, gap', [], rfl, hblank, hcomma, Or.inl rfl⟩, ?_⟩
    rintro (hne | hmem)
    · exact absurd rfl hne
    · rw [List.append_nil] at hmem
      exact absurd rfl (isFiller_of_mem_gaps hblank hcomma hmem).2
  · exact ⟨fun c hc => (hindent c hc).1, ⟨gap, comma, gap', ending, rfl, hblank, hcomma,
      Or.inr hending⟩, fun _ => (lastLine_append hbegin fun hmem => (hindent _ hmem).2 rfl).symm⟩

namespace Stretch.IsRemoval

variable {p : Stretch}

/-- The white space in front is that of one line. -/
lemma beginsLine (h : p.IsRemoval) (hne : p.front ≠ []) :
    (p.pre = [] ∨ p.pre.getLast? = some '\n') ∧ '\n' ∉ p.front := by
  obtain ⟨pre, hpre, -, hbegin, hline⟩ := exists_lineStart_eq (p.pre ++ p.front) []
  rw [← h.alone (Or.inl hne)] at hpre hline
  rw [List.append_cancel_right hpre]
  exact ⟨hbegin, hline⟩

lemma isModest (h : p.IsRemoval) : p.IsModest := by
  obtain ⟨gap, comma, gap', ending, htail, hgaps, hcomma, hending⟩ := h.tail
  refine ⟨fun c hc => by simp [isFiller, h.front c hc], ?_, fun c hc => ?_, ?_⟩
  · by_cases hne : p.front = []
    · exact Or.inl hne
    · exact Or.inr (h.beginsLine hne).1
  · rw [htail] at hc
    rcases List.mem_append.mp hc with hc | hc
    · exact (isFiller_of_mem_gaps hgaps hcomma hc).1
    · rcases hending with rfl | rfl | rfl
      · cases hc
      · obtain rfl := List.mem_singleton.mp hc
        decide
      · obtain rfl | rfl := by simpa using hc
        all_goals decide
  · rw [htail]
    exact newline_notMem_dropLast
      (fun hmem => (isFiller_of_mem_gaps hgaps hcomma hmem).2 rfl) hending

end Stretch.IsRemoval

/-- The span removed for an entry is the entry's, stretched. -/
lemma extends_removalSpan {text : List Char} {s : Span} (h : (s.slice? text).isSome) :
    Extends text s (removalSpan text s) := by
  obtain ⟨p, htext, hinner, houter, hp⟩ := exists_isRemoval h
  exact ⟨p, htext, hinner, houter, hp.isModest⟩

namespace Extends

variable {text : List Char} {s r : Span}

/-- A stretched span covers the span it was stretched from. -/
lemma start_le (h : Extends text s r) : r.start ≤ s.start := by
  obtain ⟨p, -, rfl, rfl, -⟩ := h
  rw [Stretch.inner_start, Stretch.outer_start, byteLength_append]
  omega

lemma le_stop (h : Extends text s r) : s.stop ≤ r.stop := by
  obtain ⟨p, -, rfl, rfl, -⟩ := h
  rw [Stretch.inner_stop, Stretch.outer_stop, byteLength_append]
  omega

/-- A stretched span covers whole characters. -/
lemma isSome_slice? (h : Extends text s r) : (r.slice? text).isSome := by
  obtain ⟨p, rfl, -, rfl, -⟩ := h
  rw [Stretch.slice?_outer]
  rfl

end Extends

/-- A run of characters of a class, such as filler, stops before the first
character of a part that begins with another. -/
lemma exists_append_of_run {isRun : Char → Bool} {run rest mid inside after : List Char}
    (h : run ++ rest = mid ++ (inside ++ after)) (hrun : ∀ c ∈ run, isRun c = true)
    (hsolid : ∃ c, inside.head? = some c ∧ isRun c = false) : ∃ gap, mid = run ++ gap := by
  rcases List.append_eq_append_iff.mp h with ⟨gap, hmid, -⟩ | ⟨more, hmore, hinside⟩
  · exact ⟨gap, hmid⟩
  · cases more with
    | nil => exact ⟨[], by simpa using hmore.symm⟩
    | cons c cs =>
        -- the run would go on with the first character of the solid part
        obtain ⟨d, hd, hnot⟩ := hsolid
        obtain ⟨rest', rfl⟩ := List.head?_eq_some_iff.mp hd
        rw [List.cons_append, List.cons_append, List.cons.injEq] at hinside
        have := hrun c (by rw [hmore]; simp)
        rw [← hinside.1, hnot] at this
        cases this

/-- Backwards, a run of characters of a class stops behind the last character
of a part that ends with another. -/
lemma exists_append_of_run_before {isRun : Char → Bool} {front run solid behind : List Char}
    (h : front ++ run = solid ++ behind) (hrun : ∀ c ∈ run, isRun c = true)
    (hsolid : ∃ c, solid.getLast? = some c ∧ isRun c = false) :
    ∃ mid, front = solid ++ mid ∧ behind = mid ++ run := by
  rcases List.append_eq_append_iff.mp h with ⟨more, hsolid', hrun'⟩ | ⟨mid, hfront, hbehind⟩
  · cases more using List.reverseRecOn with
    | nil => exact ⟨[], by simpa using hsolid'.symm, by simpa using hrun'.symm⟩
    | append_singleton more c =>
        -- the last character of that part would lie in the run
        obtain ⟨d, hd, hnot⟩ := hsolid
        rw [hsolid', ← List.append_assoc, List.getLast?_concat, Option.some.injEq] at hd
        have := hrun c (by rw [hrun']; simp)
        rw [hd, hnot] at this
        cases this
  · exact ⟨mid, hfront, hbehind⟩

/-- What has no line feed but its last character ends no later than the
first line behind it that the text has. -/
lemma byteLength_le_of_newline {tail gap line rest : List Char}
    (h : tail ++ gap = line ++ '\n' :: rest) (htail : '\n' ∉ tail.dropLast) :
    byteLength tail ≤ byteLength (line ++ ['\n']) := by
  by_contra hlong
  -- a longer one would go on behind that line feed
  obtain ⟨more, rfl, -⟩ := exists_append_of_le (a := line ++ ['\n']) (b := rest) (c := tail)
    (d := gap) (by simp [h]) (by omega)
  cases more using List.reverseRecOn with
  | nil => simp at hlong
  | append_singleton more c =>
      rw [← List.append_assoc, List.dropLast_concat] at htail
      simp at htail

/-- **Stretched spans of solid spans stay apart.**  What is removed behind
the first reaches at most to the end of a line, and what is removed before
the second begins no earlier than the next line. -/
theorem Extends.stop_le_start {text : List Char} {s r t u : Span} (hr : Extends text s r)
    (hu : Extends text t u) (hs : s.IsSolid text) (ht : t.IsSolid text)
    (hapart : s.stop ≤ t.start) : r.stop ≤ u.start := by
  obtain ⟨p, rfl, rfl, rfl, hp⟩ := hr
  obtain ⟨q, htext, rfl, rfl, hq⟩ := hu
  have hlast := (p.ends_of_isSolid hs).2
  have hhead := (q.ends_of_isSolid (htext ▸ ht)).1
  -- what lies between the two begins with the whole tail of the first
  obtain ⟨mid, hmid, hbehind⟩ := exists_append_of_le (a := p.upTo) (b := p.tail ++ p.post)
    (c := q.pre ++ q.front) (d := q.inside ++ (q.tail ++ q.post))
    (by simpa [Stretch.text, Stretch.upTo] using htext.symm) hapart
  obtain ⟨gap, rfl⟩ := exists_append_of_run hbehind hp.tail hhead
  -- and ends with all that is added in front of the second
  obtain ⟨m, hpre, hm⟩ := exists_append_of_run_before hmid hq.front hlast
  rw [Stretch.outer_stop, Stretch.outer_start, hpre, byteLength_append, byteLength_append]
  rcases hq.beginsLine with hnone | hempty | hnewline
  · rw [hnone, List.append_nil] at hm
    rw [← hm, byteLength_append]
    omega
  · rw [hpre, List.append_eq_nil_iff] at hempty
    simp [hempty.1] at hlast
  · cases m using List.reverseRecOn with
    | nil =>
        obtain ⟨c, hc, hnot⟩ := hlast
        rw [hpre, List.append_nil, hc, Option.some.injEq] at hnewline
        rw [hnewline] at hnot
        exact absurd hnot (by decide)
    | append_singleton m c =>
        rw [hpre, ← List.append_assoc, List.getLast?_concat, Option.some.injEq] at hnewline
        subst hnewline
        rw [List.append_assoc] at hm
        exact Nat.add_le_add_left (byteLength_le_of_newline hm hp.oneLine) _

/-- Of two solid spans that are stretched to the same, neither begins nor
stops before the other: all in between would be filler. -/
lemma Extends.le_of_eq {text : List Char} {s t r : Span} (hr : Extends text s r)
    (hr' : Extends text t r) (hs : s.IsSolid text) (ht : t.IsSolid text) :
    s.start ≤ t.start ∧ s.stop ≤ t.stop := by
  obtain ⟨p, rfl, rfl, rfl, hp⟩ := hr
  obtain ⟨q, htext, rfl, houter, hq⟩ := hr'
  have hlast := (p.ends_of_isSolid hs).2
  have hhead := (q.ends_of_isSolid (htext ▸ ht)).1
  simp only [Stretch.outer, Span.mk.injEq] at houter
  constructor
  · obtain ⟨hpre, hbehind⟩ := append_inj_of_byteLength
      (b := p.front ++ (p.inside ++ p.tail ++ p.post))
      (d := q.front ++ (q.inside ++ (q.tail ++ q.post)))
      (by simpa [Stretch.text] using htext.symm) houter.1.symm
    obtain ⟨gap, hgap⟩ := exists_append_of_run hbehind hp.front hhead
    rw [Stretch.inner_start, Stretch.inner_start, hpre, hgap]
    simp only [byteLength_append]
    omega
  · obtain ⟨hbefore, -⟩ := append_inj_of_byteLength (a := q.upTo ++ q.tail) (b := q.post)
      (c := p.upTo ++ p.tail) (d := p.post) htext houter.2
    obtain ⟨mid, hmid, -⟩ := exists_append_of_run_before hbefore hq.tail hlast
    rw [Stretch.inner_stop, Stretch.inner_stop, hmid, byteLength_append]
    omega

/-- A span is stretched from one solid span only. -/
lemma Extends.unique {text : List Char} {s t r : Span} (hr : Extends text s r)
    (hr' : Extends text t r) (hs : s.IsSolid text) (ht : t.IsSolid text) : s = t := by
  have hst := hr.le_of_eq hr' hs ht
  have hts := hr'.le_of_eq hr ht hs
  obtain ⟨a, b⟩ := s
  obtain ⟨c, d⟩ := t
  simp only [Span.mk.injEq] at hst hts ⊢
  omega

end GraphMigrate
