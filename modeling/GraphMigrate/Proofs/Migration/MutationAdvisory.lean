/-
The comment in front of a mutation that is returned.

A line must not end behind `return`, `throw` and `yield`, or the statement ends with
it.  The comment about a mutation ends its line, unless one of these words comes last
before the template on its line.  What comes last there is found in the text: white
space is passed over, and comments are not, so behind a comment no word is found.

* `ends_of_isTriviaFrom`: white space and comments end in white space, in the slash of
  a comment or in a byte order mark;
* `FollowsWord`: a place that a word, white space and comments stand in front of, on
  one line;
* `FollowsWord.lineBreakIsUnsafe_iff`: where the word is found;
* `advisory_ends_no_line_iff`: the comment ends its line except where one is found;
* `returned_mutation_stays_on_line_iff`: **the comment keeps the statement whole
  exactly where only white space stands behind the word**;
* `mutation_behind_comment_is_cut_off`: a comment in between is enough to lose what is
  returned.
-/
import GraphMigrate.Proofs.CamelCase
import GraphMigrate.Proofs.Migration.HostCode
import GraphMigrate.Proofs.Script.Scanning

namespace GraphMigrate

open Script

/-! ### The ends of comments -/

/-- The last character of a text that is no white space, if there is one, is a slash or
a byte order mark. -/
def EndsClosed (text : List Char) : Prop :=
  ∀ front c back, text = front ++ c :: back → (∀ b ∈ back, isBlank b = true) →
    isBlank c = false → c = '/' ∨ c = '\uFEFF'

lemma EndsClosed.cons {c : Char} {cs : List Char} (h : EndsClosed cs)
    (hc : (∀ b ∈ cs, isBlank b = true) → isBlank c = false → c = '/' ∨ c = '\uFEFF') :
    EndsClosed (c :: cs) := by
  rintro (_ | ⟨d, front⟩) e back heq hback he
  · rw [List.nil_append, List.cons.injEq] at heq
    obtain ⟨rfl, rfl⟩ := heq
    exact hc hback he
  · rw [List.cons_append, List.cons.injEq] at heq
    exact h front e back heq.2 hback he

/-- Of the white space of a script only the byte order mark is none in Unicode. -/
lemma isBlank_of_isLineEnd_or_isGap {c : Char} (h : (isLineEnd c || isGap c) = true)
    (hc : c ≠ '\uFEFF') : isBlank c = true := by
  have hcode : c.toNat ≠ 0xFEFF := fun heq => hc (Char.toNat_inj.mp heq)
  simp only [isLineEnd, isGap, isBlank, Bool.or_eq_true, Bool.and_eq_true, decide_eq_true_eq,
    beq_iff_eq] at h ⊢
  rcases h with (((rfl | rfl) | h) | h) | h
  · decide
  · decide
  · omega
  · omega
  · omega

/-- On one line white space and comments end in white space or in the end of a
comment, save for byte order marks.  A comment up to the line end is none of them. -/
lemma ends_of_isTriviaFrom {mode : GapMode} {gap : List Char}
    (h : isTriviaFrom mode gap = true) (hline : ∀ c ∈ gap, isLineEnd c = false) :
    EndsClosed gap ∧ mode ≠ .lineComment ∧
      (mode = .blockComment → ∃ c ∈ gap, isBlank c = false) := by
  refine isTriviaFrom_induction (motive := fun mode gap => (∀ c ∈ gap, isLineEnd c = false) →
    EndsClosed gap ∧ mode ≠ .lineComment ∧
      (mode = .blockComment → ∃ c ∈ gap, isBlank c = false))
    ?nil ?slashes ?opening ?blank ?lineComment ?closing ?blockComment h hline
  case nil =>
    refine fun _ => ⟨fun front c back heq => ?_, by decide, nofun⟩
    simp at heq
  case slashes =>
    intro cs ih hline
    exact absurd rfl (ih (by simp_all)).2.1
  case opening =>
    intro cs ih hline
    obtain ⟨hends, -, hsome⟩ := ih (by simp_all)
    obtain ⟨c, hc, hfirm⟩ := hsome rfl
    -- the comment is closed behind its opening
    refine ⟨(hends.cons fun hall => ?_).cons fun _ _ => .inl rfl, by decide, nofun⟩
    simp [hall c hc] at hfirm
  case blank =>
    intro c cs hblank ih hline
    obtain ⟨hends, -, -⟩ := ih (by simp_all)
    refine ⟨hends.cons fun _ hc => .inr ?_, by decide, nofun⟩
    by_contra hne
    rw [isBlank_of_isLineEnd_or_isGap hblank hne] at hc
    cases hc
  case lineComment =>
    intro c cs ih hline
    have hnone : isLineEnd c = false := hline c List.mem_cons_self
    rw [hnone, if_neg Bool.false_ne_true] at ih
    exact absurd rfl (ih fun d hd => hline d (List.mem_cons_of_mem c hd)).2.1
  case closing =>
    intro cs ih hline
    obtain ⟨hends, -, -⟩ := ih (by simp_all)
    refine ⟨(hends.cons fun _ _ => .inl rfl).cons fun hall => ?_, by decide,
      fun _ => ⟨'*', List.mem_cons_self, by decide⟩⟩
    exact absurd (hall '/' List.mem_cons_self) (by decide)
  case blockComment =>
    intro c cs _ ih hline
    obtain ⟨hends, -, hsome⟩ := ih fun d hd => hline d (List.mem_cons_of_mem c hd)
    obtain ⟨d, hd, hfirm⟩ := hsome rfl
    refine ⟨hends.cons fun hall => ?_, by decide, fun _ => ⟨d, List.mem_cons_of_mem c hd, hfirm⟩⟩
    simp [hall d hd] at hfirm

/-! ### Words at the end of a line -/

/-- The word stands at the end of the text, and nothing continues it to the left. -/
lemma endsInWord_eq_true_iff {word : String} {text : List Char} :
    endsInWord word text = true ↔ ∃ before, text = before ++ word.toList ∧
      ∀ c ∈ before.getLast?, GraphMigrate.isWordPart c = false := by
  rw [endsInWord]
  split
  · rename_i hnone
    refine ⟨nofun, fun ⟨before, htext, _⟩ => ?_⟩
    rw [Naming.dropEnding?_eq_some_iff.mpr htext] at hnone
    cases hnone
  · rename_i before hsome
    rw [Naming.dropEnding?_eq_some_iff] at hsome
    rw [Bool.not_eq_true', Option.any_eq_false]
    constructor
    · exact fun h => ⟨before, hsome, fun c hc => by simpa using h c hc⟩
    · rintro ⟨before', htext, h⟩ c hc
      obtain rfl := List.append_cancel_right (hsome.symm.trans htext)
      simpa using h c hc

/-- Behind its last line feed a text goes on as it does without the part before. -/
lemma lastLine_append_of_notMem {front back : List Char} (h : '\n' ∉ back) :
    lastLine (front ++ back) = lastLine front ++ back := by
  rw [lastLine, List.reverse_append, List.takeWhile_append_of_pos, List.reverse_append,
    List.reverse_reverse, lastLine]
  intro c hc
  rw [bne_iff_ne]
  rintro rfl
  exact h (List.mem_reverse.mp hc)

/-- The last line of a text ends as the text does, unless that is with a line feed. -/
lemma getLast?_lastLine_eq_some_iff {text : List Char} {c : Char} :
    (lastLine text).getLast? = some c ↔ text.getLast? = some c ∧ c ≠ '\n' := by
  cases text using List.reverseRecOn with
  | nil => simp [lastLine]
  | append_singleton front d =>
      by_cases hd : d = '\n'
      · have hnone : lastLine (front ++ [d]) = [] := by
          rw [lastLine, List.reverse_append, List.reverse_singleton, List.singleton_append,
            List.takeWhile_cons_of_neg (by simp [hd]), List.reverse_nil]
        rw [hnone, List.getLast?_concat, hd, Option.some.injEq]
        exact iff_of_false nofun fun h => h.2 h.1.symm
      · rw [lastLine_append_of_notMem (by simpa using Ne.symm hd), List.getLast?_concat,
          List.getLast?_concat, Option.some.injEq]
        exact ⟨fun h => ⟨h, h ▸ hd⟩, fun h => h.1⟩

/-- White space at the end is trimmed, up to another character. -/
lemma trimEnd_append {front blanks : List Char} {c : Char} (hlast : front.getLast? = some c)
    (hc : isBlank c = false) (hblanks : ∀ b ∈ blanks, isBlank b = true) :
    trimEnd (front ++ blanks) = front := by
  obtain ⟨front, rfl⟩ := List.getLast?_eq_some_iff.mp hlast
  rw [trimEnd, List.reverse_append, List.dropWhile_append_of_pos (by simpa using hblanks),
    List.reverse_append, List.reverse_singleton, List.singleton_append,
    List.dropWhile_cons_of_neg (by simp [hc]), List.reverse_cons, List.reverse_reverse]

/-! ### Places behind a word -/

/-- A place in a text that a word stands in front of after which the line must go on.
The word stands on the line of that place, white space and comments stand between the
two, and behind them a token begins. -/
structure FollowsWord (text : List Char) (offset : ℕ) (before : List Char) (word : String)
    (gap after : List Char) : Prop where
  text_eq : text = before ++ word.toList ++ gap ++ after
  offset_eq : offset = byteLength (before ++ word.toList ++ gap)
  restricted : word ∈ restrictedWords
  begins : ∀ c ∈ before.getLast?, Script.isWordPart c = false
  trivia : isTrivia gap = true
  oneLine : ∀ c ∈ gap, isLineEnd c = false
  token : beginsToken after = true

instance (text : List Char) (offset : ℕ) (before : List Char) (word : String)
    (gap after : List Char) : Decidable (FollowsWord text offset before word gap after) :=
  have hbegins : before.getLast?.any Script.isWordPart = false ↔
      ∀ c ∈ before.getLast?, Script.isWordPart c = false := by simp [Option.any_eq_false]
  haveI : Decidable (∀ c ∈ gap, isLineEnd c = false) := List.decidableBAll _ gap
  decidable_of_iff (text = before ++ word.toList ++ gap ++ after ∧
      offset = byteLength (before ++ word.toList ++ gap) ∧ word ∈ restrictedWords ∧
      before.getLast?.any Script.isWordPart = false ∧ isTrivia gap = true ∧
      (∀ c ∈ gap, isLineEnd c = false) ∧ beginsToken after = true)
    ⟨fun ⟨h1, h2, h3, h4, h5, h6, h7⟩ => ⟨h1, h2, h3, hbegins.mp h4, h5, h6, h7⟩,
      fun h => ⟨h.1, h.2, h.3, hbegins.mpr h.4, h.5, h.6, h.7⟩⟩

/-- The last characters of the words tell them apart, and none of them closes a
comment. -/
lemma getLast?_restricted {word : String} (h : word ∈ restrictedWords) :
    ∃ c, word.toList.getLast? = some c ∧ isBlank c = false ∧ c ≠ '/' ∧ c ≠ '\uFEFF' ∧
      '\n' ∉ word.toList ∧
        ∀ other ∈ restrictedWords, other.toList.getLast? = some c → other = word := by
  simp only [restrictedWords, List.mem_cons, List.not_mem_nil, or_false] at h
  rcases h with rfl | rfl | rfl
  · exact ⟨'n', by decide⟩
  · exact ⟨'w', by decide⟩
  · exact ⟨'d', by decide⟩

/-- A text with other characters than white space has a last one. -/
lemma exists_append_of_not_blank {text : List Char} (h : ∃ c ∈ text, isBlank c = false) :
    ∃ front c back, text = front ++ c :: back ∧ (∀ b ∈ back, isBlank b = true) ∧
      isBlank c = false := by
  induction text using List.reverseRecOn with
  | nil => simp at h
  | append_singleton text d ih =>
      by_cases hd : isBlank d = true
      · obtain ⟨c, hc, hfirm⟩ := h
        have hmem : c ∈ text := by
          rcases List.mem_append.mp hc with hc | hc
          · exact hc
          · rw [List.mem_singleton.mp hc, hd] at hfirm
            cases hfirm
        obtain ⟨front, c, back, rfl, hback, hfirm⟩ := ih ⟨c, hmem, hfirm⟩
        refine ⟨front, c, back ++ [d], by simp, fun b hb => ?_, hfirm⟩
        rcases List.mem_append.mp hb with hb | hb
        · exact hback b hb
        · rwa [List.mem_singleton.mp hb]
      · exact ⟨text, d, [], rfl, by simp, Bool.eq_false_of_not_eq_true hd⟩

namespace FollowsWord

variable {text before gap after : List Char} {offset : ℕ} {word : String}

/-- The word and what follows it end the line in front of the place. -/
lemma lineBreakIsUnsafe_eq (h : FollowsWord text offset before word gap after) :
    lineBreakIsUnsafe text offset = restrictedWords.any
      (endsInWord · (trimEnd (lastLine before ++ word.toList ++ gap))) := by
  obtain ⟨-, -, -, -, -, hword, -⟩ := getLast?_restricted h.restricted
  have hgap : '\n' ∉ gap := fun hmem => by
    have := h.oneLine _ hmem
    simp [isLineEnd] at this
  rw [lineBreakIsUnsafe, h.text_eq, h.offset_eq, cutAt?_byteLength]
  dsimp only
  rw [List.append_assoc before, lastLine_append_of_notMem (by simp [hword, hgap]),
    ← List.append_assoc]

/-- Where something else than white space follows the word, it is not found. -/
lemma lineBreakIsUnsafe_of_not_blank (h : FollowsWord text offset before word gap after)
    (hsome : ∃ c ∈ gap, isBlank c = false) : lineBreakIsUnsafe text offset = false := by
  obtain ⟨front, c, back, rfl, hback, hfirm⟩ := exists_append_of_not_blank hsome
  have hclosed := (ends_of_isTriviaFrom h.trivia h.oneLine).1 front c back rfl hback hfirm
  have hline : lastLine before ++ word.toList ++ (front ++ c :: back) =
      (lastLine before ++ word.toList ++ front ++ [c]) ++ back := by simp
  rw [h.lineBreakIsUnsafe_eq, hline, trimEnd_append List.getLast?_concat hfirm hback,
    List.any_eq_false]
  intro other hother hends
  obtain ⟨left, hleft, -⟩ := endsInWord_eq_true_iff.mp hends
  obtain ⟨d, hd, -, hslash, hmark, -⟩ := getLast?_restricted hother
  -- the word would end as the comment does
  have hlast := congrArg List.getLast? hleft
  rw [List.getLast?_concat, List.getLast?_append, hd, Option.some_or, Option.some.injEq] at hlast
  exact hclosed.elim (fun heq => hslash (hlast ▸ heq)) fun heq => hmark (hlast ▸ heq)

/-- A word that only white space follows is found exactly if nothing that could continue
a word stands in front of it. -/
lemma lineBreakIsUnsafe_iff_of_blank (h : FollowsWord text offset before word gap after)
    (hblank : ∀ c ∈ gap, isBlank c = true) : lineBreakIsUnsafe text offset = true ↔
      ∀ c ∈ before.getLast?, Letters.isAlphanumeric c = false := by
  obtain ⟨d, hd, hfirm, -, -, -, honly⟩ := getLast?_restricted h.restricted
  have hlast : (lastLine before ++ word.toList).getLast? = some d := by
    rw [List.getLast?_append, hd, Option.some_or]
  rw [h.lineBreakIsUnsafe_eq, trimEnd_append hlast hfirm hblank, List.any_eq_true]
  constructor
  · rintro ⟨other, hother, hends⟩ c hc
    -- no two of the words end alike
    obtain ⟨left, hleft, hleftLast⟩ := endsInWord_eq_true_iff.mp hends
    obtain ⟨e, he, -⟩ := getLast?_restricted hother
    have hsame := congrArg List.getLast? hleft
    rw [hlast, List.getLast?_append, he, Option.some_or, Option.some.injEq] at hsame
    obtain rfl := honly other hother (hsame ▸ he)
    obtain rfl := List.append_cancel_right hleft
    by_cases hline : c = '\n'
    · rw [hline]
      decide
    · have := hleftLast c (getLast?_lastLine_eq_some_iff.mpr ⟨hc, hline⟩)
      rw [GraphMigrate.isWordPart, Bool.or_eq_false_iff, Bool.or_eq_false_iff] at this
      exact this.1.1
  · intro hbefore
    refine ⟨word, h.restricted, endsInWord_eq_true_iff.mpr ⟨_, rfl, fun c hc => ?_⟩⟩
    have hc' := (getLast?_lastLine_eq_some_iff.mp hc).1
    have hpart := h.begins c hc'
    rw [GraphMigrate.isWordPart, hbefore c hc', Bool.false_or, Bool.or_eq_false_iff,
      beq_eq_false_iff_ne, beq_eq_false_iff_ne]
    constructor
    · rintro rfl
      exact absurd hpart (by decide)
    · rintro rfl
      exact absurd hpart (by decide)

/-- The word in front of a place is found exactly if only white space follows it, and
nothing that could continue a word stands in front of it. -/
lemma lineBreakIsUnsafe_iff (h : FollowsWord text offset before word gap after) :
    lineBreakIsUnsafe text offset = true ↔ (∀ c ∈ gap, isBlank c = true) ∧
      ∀ c ∈ before.getLast?, Letters.isAlphanumeric c = false := by
  by_cases hblank : ∀ c ∈ gap, isBlank c = true
  · rw [h.lineBreakIsUnsafe_iff_of_blank hblank, and_iff_right hblank]
  · push Not at hblank
    obtain ⟨c, hc, hne⟩ := hblank
    have hfirm := Bool.eq_false_of_not_eq_true hne
    rw [h.lineBreakIsUnsafe_of_not_blank ⟨c, hc, hfirm⟩]
    refine iff_of_false Bool.false_ne_true fun hall => ?_
    exact hne (hall.1 c hc)

end FollowsWord

/-! ### The comment -/

/-- The comment ends its line exactly where that would not end a statement. -/
lemma advisory_ends_no_line_iff (text : List Char) (offset : ℕ) :
    (∀ c ∈ (advisory text offset).toList, isLineEnd c = false) ↔
      lineBreakIsUnsafe text offset = true := by
  rw [advisory]
  split
  · rename_i hunsafe
    have hline : ("/* " ++ mutationAdvisory ++ " */ ").toList.any isLineEnd = false := by
      decide +kernel
    exact iff_of_true (fun c hc => by simpa using List.any_eq_false.mp hline c hc) hunsafe
  · rename_i hsafe
    refine iff_of_false (fun hall => ?_) hsafe
    have := hall '\n' (by simp)
    simp [isLineEnd] at this

/-- The comment is one where a script is read. -/
lemma isTrivia_advisory (text : List Char) (offset : ℕ) :
    isTrivia (advisory text offset).toList = true := by
  rw [advisory]
  split
  · decide
  · have hcomment : isTrivia ("// " ++ mutationAdvisory ++ "\n").toList = true := by decide
    rw [String.toList_append, isTrivia_append hcomment]
    refine isTrivia_of_forall fun c hc => ?_
    rw [lineIndent, String.toList_ofList] at hc
    have hblank := List.mem_takeWhile_imp hc
    rw [isInlineBlank, Bool.or_eq_true, beq_iff_eq, beq_iff_eq] at hblank
    rcases hblank with rfl | rfl <;> rfl

/-- Behind white space and comments the next token is read, and whether a line ended in
them is told. -/
lemma next_behind_trivia {gap after : List Char} (hgap : isTrivia gap = true)
    (hafter : beginsToken after = true) (offset : ℕ) :
    (Token.next ⟨offset, gap ++ after⟩).start = ⟨offset + byteLength gap, after⟩ ∧
      (Token.next ⟨offset, gap ++ after⟩).broken = gap.any isLineEnd := by
  have hskip : skipGap false offset .code (gap ++ after) =
      (⟨offset + byteLength gap, after⟩, gap.any isLineEnd) := by
    rw [skipGap_isTriviaFrom hgap, skipGap_of_beginsToken hafter, Bool.false_or]
  exact ⟨congrArg Prod.fst hskip, congrArg Prod.snd hskip⟩

/-- Where a script is read and a draft is made for its templates, it is carried out. -/
lemma renameClientFields_eq_ok {context : Context} {file : SourceFile} {source : Source}
    {draft : Draft} (hparse : file.parse = .ok source)
    (hdraft : migrateTemplates clientRenamer (advisoryEdits file.chars)
      (templates context.tags source) = .ok draft) :
    renameClientFields context file = .ok (draft.finish file.text) := by
  rw [renameClientFields, hparse]
  exact congrArg (Except.map (Draft.finish file.text)) hdraft

/-- An edit that is not that of a segment puts a comment in front of a template. -/
lemma exists_revision_of_insertion {templates : List Template}
    {advised : Template → String → Prop} {rs : List Revision}
    (hrs : AreRevisions templates advised rs) {e : Edit} (he : e ∈ rs.flatMap Revision.edits)
    (hspan : ∀ t ∈ templates, t.segment ≠ e.span) :
    ∃ r ∈ rs, ∃ advice ∈ r.advice?, e = .insert r.template.span.start advice := by
  obtain ⟨r, hr, he⟩ := List.mem_flatMap.mp he
  rcases List.mem_cons.mp he with rfl | he
  · have ht := hrs.sublist.subset (List.mem_map_of_mem hr)
    exact absurd rfl (hspan _ ht)
  · obtain ⟨advice, hadvice, rfl⟩ := Option.map_eq_some_iff.mp (Option.mem_toList.mp he)
    exact ⟨r, hr, advice, hadvice, rfl⟩

/-- **The comment about a mutation keeps the statement whole exactly where only white
space stands behind the word.**  Let a template that is given the comment follow
`return`, `throw` or `yield` on its line, with white space and comments between.  The
comment ends no line if and only if nothing but white space of Unicode stands between,
and nothing that could continue a word in front of the word.  Exactly then the
template, which is what is read next behind the word, is read on the same line. -/
theorem returned_mutation_stays_on_line_iff {context : Context} {file : SourceFile}
    {outcome : Outcome} (h : renameClientFields context file = .ok outcome) :
    ∃ source draft rs, file.parse = .ok source ∧
      migrateTemplates clientRenamer (advisoryEdits file.chars) (templates context.tags source) =
        .ok draft ∧
      outcome = draft.finish file.text ∧ draft.edits = rs.flatMap Revision.edits ∧
      AreRevisions (templates context.tags source)
        (fun t advice => advice = advisory file.chars t.span.start) rs ∧
      ∀ r ∈ rs, ∀ advice ∈ r.advice?, ∀ before word gap after,
        FollowsWord file.chars r.template.span.start before word gap after →
        ((∀ c ∈ advice.toList, isLineEnd c = false) ↔ (∀ c ∈ gap, isBlank c = true) ∧
          ∀ c ∈ before.getLast?, Letters.isAlphanumeric c = false) ∧
        ∀ offset, ∃ next, Token.next ⟨offset, gap ++ advice.toList ++ after⟩ = next ∧
          next.start.chars = after ∧
          (next.broken = false ↔ ∀ c ∈ advice.toList, isLineEnd c = false) := by
  obtain ⟨source, hparse, h⟩ := exists_ok_of_bind h
  obtain ⟨draft, hdraft, h⟩ := exists_ok_of_bind h
  cases h
  obtain ⟨rs, hrs, hedits⟩ := exists_revisions _ (exists_advice file.chars) hdraft
  refine ⟨source, draft, rs, hparse, hdraft, rfl, hedits, hrs,
    fun r hr advice hadvice before word gap after hfollows => ⟨?_, fun offset => ?_⟩⟩
  · rw [hrs.advised r hr advice hadvice, advisory_ends_no_line_iff, hfollows.lineBreakIsUnsafe_iff]
  · have hadviceTrivia : isTrivia advice.toList = true := by
      rw [hrs.advised r hr advice hadvice]
      exact isTrivia_advisory _ _
    obtain ⟨hstart, hbroken⟩ := next_behind_trivia
      ((isTrivia_append hfollows.trivia).trans hadviceTrivia) hfollows.token offset
    refine ⟨_, rfl, by rw [hstart], ?_⟩
    have hgap : gap.any isLineEnd = false :=
      List.any_eq_false.mpr fun c hc => by simp [hfollows.oneLine c hc]
    rw [hbroken, List.any_append, hgap, Bool.false_or, List.any_eq_false]
    simp

/-- A mutation behind a no-break space. -/
def returnedMutation : SourceFile :=
  ⟨"function f() \x7b return\u00a0graphql`mutation M \x7b a_b \x7d` \x7d", .typeScript⟩

/-- The mutation is returned as before. -/
theorem returned_mutation_stays_on_line :
    ∃ (source : Source) (draft : Draft) (advice : String),
      returnedMutation.parse = .ok source ∧
      renameClientFields {} returnedMutation = .ok (draft.finish returnedMutation.text) ∧
      .insert 23 advice ∈ draft.edits ∧
      FollowsWord returnedMutation.chars 23 "function f() \x7b ".toList "return" ['\u00a0']
        "graphql`mutation M \x7b a_b \x7d` \x7d".toList ∧
      (∀ c ∈ advice.toList, isLineEnd c = false) ∧
      ∃ next, Token.next ⟨21, ['\u00a0'] ++ advice.toList ++
          "graphql`mutation M \x7b a_b \x7d` \x7d".toList⟩ = next ∧
        next.start.chars = "graphql`mutation M \x7b a_b \x7d` \x7d".toList ∧
        next.broken = false := by
  have hcheck : returnedMutation.parse.toOption.any (fun source =>
      decide (∀ t ∈ templates ["graphql"] source, t.segment ≠ ⟨23, 23⟩) &&
        (migrateTemplates clientRenamer (advisoryEdits returnedMutation.chars)
          (templates ["graphql"] source)).toOption.any
            (·.edits.any (·.span == ⟨23, 23⟩))) = true := by
    decide +kernel
  have hfollows : FollowsWord returnedMutation.chars 23 "function f() \x7b ".toList "return"
      ['\u00a0'] "graphql`mutation M \x7b a_b \x7d` \x7d".toList := by
    decide +kernel
  obtain ⟨source, hsource, hcheck⟩ := Option.any_eq_true _ _ |>.mp hcheck
  obtain ⟨hsegments, hcheck⟩ := (Bool.and_eq_true _ _).mp hcheck
  obtain ⟨draft, hdraft, hinserted⟩ := Option.any_eq_true _ _ |>.mp hcheck
  obtain ⟨e, he, hspan⟩ := List.any_eq_true.mp hinserted
  have hparse := eq_ok_of_toOption hsource
  have hrun : renameClientFields {} returnedMutation = .ok (draft.finish returnedMutation.text) :=
    renameClientFields_eq_ok hparse (eq_ok_of_toOption hdraft)
  obtain ⟨source', draft', rs, hparse', hdraft', -, hedits, hrs, h⟩ :=
    returned_mutation_stays_on_line_iff hrun
  obtain rfl : source = source' := Except.ok.inj (hparse.symm.trans hparse')
  obtain rfl : draft = draft' :=
    Except.ok.inj ((eq_ok_of_toOption hdraft).symm.trans hdraft')
  obtain ⟨r, hr, advice, hadvice, rfl⟩ := exists_revision_of_insertion hrs (hedits ▸ he)
    fun t ht => beq_iff_eq.mp hspan ▸ of_decide_eq_true hsegments t ht
  have hstart : r.template.span.start = 23 := congrArg Span.start (beq_iff_eq.mp hspan)
  rw [hstart] at he
  obtain ⟨hiff, hnext⟩ := h r hr advice hadvice _ _ _ _ (hstart ▸ hfollows)
  have hline := hiff.mpr ⟨fun c hc => by rw [List.mem_singleton.mp hc]; decide,
    fun c hc => by rw [← Option.some.inj hc]; decide⟩
  obtain ⟨next, heq, hchars, hbroken⟩ := hnext 21
  exact ⟨source, draft, advice, hparse, hrun, he, hfollows, hline,
    next, heq, hchars, hbroken.mpr hline⟩

/-- Whether a statement that returns has a value. -/
def Script.Node.returnsValue? : Node → Option Bool
  | .ret value _ => some value.isSome
  | _ => none

/-- A mutation behind a comment. -/
def commentedMutation : SourceFile :=
  ⟨"function f() \x7b return /* c */ graphql`mutation M \x7b a_b \x7d` \x7d", .typeScript⟩

/-- The comment behind a comment ends the line, and with it the statement: nothing is
returned any more. -/
theorem mutation_behind_comment_is_cut_off :
    ∃ (source read : Source) (outcome : Outcome),
      commentedMutation.parse = .ok source ∧
      (∃ t ∈ templates ["graphql"] source,
        FollowsWord commentedMutation.chars t.span.start "function f() \x7b ".toList "return"
          " /* c */ ".toList "graphql`mutation M \x7b a_b \x7d` \x7d".toList) ∧
      source.script.preorder.filterMap Node.returnsValue? = [true] ∧
      renameClientFields {} commentedMutation = .ok outcome ∧
      outcome.text = "function f() \x7b return /* c */ " ++
        "// TODO: Inputs to the mutation might have changed case of the keys!\n" ++
        "graphql`mutation M \x7b\n  a_b: aB\n\x7d\n` \x7d" ∧
      Source.parse .typeScript outcome.text = .ok read ∧
      read.script.preorder.filterMap Node.returnsValue? = [false] := by
  let advice := Edit.insert 30
    "// TODO: Inputs to the mutation might have changed case of the keys!\n"
  let document := Edit.replace ⟨38, 56⟩ "mutation M \x7b\n  a_b: aB\n\x7d\n"
  let rewritten := "function f() \x7b return /* c */ " ++
    "// TODO: Inputs to the mutation might have changed case of the keys!\n" ++
    "graphql`mutation M \x7b\n  a_b: aB\n\x7d\n` \x7d"
  have hsource : commentedMutation.parse.toOption.any (fun source =>
      decide ((templates ["graphql"] source).map (·.span.start) = [30] ∧
        source.script.preorder.filterMap Node.returnsValue? = [true]) &&
        (migrateTemplates clientRenamer (advisoryEdits commentedMutation.chars)
          (templates ["graphql"] source)).toOption.any
            fun draft => draft.edits == [document, advice]) = true := by
    decide +kernel
  have hread : (Source.parse .typeScript rewritten).toOption.any (fun read =>
      read.script.preorder.filterMap Node.returnsValue? == [false]) = true := by
    decide +kernel
  have hspliced : String.ofList (splice 0 commentedMutation.text.toList [advice, document]) =
      rewritten := by
    decide +kernel
  have hfits : [advice, document].all (·.fits commentedMutation.text.toList) = true := by
    decide +kernel
  obtain ⟨source, hparse, hsource⟩ := Option.any_eq_true _ _ |>.mp hsource
  obtain ⟨hfound, hdrafted⟩ := (Bool.and_eq_true _ _).mp hsource
  obtain ⟨hstarts, hreturned⟩ := of_decide_eq_true hfound
  obtain ⟨draft, hdraft, hedits⟩ := Option.any_eq_true _ _ |>.mp hdrafted
  obtain ⟨read, hread, hcut⟩ := Option.any_eq_true _ _ |>.mp hread
  have htext : (draft.finish commentedMutation.text).text = rewritten := by
    rw [Draft.finish, beq_iff_eq.mp hedits]
    refine (applyEdits_text_of_before (.swap _ _ _) (fun e he => ?_) ?_).trans hspliced
    · exact Edit.fits_iff_inBounds.mp (List.all_eq_true.mp hfits e he)
    · exact List.pairwise_pair.mpr ⟨(by decide : 30 ≤ 38), (by decide : 30 < 38)⟩
  have hstart : 30 ∈ (templates ["graphql"] source).map (·.span.start) := by
    rw [hstarts]
    exact List.mem_singleton_self 30
  obtain ⟨t, ht, hstart⟩ := List.mem_map.mp hstart
  refine ⟨source, read, draft.finish commentedMutation.text, eq_ok_of_toOption hparse, ⟨t, ht, ?_⟩,
    hreturned, renameClientFields_eq_ok (eq_ok_of_toOption hparse) (eq_ok_of_toOption hdraft),
    htext, htext ▸ eq_ok_of_toOption hread, beq_iff_eq.mp hcut⟩
  rw [hstart]
  decide +kernel

end GraphMigrate
