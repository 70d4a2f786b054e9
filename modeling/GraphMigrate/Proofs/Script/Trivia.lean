/-
White space and comments between tokens.

What may stand between two tokens is told apart from tokens by the walk
over it alone, so it is cut from a text in one way only.

* `isTrivia`: white space and whole comments;
* `isTriviaFrom_induction`: the ways in which they go on;
* `isTrivia_of_forall`: white space alone;
* `skipGap_isTriviaFrom`, `exists_append_of_skipGap`: what is passed over
  where a script is read is trivia, and all trivia are passed over;
* `isTrivia_append`, `exists_append_of_isTrivia`: putting trivia together
  and taking them apart;
* `isTriviaFrom_of_append_blanks`: white space at the start of a line may go.
-/
import GraphMigrate.Proofs.Script.Standing
import GraphMigrate.Proofs.Script.Written

namespace GraphMigrate.Script

/-- Whether a text leads a walk over white space and comments back to where
tokens may stand. -/
@[grind =] def isTriviaFrom : GapMode → List Char → Bool
  | mode, [] => mode == .code
  | .code, '/' :: '/' :: cs => isTriviaFrom .lineComment cs
  | .code, '/' :: '*' :: cs => isTriviaFrom .blockComment cs
  | .code, c :: cs => (isLineEnd c || isGap c) && isTriviaFrom .code cs
  | .lineComment, c :: cs => isTriviaFrom (if isLineEnd c then .code else .lineComment) cs
  | .blockComment, '*' :: '/' :: cs => isTriviaFrom .code cs
  | .blockComment, _ :: cs => isTriviaFrom .blockComment cs

/-- White space and whole comments. -/
def isTrivia (text : List Char) : Bool := isTriviaFrom .code text

lemma ne_slash_of_isLineEnd_or_isGap {c : Char} (hc : (isLineEnd c || isGap c) = true) :
    c ≠ '/' := by
  rintro rfl
  exact absurd hc (by decide)

lemma isTriviaFrom_code_cons {c : Char} (hc : (isLineEnd c || isGap c) = true) (cs : List Char) :
    isTriviaFrom .code (c :: cs) = isTriviaFrom .code cs := by
  have hslash := ne_slash_of_isLineEnd_or_isGap hc
  rw [isTriviaFrom, hc, Bool.true_and]
  · exact fun _ hslash' => absurd hslash' hslash
  · exact fun _ hslash' => absurd hslash' hslash

lemma isTriviaFrom_blockComment_cons {c : Char} {cs : List Char}
    (hend : ∀ rest, c = '*' → cs = '/' :: rest → False) :
    isTriviaFrom .blockComment (c :: cs) = isTriviaFrom .blockComment cs := by
  rw [isTriviaFrom]
  exact hend

/-- Text of its own begins no trivia. -/
lemma isTrivia_cons_of_endsGap {c : Char} (hc : endsGap c = true) (cs : List Char) :
    isTrivia (c :: cs) = false := by
  simp only [endsGap, Bool.and_eq_true, bne_iff_ne, Bool.not_eq_true'] at hc
  obtain ⟨⟨hslash, hline⟩, hgap⟩ := hc
  rw [isTrivia, isTriviaFrom, hline, hgap, Bool.or_self, Bool.false_and]
  · exact fun _ hslash' => absurd hslash' hslash
  · exact fun _ hslash' => absurd hslash' hslash

/-- A pair of characters that does not begin a text does not begin a longer
one. -/
lemma ne_pair_append {a b c : Char} {cs : List Char} (hne : cs = [] → c ≠ a)
    (hpair : ∀ rest, c = a → cs = b :: rest → False) (later : List Char) :
    ∀ rest, c = a → cs ++ later = b :: rest → False := by
  intro rest hc hcs
  cases cs with
  | nil => exact hne rfl hc
  | cons d ds =>
      rw [List.cons_append, List.cons.injEq] at hcs
      exact hpair ds hc (by rw [hcs.1])

/-- The ways in which trivia go on, and where the walk over them is then. -/
lemma isTriviaFrom_induction {motive : GapMode → List Char → Prop} (nil : motive .code [])
    (slashes : ∀ cs, motive .lineComment cs → motive .code ('/' :: '/' :: cs))
    (opening : ∀ cs, motive .blockComment cs → motive .code ('/' :: '*' :: cs))
    (blank : ∀ c cs, (isLineEnd c || isGap c) = true → motive .code cs → motive .code (c :: cs))
    (lineComment : ∀ c cs, motive (if isLineEnd c then .code else .lineComment) cs →
      motive .lineComment (c :: cs))
    (closing : ∀ cs, motive .code cs → motive .blockComment ('*' :: '/' :: cs))
    (blockComment : ∀ c cs, (∀ behind rest, c = '*' → cs ++ behind = '/' :: rest → False) →
      motive .blockComment cs → motive .blockComment (c :: cs))
    {mode : GapMode} {gap : List Char} (h : isTriviaFrom mode gap = true) : motive mode gap := by
  fun_induction isTriviaFrom mode gap with
  | case1 mode => exact eq_of_beq h ▸ nil
  | case2 cs ih => exact slashes cs (ih h)
  | case3 cs ih => exact opening cs (ih h)
  | case4 c cs _ _ ih =>
      rw [Bool.and_eq_true] at h
      exact blank c cs h.1 (ih h.2)
  | case5 c cs ih => exact lineComment c cs (ih h)
  | case6 cs ih => exact closing cs (ih h)
  | case7 c cs hend ih =>
      have hne : cs = [] → c ≠ '*' := by
        rintro rfl
        cases h
      exact blockComment c cs (ne_pair_append hne hend) (ih h)

/-- Behind trivia the walk goes on as if they were not there. -/
lemma isTriviaFrom_append {mode : GapMode} {gap : List Char} (h : isTriviaFrom mode gap = true)
    (rest : List Char) : isTriviaFrom mode (gap ++ rest) = isTrivia rest := by
  refine isTriviaFrom_induction (motive := fun mode gap =>
    isTriviaFrom mode (gap ++ rest) = isTrivia rest) rfl (fun _ ih => ih) (fun _ ih => ih)
    ?blank ?lineComment (fun _ ih => ih) ?blockComment h
  case blank =>
    intro c cs hblank ih
    rw [List.cons_append, isTriviaFrom_code_cons hblank, ih]
  case lineComment =>
    intro c cs ih
    rw [List.cons_append, isTriviaFrom, ih]
  case blockComment =>
    intro c cs hend ih
    rw [List.cons_append, isTriviaFrom_blockComment_cons (hend rest), ih]

lemma isTrivia_append {gap gap' : List Char} (h : isTrivia gap = true) :
    isTrivia (gap ++ gap') = isTrivia gap' :=
  isTriviaFrom_append h gap'

/-- White space is trivia. -/
lemma isTrivia_of_forall {blanks : List Char}
    (h : ∀ c ∈ blanks, (isLineEnd c || isGap c) = true) : isTrivia blanks = true := by
  induction blanks with
  | nil => rfl
  | cons c cs ih =>
      rw [List.forall_mem_cons] at h
      rw [isTrivia, isTriviaFrom_code_cons h.1]
      exact ih h.2

/-- A script is read as if trivia were not there, except for whether a line ended in
them. -/
lemma skipGap_isTriviaFrom {mode : GapMode} {gap : List Char} (h : isTriviaFrom mode gap = true)
    (broken : Bool) (offset : ℕ) (rest : List Char) :
    skipGap broken offset mode (gap ++ rest) =
      skipGap (broken || gap.any isLineEnd) (offset + byteLength gap) .code rest := by
  have hmark (c d : Char) (cs : List Char) (hc : c.utf8Size = 1) (hd : d.utf8Size = 1) :
      byteLength (c :: d :: cs) = 2 + byteLength cs := by
    rw [byteLength, byteLength, hc, hd]
    omega
  refine isTriviaFrom_induction (motive := fun mode gap => ∀ broken offset,
      skipGap broken offset mode (gap ++ rest) =
        skipGap (broken || gap.any isLineEnd) (offset + byteLength gap) .code rest)
    (fun broken offset => by simp [byteLength]) ?slashes ?opening ?blank ?lineComment ?closing
    ?blockComment h broken offset
  case slashes | opening | closing =>
    intro cs ih broken offset
    rw [List.cons_append, List.cons_append, skipGap, ih, hmark _ _ _ rfl rfl, Nat.add_assoc]
    rfl
  case blank =>
    intro c cs hblank ih broken offset
    have hslash := ne_slash_of_isLineEnd_or_isGap hblank
    rw [List.cons_append, skipGap, byteLength, ← Nat.add_assoc, List.any_cons, ← Bool.or_assoc,
      ← ih]
    · split
      · rename_i hend
        rw [hend, Bool.or_true]
      · rename_i hend
        rw [Bool.eq_false_of_not_eq_true hend, Bool.false_or] at hblank
        rw [if_pos hblank, Bool.eq_false_of_not_eq_true hend, Bool.or_false]
    · exact fun _ hc => absurd hc hslash
    · exact fun _ hc => absurd hc hslash
  case lineComment =>
    intro c cs ih broken offset
    rw [List.cons_append, skipGap, byteLength, ← Nat.add_assoc, List.any_cons, ← Bool.or_assoc,
      ← ih]
    split
    · rename_i hend
      rw [hend, Bool.or_true]
    · rename_i hend
      rw [Bool.eq_false_of_not_eq_true hend, Bool.or_false]
  case blockComment =>
    intro c cs hend ih broken offset
    rw [List.cons_append, skipGap, byteLength, ← Nat.add_assoc, List.any_cons, ← Bool.or_assoc]
    · exact ih _ _
    · exact hend rest

/-- What is passed over before a text goes on is trivia. -/
lemma exists_append_of_skipGap {broken : Bool} {offset : ℕ} {mode : GapMode} {cs : List Char}
    (h : (skipGap broken offset mode cs).1.chars ≠ []) :
    ∃ gap, isTriviaFrom mode gap = true ∧ cs = gap ++ (skipGap broken offset mode cs).1.chars := by
  fun_induction skipGap broken offset mode cs with
  | case1 => exact absurd rfl h
  | case2 broken offset cs ih =>
      obtain ⟨gap, hgap, hcs⟩ := ih h
      exact ⟨'/' :: '/' :: gap, hgap, congrArg ('/' :: '/' :: ·) hcs⟩
  | case3 broken offset cs ih =>
      obtain ⟨gap, hgap, hcs⟩ := ih h
      exact ⟨'/' :: '*' :: gap, hgap, congrArg ('/' :: '*' :: ·) hcs⟩
  | case4 broken offset c cs _ _ hend ih =>
      obtain ⟨gap, hgap, hcs⟩ := ih h
      refine ⟨c :: gap, ?_, congrArg (c :: ·) hcs⟩
      rwa [isTriviaFrom_code_cons (by rw [hend, Bool.true_or])]
  | case5 broken offset c cs _ _ _ hblank ih =>
      obtain ⟨gap, hgap, hcs⟩ := ih h
      refine ⟨c :: gap, ?_, congrArg (c :: ·) hcs⟩
      rwa [isTriviaFrom_code_cons (by rw [hblank, Bool.or_true])]
  | case6 => exact ⟨[], rfl, rfl⟩
  | case7 broken offset c cs hend ih =>
      obtain ⟨gap, hgap, hcs⟩ := ih h
      refine ⟨c :: gap, ?_, congrArg (c :: ·) hcs⟩
      rwa [isTriviaFrom, if_pos hend]
  | case8 broken offset c cs hend ih =>
      obtain ⟨gap, hgap, hcs⟩ := ih h
      refine ⟨c :: gap, ?_, congrArg (c :: ·) hcs⟩
      rwa [isTriviaFrom, if_neg hend]
  | case9 broken offset cs ih =>
      obtain ⟨gap, hgap, hcs⟩ := ih h
      exact ⟨'*' :: '/' :: gap, hgap, congrArg ('*' :: '/' :: ·) hcs⟩
  | case10 broken offset c cs hend ih =>
      obtain ⟨gap, hgap, hcs⟩ := ih h
      refine ⟨c :: gap, ?_, congrArg (c :: ·) hcs⟩
      rw [isTriviaFrom_blockComment_cons]
      · exact hgap
      · rintro rest rfl rfl
        exact hend _ rfl hcs
/-- Trivia are cut from a text in one way: what begins with them and goes on
with a token begins with all of them. -/
lemma exists_append_of_isTrivia {gap gap' rest rest' : List Char} {c : Char}
    (h : gap ++ rest = gap' ++ c :: rest') (hgap : isTrivia gap = true)
    (hgap' : isTrivia gap' = true) (hc : endsGap c = true) :
    ∃ more, gap' = gap ++ more ∧ rest = more ++ c :: rest' ∧ isTrivia more = true := by
  rcases List.append_eq_append_iff.mp h with ⟨more, hmore, hrest⟩ | ⟨more, hmore, hrest⟩
  · refine ⟨more, hmore, hrest, ?_⟩
    rwa [hmore, isTrivia_append hgap] at hgap'
  · cases more with
    | nil => exact ⟨[], by simpa using hmore.symm, by simpa using hrest.symm, rfl⟩
    | cons d more =>
        -- the token would begin inside the trivia
        rw [List.cons_append, List.cons.injEq] at hrest
        rw [hmore, isTrivia_append hgap', ← hrest.1, isTrivia_cons_of_endsGap hc] at hgap
        cases hgap

/-- In front of a token trivia end in one place. -/
lemma append_inj_of_isTrivia {gap gap' rest rest' : List Char} {c c' : Char}
    (h : gap ++ c :: rest = gap' ++ c' :: rest') (hgap : isTrivia gap = true)
    (hgap' : isTrivia gap' = true) (hc : endsGap c = true) (hc' : endsGap c' = true) :
    gap = gap' ∧ c = c' ∧ rest = rest' := by
  obtain ⟨more, hmore, hrest, htrivia⟩ := exists_append_of_isTrivia h hgap hgap' hc'
  cases more with
  | nil => exact ⟨by simpa using hmore.symm, by simpa using hrest⟩
  | cons d more =>
      rw [List.cons_append, List.cons.injEq] at hrest
      rw [← hrest.1, isTrivia_cons_of_endsGap hc] at htrivia
      cases htrivia

/-! ### White space at the start of a line -/

/-- A text that ends in a line feed goes on to it behind its first character. -/
lemma ends_cons {c : Char} {cs : List Char}
    (h : ∀ d, (c :: cs).getLast? = some d → d = '\n') :
    (∀ d, cs.getLast? = some d → d = '\n') ∧ (cs = [] → c = '\n') := by
  constructor
  · intro d hd
    refine h d ?_
    rw [List.getLast?_cons, hd, Option.getD_some]
  · rintro rfl
    exact h c rfl

/-- A text that begins with a pair of characters and is cut in two behind a line
feed is cut in front of the pair or behind it. -/
lemma pair_append_cases {a b : Char} {cs gap blanks : List Char}
    (h : a :: b :: cs = gap ++ blanks) (ha : a ≠ '\n')
    (hline : ∀ c, gap.getLast? = some c → c = '\n') :
    gap = [] ∧ blanks = a :: b :: cs ∨ ∃ gap', gap = a :: b :: gap' ∧ cs = gap' ++ blanks ∧
      (∀ c, gap'.getLast? = some c → c = '\n') ∧ (gap' = [] → b = '\n') := by
  rcases gap with _ | ⟨c, _ | ⟨d, gap⟩⟩
  · exact .inl ⟨rfl, h.symm⟩
  · obtain ⟨rfl, -⟩ := List.cons.inj h
    exact absurd ((ends_cons hline).2 rfl) ha
  · simp only [List.cons_append, List.cons.injEq] at h
    obtain ⟨rfl, rfl, hcs⟩ := h
    exact .inr ⟨gap, rfl, hcs, ends_cons (ends_cons hline).1⟩

/-- White space that begins a line is in no comment, so the trivia before it
are whole. -/
lemma isTriviaFrom_of_append_blanks {mode : GapMode} {gap blanks : List Char}
    (h : isTriviaFrom mode (gap ++ blanks) = true) (hblanks : '/' ∉ blanks)
    (hline : ∀ c, gap.getLast? = some c → c = '\n') (hmode : gap = [] → mode ≠ .lineComment) :
    isTriviaFrom mode gap = true := by
  refine isTriviaFrom_induction (motive := fun mode text => ∀ gap blanks, text = gap ++ blanks →
      '/' ∉ blanks → (∀ c, gap.getLast? = some c → c = '\n') →
      (gap = [] → mode ≠ .lineComment) → isTriviaFrom mode gap = true)
    ?nil ?slashes ?opening ?blank ?lineComment ?closing ?blockComment h gap blanks rfl hblanks
    hline hmode
  case nil =>
    intro gap blanks hcut _ _ _
    rw [(List.append_eq_nil_iff.mp hcut.symm).1]
    rfl
  case slashes =>
    intro cs ih gap blanks hcut hblanks hline _
    obtain ⟨rfl, -⟩ | ⟨gap, rfl, hcs, hline, hlast⟩ := pair_append_cases hcut (by decide) hline
    · rfl
    · exact ih gap blanks hcs hblanks hline fun hnil => absurd (hlast hnil) (by decide)
  case opening =>
    intro cs ih gap blanks hcut hblanks hline _
    obtain ⟨rfl, -⟩ | ⟨gap, rfl, hcs, hline, -⟩ := pair_append_cases hcut (by decide) hline
    · rfl
    · exact ih gap blanks hcs hblanks hline fun _ => by decide
  case blank =>
    intro c cs hblank ih gap blanks hcut hblanks hline _
    cases gap with
    | nil => rfl
    | cons d gap =>
        obtain ⟨rfl, hcs⟩ := List.cons.inj hcut
        rw [isTriviaFrom_code_cons hblank]
        exact ih gap blanks hcs hblanks (ends_cons hline).1 fun _ => by decide
  case lineComment =>
    intro c cs ih gap blanks hcut hblanks hline hmode
    cases gap with
    | nil => exact absurd rfl (hmode rfl)
    | cons d gap =>
        obtain ⟨rfl, hcs⟩ := List.cons.inj hcut
        obtain ⟨hline, hlast⟩ := ends_cons hline
        rw [isTriviaFrom]
        refine ih gap blanks hcs hblanks hline fun hnil => ?_
        rw [hlast hnil]
        decide
  case closing =>
    intro cs ih gap blanks hcut hblanks hline _
    obtain ⟨-, rfl⟩ | ⟨gap, rfl, hcs, hline, -⟩ := pair_append_cases hcut (by decide) hline
    · exact absurd (List.mem_cons_of_mem _ List.mem_cons_self) hblanks
    · exact ih gap blanks hcs hblanks hline fun _ => by decide
  case blockComment =>
    intro c cs hend ih gap blanks hcut hblanks hline _
    cases gap with
    | nil =>
        -- the comment would end where it goes on
        obtain rfl : c :: cs = blanks := hcut
        exact absurd (ih [] cs rfl (fun hmem => hblanks (List.mem_cons_of_mem _ hmem))
          (fun _ hnone => nomatch hnone) fun _ => by decide) (by decide)
    | cons d gap =>
        obtain ⟨rfl, rfl⟩ := List.cons.inj hcut
        rw [isTriviaFrom_blockComment_cons]
        · exact ih gap blanks rfl hblanks (ends_cons hline).1 fun _ => by decide
        · rintro rest hc rfl
          exact hend [] (rest ++ blanks) hc (List.append_nil _)

end GraphMigrate.Script
