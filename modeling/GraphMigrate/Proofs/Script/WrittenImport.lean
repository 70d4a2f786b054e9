/-
Imports that are read as they are written.

A migration that needs the name of another module imports it on a line of its own.
The line is read as an import of that name, whatever stands behind it and on which
line it stands.

* `begins_quoted`: a string without marks of its own;
* `takes_specifiers`: one name in braces;
* `takes_import`: the import of a name.
-/
import GraphMigrate.Proofs.Script.Reading.Directives
import GraphMigrate.Proofs.Script.WrittenDeclaration

namespace GraphMigrate.Script

/-- A character that stands for itself in a string in double quotes. -/
def isQuotable (c : Char) : Bool := c != '"' && c != '\\' && c != '\n' && c != '\r'

lemma readQuoted_of_isQuotable {path : List Char} (h : ∀ c ∈ path, isQuotable c = true)
    (offset : ℕ) (rest : List Char) :
    ∃ stop, readQuoted '"' offset (path ++ '"' :: rest) = (.quoted, ⟨stop, rest⟩) := by
  induction path generalizing offset with
  | nil =>
      refine ⟨offset + 1, ?_⟩
      rw [List.nil_append, readQuoted, if_pos rfl]
      all_goals simp
  | cons c path ih =>
      rw [List.forall_mem_cons] at h
      obtain ⟨hc, hpath⟩ := h
      simp only [isQuotable, Bool.and_eq_true, bne_iff_ne] at hc
      obtain ⟨⟨⟨hquote, hescape⟩, hline⟩, hreturn⟩ := hc
      obtain ⟨stop, hstop⟩ := ih hpath (offset + c.utf8Size)
      refine ⟨stop, ?_⟩
      rw [List.cons_append, readQuoted, if_neg hquote, if_neg (by simp [hline, hreturn]), hstop]
      all_goals simp [hescape]

/-- A string without marks of its own is read up to its closing quote. -/
lemma begins_quoted {path : List Char} (h : ∀ c ∈ path, isQuotable c = true) (rest : List Char) :
    Begins ('"' :: path ++ ['"']) rest .quoted := by
  refine begins_of_read rfl fun offset => ?_
  obtain ⟨stop, hstop⟩ := readQuoted_of_isQuotable h (offset + 1) rest
  have hword : isWordStart '"' = false := by decide
  refine ⟨stop, ?_⟩
  rw [← hstop]
  simp [Token.read, hword]

namespace Grammar

variable {context : Context} {depth : ℕ} {first path rest : List Char} {name : String}

/-- A reader that only looks. -/
lemma takes_peekSecond : Takes context peekSecond [] rest fun _ => True :=
  fun offset lastStop => ⟨_, offset, lastStop, rfl, trivial⟩

lemma takes_atWord {written : List Char} {kind : TokenKind} (h : Begins written rest kind)
    (word : String) :
    Takes context (atWord word) [] (written ++ rest) (· = TokenKind.isWord kind word) := by
  unfold atWord
  refine (takes_token h).andThen fun t ht => .pure ?_
  rw [ht]

lemma takes_atAnyWord {written : List Char} {kind : TokenKind} (h : Begins written rest kind) :
    Takes context atAnyWord [] (written ++ rest) (· = TokenKind.isAnyWord kind) := by
  unfold atAnyWord
  refine (takes_token h).andThen fun t ht => .pure ?_
  rw [ht]

lemma takes_eatWord_of_punct {written : List Char} {p : Punct} (h : Begins written rest (.punct p))
    (word : String) : Takes context (eatWord word) [] (written ++ rest) (· = false) := by
  unfold eatWord
  refine (takes_atWord h word).andThen fun found hfound => ?_
  rw [hfound, if_neg (by simp [TokenKind.isWord])]
  exact .pure rfl

/-- A name in braces that does not mark a type. -/
lemma takes_specifier (hword : isWord name = true) (hname : name ≠ "type") :
    Takes context specifier (' ' :: name.toList) ([' ', '}'] ++ rest) (· = name) := by
  have hbegins : Begins (' ' :: name.toList) ([' ', '}'] ++ rest) (.word name false) :=
    (begins_word hword (EndsItem.close rest).endsWord).space
  have hclose := begins_close rest
  have hmodule : Takes context moduleName (' ' :: name.toList) ([' ', '}'] ++ rest)
      (· = name) := by
    unfold moduleName anyWord
    refine (takes_token hbegins).look fun t ht => ?_
    rw [ht, if_neg (by simp)]
    refine Takes.andThen (P := (·.1 = name)) ?_ fun found hfound => .pure hfound
    refine (takes_token hbegins).look fun t ht => ?_
    rw [ht]
    exact (takes_advance hbegins).andThen fun _ _ => .pure rfl
  unfold specifier
  refine hmodule.andThen fun found hfound => takes_peek.andThen fun _ _ => ?_
  subst hfound
  rw [beq_eq_false_iff_ne.mpr hname]
  refine takes_hasTypes.andThen fun types _ => (takes_token hclose).andThen fun t _ => ?_
  refine (takes_atAnyWord hclose).andThen fun _ _ =>
    (takes_atWord hclose "as").andThen fun _ _ => ?_
  rw [Bool.false_and, Bool.false_and, Bool.false_and, if_neg Bool.false_ne_true]
  change Takes context (do if (← eatWord "as") = true then moduleName else pure found) _ _ _
  refine (takes_eatWord_of_punct hclose "as").andThen fun as has => ?_
  rw [has, if_neg Bool.false_ne_true]
  exact .pure rfl

/-- One name in braces. -/
lemma takes_specifiers (hword : isWord name = true) (hname : name ≠ "type") :
    Takes context specifiers ([' ', '{'] ++ (' ' :: name.toList ++ [' ', '}'])) rest
      (· = [name]) := by
  have hopen : Begins [' ', '{'] (' ' :: name.toList ++ [' ', '}'] ++ rest) (.punct .lbrace) :=
    (begins_open _).space
  have hbegins : Begins (' ' :: name.toList) ([' ', '}'] ++ rest) (.word name false) :=
    (begins_word hword (EndsItem.close rest).endsWord).space
  unfold specifiers
  refine (takes_expect hopen).bind fun _ _ => takes_loop_once ?_
  refine Takes.look (by simpa using takes_eat_of_ne hbegins (by simp)) fun closed hclosed => ?_
  rw [hclosed, if_neg Bool.false_ne_true]
  refine (takes_specifier hword hname).bind fun found hfound => ?_
  refine (takes_eat (begins_close rest)).andThen fun closed hclosed => ?_
  rw [hclosed, if_pos rfl, hfound]
  exact .pure ⟨_, rfl, rfl⟩

/-- The module that a name comes from, without attributes. -/
lemma takes_moduleSource {rec : Rec} (hpath : ∀ c ∈ path, isQuotable c = true) :
    Takes context (moduleSource rec) (' ' :: '"' :: path ++ ['"']) ([';'] ++ rest)
      fun _ => True := by
  have hquoted : Begins (' ' :: '"' :: path ++ ['"']) ([';'] ++ rest) .quoted :=
    (begins_quoted hpath _).space
  unfold moduleSource
  refine (takes_token hquoted).look fun t ht => ?_
  rw [ht]
  dsimp only
  rw [if_pos (beq_self_eq_true _)]
  refine (takes_advance hquoted).andThen fun _ _ => ?_
  refine (takes_token (begins_semicolon rest)).andThen fun t ht => ?_
  rw [ht, if_neg (by simp [TokenKind.isWord])]
  exact .pure trivial

/-- What stands behind the word of an import. -/
def importTail (name : String) (path : List Char) : List Char :=
  [' ', '{'] ++ (' ' :: name.toList ++ [' ', '}']) ++
    (" from".toList ++ ((' ' :: '"' :: path ++ ['"']) ++ [';']))

/-- The end of an import. -/
lemma takes_importSource {rec : Rec} (hpath : ∀ c ∈ path, isQuotable c = true) (start : ℕ)
    (names : List String) :
    Takes context (importSource rec start names)
      (" from".toList ++ ((' ' :: '"' :: path ++ ['"']) ++ [';'])) rest
      fun n => ∃ span, n = .imports names span := by
  have hfrom : Begins " from".toList ((' ' :: '"' :: path ++ ['"']) ++ [';'] ++ rest)
      (.word "from" false) := by
    have hends : EndsWord (((' ' :: '"' :: path ++ ['"']) ++ [';']) ++ rest) := by
      rintro c ⟨⟩
      decide
    have hword : Begins "from".toList ((' ' :: '"' :: path ++ ['"']) ++ [';'] ++ rest)
        (.word "from" false) := begins_word (by decide) hends
    exact hword.space
  unfold importSource expectWord
  refine Takes.bind (P := fun _ => True) ?_ fun _ _ => ?_
  · refine (takes_atWord hfrom "from").look fun found hfound => ?_
    rw [hfound, if_pos (by simp [TokenKind.isWord])]
    exact takes_advance hfrom
  · refine (takes_moduleSource hpath).bind fun _ _ => takes_semicolon.andThen fun _ _ => ?_
    exact (takes_spanFrom start).andThen fun span _ => .pure ⟨span, rfl⟩

section Import

variable (hfirst : ∀ later, Begins first (' ' :: later) (.word "import" false))

include hfirst

lemma takes_importWord : Takes context token [] (first ++ importTail name path ++ rest)
    (·.kind = .word "import" false) := by
  simpa [importTail] using takes_token (hfirst _)

lemma takes_importBrace : Takes context peek [] (first ++ importTail name path ++ rest)
    (·.kind = .punct .lbrace) := by
  have hpeek : ∀ later, Takes context peek [] (first ++ ([' ', '{'] ++ (' ' :: later)))
      (·.kind = .punct .lbrace) := fun later => takes_peekAt (hfirst _) (begins_open _).space
  simpa [importTail] using hpeek _

/-- An import from its word on. -/
lemma takes_importDeclaration {rec : Rec} (hword : isWord name = true) (hname : name ≠ "type")
    (hpath : ∀ c ∈ path, isQuotable c = true) (start : ℕ) :
    Takes context (importDeclaration rec start) (first ++ importTail name path) rest
      fun n => ∃ span, n = .imports [name] span := by
  obtain ⟨later, htail⟩ : ∃ later, importTail name path ++ rest = [' ', '{'] ++ later :=
    ⟨_, by simp [importTail]; rfl⟩
  have hopen : Begins [' ', '{'] later (.punct .lbrace) := (begins_open later).space
  have hnoWord : ∀ word, Takes context (atWord word) [] (importTail name path ++ rest)
      (· = false) := fun word => by
    rw [htail]
    exact takes_atWord hopen word
  unfold importDeclaration
  refine Takes.bind (by simpa [importTail] using takes_advance (hfirst _)) fun _ _ => ?_
  refine Takes.look (P := (·.kind = .punct .lbrace)) (htail ▸ takes_token hopen) fun t ht => ?_
  rw [ht, if_neg (by decide)]
  refine takes_peek.look fun _ _ => takes_peekSecond.look fun _ _ => takes_hasTypes.look
    fun types _ => (hnoWord "type").look fun found hfound => ?_
  rw [hfound, Bool.and_false, Bool.false_and, if_neg Bool.false_ne_true]
  have hphase : Takes context atImportPhase [] (importTail name path ++ rest) (· = false) := by
    unfold atImportPhase
    refine takes_peek.andThen fun _ _ => takes_peekSecond.andThen fun _ _ =>
      (hnoWord "defer").andThen fun found hfound => ?_
    rw [hfound]
    refine (hnoWord "source").andThen fun found hfound => ?_
    rw [hfound]
    exact .pure rfl
  refine hphase.look fun found hfound => ?_
  rw [hfound, if_neg Bool.false_ne_true]
  refine Takes.look (P := (· = false)) (htail ▸ takes_atAnyWord hopen) fun found hfound => ?_
  rw [hfound, if_neg Bool.false_ne_true]
  refine Takes.look (P := (· = false)) (htail ▸ takes_eat_of_ne hopen (by decide))
    fun found hfound => ?_
  rw [hfound, if_neg Bool.false_ne_true]
  refine Takes.look (P := (· = true)) (htail ▸ takes_atPunct hopen .lbrace) fun found hfound => ?_
  rw [hfound, if_pos rfl]
  refine (takes_specifiers hword hname).bind fun names hnames => ?_
  rw [hnames]
  exact takes_importSource hpath start [name]

/-- **The import of a name is read as a statement.** -/
lemma takes_import (hword : isWord name = true) (hname : name ≠ "type")
    (hpath : ∀ c ∈ path, isQuotable c = true) :
    Takes context (read (depth + 1) .statement) (first ++ importTail name path) rest
      fun n => ∃ span, n = .imports [name] span := by
  change Takes context (statementReader (read depth)) _ _ _
  unfold statementReader
  refine (takes_importWord hfirst).look fun t ht => ?_
  rw [ht]
  refine (takes_importBrace hfirst).look fun q hq => ?_
  rw [show isVariable (.word "import" false) = false from rfl, Bool.false_and, if_neg (by decide),
    if_neg (by decide)]
  unfold wordStatement
  refine (takes_importBrace hfirst).look fun q hq => takes_hasTypes.look fun types _ => ?_
  have hdeclaration : Takes context (if (TokenKind.isPunct q.kind .lparen ||
        TokenKind.isPunct q.kind .dot) = true then expressionStatement (read depth) t.span.start
      else importDeclaration (read depth) t.span.start) (first ++ importTail name path) rest
      fun n => ∃ span, n = .imports [name] span := by
    rw [hq, if_neg (by simp [TokenKind.isPunct])]
    exact takes_importDeclaration hfirst hword hname hpath _
  cases types with
  | false => exact hdeclaration
  | true =>
      have htyped : Takes context (typedStatement? (read depth) t.span.start "import") []
          (first ++ importTail name path ++ rest) (· = none) := by
        unfold typedStatement?
        exact takes_peek.andThen fun _ _ => .pure rfl
      refine htyped.look fun found hfound => ?_
      rw [hfound]
      exact hdeclaration

end Import

/-! ### Lines -/

/-- The line that imports a name. -/
def importLine (name : String) (path : List Char) : List Char :=
  "import".toList ++ importTail name path ++ ['\n']

/-- A node that imports one name. -/
def Imports (name : String) (n : Node) : Prop := ∃ span, n = .imports [name] span

/-- What can be imported by a line. -/
structure Importable (line : String × List Char) : Prop where
  isWord : isWord line.1 = true
  ne_type : line.1 ≠ "type"
  isQuotable : ∀ c ∈ line.2, isQuotable c = true

lemma begins_import {blank : List Char} (hblank : ∀ c ∈ blank, isLineEnd c = true)
    (later : List Char) :
    Begins (blank ++ "import".toList) (' ' :: later) (.word "import" false) := by
  have hends : EndsWord (' ' :: later) := by
    rintro c ⟨⟩
    decide
  have hword : Begins "import".toList (' ' :: later) (.word "import" false) :=
    begins_word (by decide) hends
  exact hword.gap fun c hc => .inl (hblank c hc)

/-- The token before a text that begins with it. -/
lemma kind_before {written : List Char} {kind : TokenKind} (h : Begins written rest kind)
    (offset lastStop : ℕ) (context : Context) :
    (State.before (written ++ rest) offset lastStop context).token.kind = kind := by
  obtain ⟨t, stop, ht, hkind, -⟩ := h.next offset
  rw [State.before, ht]
  exact hkind

section Lines

variable {bound : ℕ} {items found : List Node} {later : State} {offset lastStop : ℕ}

/-- Whatever stands behind lines of imports, a module that begins with them imports
the names one by one and goes on behind them. -/
lemma exists_imports_of_loopUpTo {lines : List (String × List Char)}
    (hlines : ∀ line ∈ lines, Importable line) {blank : List Char}
    (hblank : ∀ c ∈ blank, isLineEnd c = true)
    (hrun : loopUpTo bound (moduleStep (depth + 1)) items
      (.before (blank ++ (lines.flatMap fun line => importLine line.1 line.2) ++ rest) offset
        lastStop context) = .ok (found, later)) :
    ∃ heads bound' mid, List.Forall₂ (fun line n => Imports line.1 n) lines heads ∧
      loopUpTo bound' (moduleStep (depth + 1)) (heads.reverse ++ items) mid =
        .ok (found, later) := by
  induction lines generalizing bound items blank offset lastStop with
  | nil => exact ⟨[], bound, _, .nil, hrun⟩
  | cons line lines ih =>
      obtain ⟨hline, hlines⟩ := List.forall_mem_cons.mp hlines
      cases bound with
      | zero => cases hrun
      | succ bound =>
          let behind := (lines.flatMap fun line => importLine line.1 line.2) ++ rest
          have htext : blank ++ ((line :: lines).flatMap fun line => importLine line.1 line.2) ++
              rest = blank ++ "import".toList ++ importTail line.1 line.2 ++
                (['\n'] ++ behind) := by
            simp [importLine, behind]
          rw [htext] at hrun
          have hread : Takes context (read (depth + 1) .statement)
              (blank ++ "import".toList ++ importTail line.1 line.2) (['\n'] ++ behind)
              (Imports line.1) :=
            takes_import (begins_import hblank) hline.isWord hline.ne_type hline.isQuotable
          obtain ⟨n, offset', lastStop', hread, hn⟩ := hread offset lastStop
          have hkind : (State.before (blank ++ "import".toList ++ importTail line.1 line.2 ++
              (['\n'] ++ behind)) offset lastStop context).token.kind = .word "import" false := by
            have htail : ∃ later, importTail line.1 line.2 ++ (['\n'] ++ behind) = ' ' :: later :=
              ⟨_, rfl⟩
            obtain ⟨later, hlater⟩ := htail
            rw [List.append_assoc, hlater]
            exact kind_before (begins_import hblank later) offset lastStop context
          rw [loopUpTo_of_statement (by rw [hkind]; nofun) hread, ← List.append_assoc] at hrun
          have hnewline : ∀ c ∈ ['\n'], isLineEnd c = true := List.forall_mem_singleton.mpr rfl
          obtain ⟨heads, bound', mid, hheads, hrun⟩ := ih hlines hnewline hrun
          exact ⟨n :: heads, bound', mid, .cons hn hheads, by simpa using hrun⟩

/-- A module keeps the statements that it has. -/
lemma exists_append_of_loopUpTo {depth : ℕ} {s : State}
    (hrun : loopUpTo bound (moduleStep depth) items s = .ok (found, later)) :
    ∃ more, found = items.reverse ++ more := by
  induction bound generalizing items s with
  | zero => cases hrun
  | succ bound ih =>
      by_cases hkind : s.token.kind = .finish
      · have hstep : moduleStep depth items s = .ok (.inr items.reverse, s) := by
          rw [moduleStep, token_bind, hkind]
          rfl
        rw [loopUpTo, bind_of_ok hstep] at hrun
        cases hrun
        exact ⟨[], (List.append_nil _).symm⟩
      · cases hread : read depth .statement s with
        | error e =>
            rw [loopUpTo_of_error hkind hread] at hrun
            cases hrun
        | ok result =>
            rw [loopUpTo_of_statement hkind hread] at hrun
            obtain ⟨more, hmore⟩ := ih hrun
            exact ⟨result.1 :: more, by simpa using hmore⟩

end Lines

end Grammar

/-- **A module that begins with lines of imports binds their names.** -/
theorem Module.exists_imports_of_parse {language : Language} {text : List Char} {script : Module}
    {lines : List (String × List Char)} (hlines : ∀ line ∈ lines, Grammar.Importable line)
    (h : parseModule language
      ((lines.flatMap fun line => Grammar.importLine line.1 line.2) ++ text) = .ok script) :
    ∃ heads rest, script.items = heads ++ rest ∧
      List.Forall₂ (fun line n => Grammar.Imports line.1 n) lines heads := by
  cases lines with
  | nil => exact ⟨[], script.items, rfl, .nil⟩
  | cons line lines =>
      -- neither a byte order mark nor an interpreter stands before the first import
      have hfirst : ∃ cs, ((line :: lines).flatMap fun line => Grammar.importLine line.1 line.2) ++
          text = 'i' :: cs := ⟨_, rfl⟩
      obtain ⟨cs, hcs⟩ := hfirst
      have hmark : dropByteOrderMark ('i' :: cs) = 'i' :: cs := rfl
      have hstart : skipInterpreterLine ⟨0, 'i' :: cs⟩ = ⟨0, 'i' :: cs⟩ := rfl
      unfold parseModule at h
      rw [hcs, hmark] at h
      dsimp only at h
      rw [hstart] at h
      split at h
      next items later hrun =>
        cases h
        have hdepth : Grammar.depthBound ('i' :: cs).length =
            (16 * ('i' :: cs).length + 63) + 1 := rfl
        rw [hdepth, Grammar.moduleItems_eq] at hrun
        have hblank : ∀ c ∈ ([] : List Char), isLineEnd c = true := List.forall_mem_nil _
        obtain ⟨heads, bound, mid, hheads, hrun⟩ := Grammar.exists_imports_of_loopUpTo hlines hblank
          (by rw [List.nil_append, hcs]; exact hrun)
        obtain ⟨rest, hrest⟩ := Grammar.exists_append_of_loopUpTo hrun
        refine ⟨heads, rest, ?_, hheads⟩
        simpa using hrest
      next => cases h

end GraphMigrate.Script
