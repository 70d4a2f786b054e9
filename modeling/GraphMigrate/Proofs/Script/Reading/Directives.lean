/-
Statements that are strings.

A statement that begins with a string goes through all levels of the grammar of
expressions down to the reader of operands, and what those levels read next they
read behind the string.  So a string is a statement of its own where nothing goes
on with it, and otherwise whatever the statement records is behind the string.

* `ReadsString`: a reader whose first operand is a string;
* `readsString_read`: all levels of expressions are such readers;
* `statement_of_stopsString`, `statement_behind`, `exists_error_of_isPlain`: the
  statements that begin with a string;
* `Token.blankBefore`: a text in which nothing stands in front of a token;
* `Module.exists_prologue_of_parse`: **a script begins with its directives, and
  what its nodes record is behind them**.
-/
import GraphMigrate.Proofs.Script.Prologue
import GraphMigrate.Proofs.Script.Reading.Statements

namespace GraphMigrate.Script.Grammar

open Std.Do

set_option mvcgen.warning false

/-- The state behind the next token. -/
def State.behind (s : State) : State :=
  { s with token := Token.next s.token.after, lastStop := s.token.after.offset }

/-- Strings, and what is none but read at the same place: malformed strings and hash
signs that no name follows. -/
inductive IsPlain : TokenKind → Prop
  | quoted : IsPlain .quoted
  | fault (offset : Nat) : IsPlain (.fault offset)
  | hash : IsPlain .hash

/-- What nothing goes on with behind a string. -/
inductive StopsString : TokenKind → Prop
  | quoted {kind : TokenKind} (h : IsPlain kind) : StopsString kind
  | semicolon : StopsString (.punct .semicolon)

section Operands

variable {α β : Type} {s : State} {rec : Rec}

lemma bind_of_ok {p : Parse α} {a : α} {later : State} (h : p s = .ok (a, later))
    (f : α → Parse β) : (p >>= f) s = f a later := by
  change (p s >>= _) = _
  rw [h]
  rfl

lemma bind_of_error {p : Parse α} {e : SyntaxError} (h : p s = .error e) (f : α → Parse β) :
    (p >>= f) s = .error e := by
  change (p s >>= _) = _
  rw [h]
  rfl

lemma token_bind (f : Token → Parse β) : (token >>= f) s = f s.token s := rfl

lemma here_bind (f : Nat → Parse β) : (here >>= f) s = f s.token.span.start s := rfl

lemma peek_bind (f : Token → Parse β) : (peek >>= f) s = f (Token.next s.token.after) s := rfl

lemma atWord_bind (word : String) (f : Bool → Parse β) :
    (atWord word >>= f) s = f (TokenKind.isWord s.token.kind word) s := rfl

lemma atPunct_bind (p : Punct) (f : Bool → Parse β) :
    (atPunct p >>= f) s = f (TokenKind.isPunct s.token.kind p) s := rfl

lemma eat_bind_of_false {p : Punct} (h : TokenKind.isPunct s.token.kind p = false)
    (f : Bool → Parse β) : (eat p >>= f) s = f false s := by
  rw [eat, bind_assoc, atPunct_bind, h]
  rfl

lemma loop_of_inr {step : α → Parse (α ⊕ β)} {a : α} {b : β}
    (h : step a s = .ok (.inr b, s)) : loop step a s = .ok (b, s) := by
  change loopUpTo (s.token.start.chars.length + 2) step a s = _
  rw [loopUpTo, bind_of_ok h]
  rfl

lemma primary_of_quoted (hkind : s.token.kind = .quoted) :
    primary rec s = .ok (.other [] s.token.span, s.behind) := by
  rw [primary, token_bind, hkind]
  rfl

lemma exists_error_of_primary (h : IsPlain s.token.kind) (hkind : s.token.kind ≠ .quoted) :
    ∃ e, primary rec s = .error e := by
  have hhash : ∃ e, (failAtHash : Parse Node) s = .error e := by
    rw [failAtHash, token_bind]
    split <;> exact ⟨_, rfl⟩
  rw [primary, token_bind]
  generalize s.token.kind = kind at h hkind
  cases h with
  | quoted => exact absurd rfl hkind
  | fault offset => exact ⟨_, rfl⟩
  | hash => exact hhash

lemma leftHandSide_eq (h : IsPlain s.token.kind) :
    leftHandSide rec s = (primary rec >>= subscripts rec {} s.token.span.start) s := by
  have hhead : chainHead rec s = primary rec s := by
    rw [chainHead, token_bind, peek_bind]
    generalize s.token.kind = kind at h
    cases h <;> rfl
  have hword : TokenKind.isWord s.token.kind "new" = false := by
    generalize s.token.kind = kind at h
    cases h <;> rfl
  rw [leftHandSide, here_bind, atWord_bind, hword]
  change (chainHead rec s >>= _) = (primary rec s >>= _)
  rw [hhead]

/-- Nothing follows a string. -/
lemma subscripts_of_stopsString (h : StopsString s.token.kind) (links : Links) (start : Nat)
    (n : Node) : subscripts rec links start n s = .ok (n, s) := by
  have hsubscript : subscript rec links start ⟨n, false⟩ s = .ok (none, s) := by
    rw [subscript, token_bind]
    generalize s.token.kind = kind at h
    rcases h with ⟨_ | _ | _⟩ | _ <;> rfl
  have hlinked : linked rec links start ⟨n, false⟩ s = .ok (.inr ⟨n, false⟩, s) := by
    rw [linked, bind_of_ok hsubscript]
    rfl
  rw [subscripts_eq, map_eq_pure_bind, bind_of_ok (loop_of_inr hlinked)]
  rfl

end Operands

variable [Subject] {p : Parse Node} {s : State} {rec : Rec}

/-- A reader whose first operand is a string.  What it reads behind the string it reads as a
reader of its own; if nothing goes on with the string, then the string is all that it
reads; and it stops at a string that is malformed. -/
structure ReadsString (p : Parse Node) (s : State) : Prop where
  fails : s.token.kind ≠ .quoted → ∃ e, p s = .error e
  behind : s.token.kind = .quoted → ∃ q : Parse Node, Reads q ∧ p s = q s.behind
  ends : s.token.kind = .quoted → StopsString s.behind.token.kind →
    p s = .ok (.other [] s.token.span, s.behind)

namespace ReadsString

lemma congr {q : Parse Node} (h : ReadsString q s) (heq : p s = q s) : ReadsString p s where
  fails := by rw [heq]; exact h.fails
  behind := by rw [heq]; exact h.behind
  ends := by rw [heq]; exact h.ends

lemma bind {f : Node → Parse Node} (h : ReadsString p s) (hf : ∀ n, Agrees text n → Reads (f n))
    (hends : StopsString s.behind.token.kind → ∀ n, f n s.behind = .ok (n, s.behind)) :
    ReadsString (p >>= f) s where
  fails hkind := by
    obtain ⟨e, he⟩ := h.fails hkind
    exact ⟨e, bind_of_error he f⟩
  behind hkind := by
    obtain ⟨q, hq, heq⟩ := h.behind hkind
    refine ⟨q >>= f, by mvcgen [hq, hf] with grind, ?_⟩
    change (p s >>= _) = (q s.behind >>= _)
    rw [heq]
  ends hkind hnext := by
    rw [bind_of_ok (h.ends hkind hnext)]
    exact hends hnext _

end ReadsString

section Levels

variable (hrec : ∀ goal, Reads (rec goal))

include hrec

lemma readsString_leftHandSide (h : IsPlain s.token.kind) :
    ReadsString (leftHandSide rec) s where
  fails hkind := by
    obtain ⟨e, he⟩ : ∃ e, primary rec s = .error e := exists_error_of_primary h hkind
    exact ⟨e, by rw [leftHandSide_eq h, bind_of_error he]⟩
  behind hkind := by
    refine ⟨subscripts rec {} s.token.span.start (.other [] s.token.span), ?_, ?_⟩
    · have hleaf : Agrees text (.other [] s.token.span : Node) := by grind
      refine triple_iff.mpr fun t ht => triple_iff.mp (reads_subscripts hrec _ _ hleaf) t ⟨ht, ?_⟩
      exact Node.precedes_of_not_isName (by grind) _
    · rw [leftHandSide_eq h, bind_of_ok (primary_of_quoted hkind)]
  ends hkind hnext := by
    rw [leftHandSide_eq h, bind_of_ok (primary_of_quoted hkind)]
    exact subscripts_of_stopsString hnext _ _ _

lemma readsString_unaryReader (h : IsPlain s.token.kind) : ReadsString (unaryReader rec) s := by
  have hplain : unaryReader rec s = (leftHandSide rec >>= fun inner => do
      let t ← token
      if (TokenKind.isPunct t.kind .increment || TokenKind.isPunct t.kind .decrement) &&
          !t.broken then
        advance
        group s.token.span.start [inner]
      else
        return inner) s := by
    rw [unaryReader, here_bind, token_bind]
    generalize s.token.kind = kind at h
    cases h <;> rfl
  refine ((readsString_leftHandSide hrec h).bind (fun n hn => ?_) fun hnext n => ?_).congr hplain
  · mvcgen with grind
  · rw [token_bind]
    generalize s.behind.token.kind = kind at hnext
    rcases hnext with ⟨_ | _ | _⟩ | _ <;> rfl

lemma readsString_binary (h : ReadsString (rec .unary) s) : ReadsString (binary rec) s := by
  refine (h.bind (f := fun left => climb rec s.token.span.start
    (s.token.start.chars.length + 2) left 0) (fun n hn => ?_) fun hnext n => ?_).congr rfl
  · exact reads_climb hrec _ _ hn _
  · have hoperator : operator? s.behind = .ok (none, s.behind) := by
      rw [operator?, token_bind]
      generalize s.behind.token.kind = kind at hnext
      rcases hnext with ⟨_ | _ | _⟩ | _ <;> rfl
    rw [climb, bind_of_ok hoperator]
    rfl

lemma readsString_conditional (h : ReadsString (rec .unary) s) :
    ReadsString (conditional rec) s := by
  refine ((readsString_binary hrec h).bind (f := fun test => do
    if ← eat .question then
      let yes ← within (fun c => { c with colonAhead := true, noIn := false }) (rec .assignment)
      expect .colon
      let no ← rec .assignment
      group s.token.span.start [test, yes, no]
    else
      return test) (fun n hn => ?_) fun hnext n => ?_).congr rfl
  · mvcgen [hrec] with grind
  · rw [eat_bind_of_false]
    · rfl
    · generalize s.behind.token.kind = kind at hnext
      rcases hnext with ⟨_ | _ | _⟩ | _ <;> rfl

lemma readsString_assignmentTail (h : ReadsString (rec .unary) s) :
    ReadsString (assignmentTail rec) s := by
  refine ((readsString_conditional hrec h).bind (f := fun left => do
    let t ← token
    let assigns := TokenKind.isPunct t.kind .assign || TokenKind.isPunct t.kind .opAssign ||
      (TokenKind.isPunct t.kind .greater && t.start.angles.1 == .assign)
    if assigns then
      let width := if TokenKind.isPunct t.kind .greater then t.start.angles.2 else t.span.length
      resume (t.start.drop width)
      let right ← rec .assignment
      group s.token.span.start [left, right]
    else
      return left) (fun n hn => ?_) fun hnext n => ?_).congr rfl
  · mvcgen [hrec] with grind
  · rw [token_bind]
    generalize s.behind.token.kind = kind at hnext
    rcases hnext with ⟨_ | _ | _⟩ | _ <;> rfl

lemma readsString_assignmentReader (hkind : IsPlain s.token.kind)
    (h : ReadsString (rec .unary) s) : ReadsString (assignmentReader rec) s := by
  refine (readsString_assignmentTail hrec h).congr ?_
  rw [assignmentReader, here_bind, token_bind, peek_bind]
  generalize s.token.kind = kind at hkind
  cases hkind <;> rfl

lemma readsString_expression (h : ReadsString (rec .assignment) s) :
    ReadsString (expression rec) s := by
  refine (h.bind (f := fun first => do
    if ← atPunct .comma then
      let later ← loop (fun items => do
        if ← eat .comma then
          let e ← rec .assignment
          return .inl (e :: items)
        return .inr items.reverse) []
      group s.token.span.start (first :: later)
    else
      return first) (fun n hn => ?_) fun hnext n => ?_).congr rfl
  · mvcgen [hrec] with grind
  · rw [atPunct_bind]
    generalize s.behind.token.kind = kind at hnext
    rcases hnext with ⟨_ | _ | _⟩ | _ <;> rfl

end Levels

/-- A level of the grammar at what a quote begins. -/
lemma readsString_read (depth : Nat) (h : IsPlain s.token.kind) :
    ReadsString (expression (read (depth + 2))) s :=
  readsString_expression (reads_read (depth + 2))
    (readsString_assignmentReader (reads_read (depth + 1)) h
      (readsString_unaryReader (reads_read depth) h))

/-! ### Statements -/

omit [Subject] in
lemma statement_eq (depth : Nat) (h : IsPlain s.token.kind) :
    read (depth + 3) .statement s =
      (expression (read (depth + 2)) >>= fun inner =>
        finishStatement s.token.span.start [inner]) s := by
  change statementReader (read (depth + 2)) s = _
  rw [statementReader, token_bind]
  generalize s.token.kind = kind at h
  cases h <;> rfl

omit [Subject] in
/-- What is no string begins no statement. -/
lemma exists_error_of_isPlain (depth : Nat) (h : IsPlain s.token.kind)
    (hkind : s.token.kind ≠ .quoted) : ∃ e, read (depth + 3) .statement s = .error e := by
  let _ : Subject := ⟨[]⟩
  obtain ⟨e, he⟩ := (readsString_read depth h).fails hkind
  exact ⟨e, by rw [statement_eq depth h, bind_of_error he]⟩

/-- A statement that begins with a string has its places behind the string. -/
lemma statement_behind (depth : Nat) (hkind : s.token.kind = .quoted) :
    ∃ q : Parse Node, Reads q ∧ read (depth + 3) .statement s = q s.behind := by
  have h : IsPlain s.token.kind := hkind ▸ .quoted
  obtain ⟨q, hq, heq⟩ := (readsString_read depth h).behind hkind
  refine ⟨q >>= fun inner => finishStatement s.token.span.start [inner], ?_, ?_⟩
  · mvcgen [hq] with grind
  · rw [statement_eq depth h]
    change (expression _ s >>= _) = (q s.behind >>= _)
    rw [heq]

omit [Subject] in
lemma semicolon_of_semicolon (h : s.token.kind = .punct .semicolon) :
    semicolon s = .ok ((), s.behind) := by
  rw [semicolon, eat, bind_assoc, atPunct_bind, h]
  rfl

omit [Subject] in
lemma semicolon_of_broken (h : IsPlain s.token.kind) (hbroken : s.token.broken = true) :
    semicolon s = .ok ((), s) := by
  have hat : atSemicolon s = .ok (true, s) := by
    rw [atSemicolon, token_bind, hbroken]
    rfl
  have heat : TokenKind.isPunct s.token.kind .semicolon = false := by
    generalize s.token.kind = kind at h
    cases h <;> rfl
  rw [semicolon, eat_bind_of_false heat, if_neg Bool.false_ne_true]
  rw [bind_of_ok hat]
  rfl

omit [Subject] in
/-- A string is a statement if nothing goes on with it and the statement ends there. -/
lemma statement_of_stopsString (depth : Nat) (hkind : s.token.kind = .quoted)
    (hnext : StopsString s.behind.token.kind) {later : State}
    (hends : semicolon s.behind = .ok ((), later)) :
    read (depth + 3) .statement s =
      .ok (.other [.other [] s.token.span] ⟨s.token.span.start, later.lastStop⟩, later) := by
  let _ : Subject := ⟨[]⟩
  have h : IsPlain s.token.kind := hkind ▸ .quoted
  rw [statement_eq depth h, bind_of_ok ((readsString_read depth h).ends hkind hnext),
    finishStatement, bind_of_ok hends]
  rfl

end GraphMigrate.Script.Grammar

namespace GraphMigrate.Script

/-! ### Scripts -/

/-- A text in which a token stands where it does, and nothing in front of it. -/
def Token.blankBefore (t : Token) : List Char :=
  List.replicate t.start.offset (if t.broken then '\n' else ' ') ++ t.start.chars

lemma skipGap_replicate {c : Char} (hc : (isLineEnd c || isGap c) = true) (hsize : c.utf8Size = 1)
    (count : Nat) (broken : Bool) (offset : Nat) (cs : List Char) :
    skipGap broken offset .code (List.replicate count c ++ cs) =
      skipGap (broken || (isLineEnd c && 0 < count)) (offset + count) .code cs := by
  induction count generalizing broken offset with
  | zero => simp
  | succ count ih =>
      have hslash := ne_slash_of_isLineEnd_or_isGap hc
      rw [List.replicate_succ, List.cons_append, skipGap]
      · cases hend : isLineEnd c with
        | true => simp [hend, ih, hsize, Nat.add_assoc, Nat.add_comm 1]
        | false =>
            rw [hend, Bool.false_or] at hc
            simp [hend, hc, ih, hsize, Nat.add_assoc, Nat.add_comm 1]
      · exact fun _ h => absurd h hslash
      · exact fun _ h => absurd h hslash

lemma offset_le_of_reaches {c d : Cursor} (h : c.Reaches d) : c.offset ≤ d.offset := by
  obtain ⟨passed, -, hoffset⟩ := h
  omega

/-- A line that ended on the way takes up characters. -/
lemma lt_offset_of_skipGap {broken : Bool} {offset : Nat} {mode : GapMode} {cs : List Char}
    (h : (skipGap broken offset mode cs).2 = true) :
    broken = true ∨ offset < (skipGap broken offset mode cs).1.offset := by
  have hpassed {broken : Bool} {offset later : Nat} {mode : GapMode} {cs : List Char}
      (hlater : offset < later) : offset < (skipGap broken later mode cs).1.offset :=
    hlater.trans_le (offset_le_of_reaches (skipGap_reaches broken later mode cs))
  have hsize (c : Char) (offset : Nat) : offset < offset + c.utf8Size :=
    Nat.lt_add_of_pos_right c.utf8Size_pos
  fun_induction skipGap broken offset mode cs with
  | case1 | case6 => exact .inl h
  | case2 | case3 | case9 => exact .inr (hpassed (by omega))
  | case4 | case5 | case7 | case8 | case10 => exact .inr (hpassed (hsize _ _))

lemma Token.next_blankBefore {c : Cursor} {t : Token} (h : t = next c) :
    next ⟨0, t.blankBefore⟩ = t := by
  have hbegins : beginsToken t.start.chars = true := h ▸ beginsToken_skipGap _ _ _ _
  have hoffset : t.broken = true → 0 < t.start.offset := fun hbroken => by
    subst h
    exact (Nat.zero_le _).trans_lt ((lt_offset_of_skipGap hbroken).resolve_left Bool.false_ne_true)
  have hskip : skipGap false 0 .code t.blankBefore = (t.start, t.broken) := by
    rw [blankBefore, skipGap_replicate, skipGap_of_beginsToken hbegins]
    · cases hbroken : t.broken with
      | true => simp [isLineEnd, hoffset hbroken]
      | false => simp [isLineEnd]
    · cases t.broken <;> decide
    · cases t.broken <;> rfl
  have hfound : skipGap false c.offset .code c.chars = (t.start, t.broken) := by
    rw [h]
    rfl
  calc next ⟨0, t.blankBefore⟩ = next c := by rw [next, next, hskip, hfound]
    _ = t := h.symm

lemma Token.in_blankBefore {c : Cursor} {t : Token} (h : t = next c) : t.In t.blankBefore :=
  ⟨⟨0, t.blankBefore⟩, .start _, (next_blankBefore h).symm⟩

lemma isPlain_readQuoted (quote : Char) (offset : Nat) (cs : List Char) :
    Grammar.IsPlain (readQuoted quote offset cs).1 := by
  fun_induction readQuoted quote offset cs with
  | case1 | case5 | case6 => exact .quoted
  | case3 => exact .fault _
  | case2 => assumption
  | case4 => assumption
  | case7 => assumption

lemma Token.IsRead.isPlain {t : Token} (ht : t.IsRead) (h : t.isString = true) :
    Grammar.IsPlain t.kind := by
  obtain ⟨quote, cs, -, -, hread, -⟩ := ht.exists_of_isString h
  have hquoted := isPlain_readQuoted quote (t.start.offset + 1) cs
  rwa [hread] at hquoted

lemma Token.IsRead.kind_of_isSemicolon {t : Token} (ht : t.IsRead) (h : t.isSemicolon = true) :
    t.kind = .punct .semicolon := by
  obtain ⟨cs, hcs⟩ := List.head?_eq_some_iff.mp (eq_of_beq h)
  have hstart : t.start = ⟨t.start.offset, ';' :: cs⟩ := by rw [← hcs]
  rw [IsRead, hstart, read_semicolon] at ht
  exact (Prod.mk.inj ht).1.symm

namespace Grammar

open Std.Do

set_option mvcgen.warning false

/-- One more statement of a script, or its end. -/
def moduleStep (depth : Nat) (items : List Node) : Parse (List Node ⊕ List Node) := do
  if (← token).kind == .finish then return .inr items.reverse
  let item ← read depth .statement
  return .inl (item :: items)

lemma moduleItems_eq (depth : Nat) : moduleItems depth = loop (moduleStep depth) [] := rfl

lemma reads_moduleStep [Subject] (depth : Nat) {items : List Node} (h : Agrees text items) :
    Reads (moduleStep depth items) := by
  mvcgen [moduleStep] with grind

variable {depth bound : Nat} {items found : List Node} {s later : State}

lemma agrees_of_moduleStep [Subject] (hs : s.In text) (hitems : Agrees text items)
    (hrun : loopUpTo bound (moduleStep depth) items s = .ok (found, later)) :
    Agrees text found :=
  (ensures_loopUpTo (fun _ h => reads_iff.mp (reads_moduleStep depth h)) bound hitems s hs
    found later hrun).2

lemma moduleStep_of_ne_finish (h : s.token.kind ≠ .finish) :
    moduleStep depth items s =
      (read depth .statement >>= fun item => pure (.inl (item :: items))) s := by
  have hfinish : (s.token.kind == .finish) = false := beq_eq_false_iff_ne.mpr h
  rw [moduleStep, token_bind, hfinish]
  rfl

lemma loopUpTo_of_statement (hkind : s.token.kind ≠ .finish) {n : Node} {mid : State}
    (h : read depth .statement s = .ok (n, mid)) :
    loopUpTo (bound + 1) (moduleStep depth) items s =
      loopUpTo bound (moduleStep depth) (n :: items) mid := by
  have hstep : moduleStep depth items s = .ok (.inl (n :: items), mid) := by
    rw [moduleStep_of_ne_finish hkind, bind_of_ok h]
    rfl
  rw [loopUpTo, bind_of_ok hstep]

lemma loopUpTo_of_error (hkind : s.token.kind ≠ .finish) {e : SyntaxError}
    (h : read depth .statement s = .error e) :
    loopUpTo (bound + 1) (moduleStep depth) items s = .error e := by
  have hstep : moduleStep depth items s = .error e := by
    rw [moduleStep_of_ne_finish hkind, bind_of_error h]
  rw [loopUpTo, bind_of_error hstep]

lemma agrees_directive {text : List Char} (hitems : Agrees text items) (span span' : Span) :
    Agrees text (Node.other [.other [] span] span' :: items) := by
  have hleaf : Agrees text (Node.other [] span) := by grind
  have hnode : Agrees text (Node.other [.other [] span] span') := by grind
  exact (agrees_cons _ _).mpr ⟨hnode, hitems⟩

lemma IsPlain.ne_finish {kind : TokenKind} (h : IsPlain kind) : kind ≠ .finish := by
  rintro rfl
  cases h

lemma exists_statement_of_loopUpTo (hplain : IsPlain s.token.kind)
    (hrun : loopUpTo (bound + 1) (moduleStep (depth + 3)) items s = .ok (found, later)) :
    s.token.kind = .quoted ∧ ∃ n mid, read (depth + 3) .statement s = .ok (n, mid) ∧
      loopUpTo bound (moduleStep (depth + 3)) (n :: items) mid = .ok (found, later) := by
  cases hread : read (depth + 3) .statement s with
  | ok result =>
      obtain ⟨n, mid⟩ := result
      rw [loopUpTo_of_statement hplain.ne_finish hread] at hrun
      refine ⟨of_not_not fun hkind => ?_, n, mid, rfl, hrun⟩
      obtain ⟨e, he⟩ := exists_error_of_isPlain depth hplain hkind
      rw [he] at hread
      cases hread
  | error e =>
      rw [loopUpTo_of_error hplain.ne_finish hread] at hrun
      cases hrun

/-- A script that is read begins with directives, and the places that its nodes record
are at or behind the token that follows them. -/
lemma exists_prologue_of_loopUpTo (hs : ∃ c, s.token = Token.next c)
    (hrun : loopUpTo bound (moduleStep (depth + 3)) items s = .ok (found, later)) :
    ∃ ds v, s.token.Prologue ds v ∧ (∃ c, v = Token.next c) ∧
      (Agrees v.blankBefore items → Agrees v.blankBefore found) := by
  induction bound generalizing items s with
  | zero => cases hrun
  | succ bound ih =>
      obtain ⟨c, hc⟩ := hs
      have hnext : s.behind.token.IsRead := Token.isRead_next _
      cases hstring : s.token.isString with
      | false =>
          let _ : Subject := ⟨s.token.blankBefore⟩
          exact ⟨[], s.token, .none hstring, ⟨c, hc⟩, fun hitems =>
            agrees_of_moduleStep (Token.in_blankBefore hc) hitems hrun⟩
      | true =>
          obtain ⟨hkind, n, mid, hread, hrun⟩ := exists_statement_of_loopUpTo
            ((hc ▸ Token.isRead_next c : s.token.IsRead).isPlain hstring) hrun
          cases hsemicolon : s.behind.token.isSemicolon with
          | true =>
              have hnextKind := hnext.kind_of_isSemicolon hsemicolon
              rw [statement_of_stopsString depth hkind (hnextKind ▸ .semicolon)
                (semicolon_of_semicolon hnextKind)] at hread
              cases hread
              obtain ⟨ds, v, hprologue, hv, hfound⟩ := ih ⟨_, rfl⟩ hrun
              exact ⟨_, v, .closed hstring hkind hsemicolon hprologue, hv,
                fun hitems => hfound (agrees_directive hitems _ _)⟩
          | false =>
              cases hlast : s.behind.token.isString && s.behind.token.endsString with
              | true =>
                  rw [Bool.and_eq_true] at hlast
                  obtain ⟨hlater, hends⟩ := hlast
                  have hquoted := hnext.isPlain hlater
                  have hbroken := Token.endsString_of_isString hlater ▸ hends
                  rw [statement_of_stopsString depth hkind (.quoted hquoted)
                    (semicolon_of_broken hquoted hbroken)] at hread
                  cases hread
                  obtain ⟨ds, v, hprologue, hv, hfound⟩ := ih ⟨_, rfl⟩ hrun
                  exact ⟨_, v, .ended hstring hkind hsemicolon hends hlater hprologue, hv,
                    fun hitems => hfound (agrees_directive hitems _ _)⟩
              | false =>
                  let _ : Subject := ⟨s.behind.token.blankBefore⟩
                  obtain ⟨q, hq, heq⟩ := statement_behind depth hkind
                  rw [heq] at hread
                  have hbehind : s.behind.In text := Token.in_blankBefore rfl
                  obtain ⟨hmid, hn⟩ := reads_iff.mp hq s.behind hbehind n mid hread
                  exact ⟨_, _, .last hstring hkind hsemicolon hlast, ⟨_, rfl⟩, fun hitems =>
                    agrees_of_moduleStep hmid ((agrees_cons n items).mpr ⟨hn, hitems⟩) hrun⟩

end Grammar

/-- **A script that is read begins with its directives, and whatever its nodes record is
at or behind the token that follows them.** -/
theorem Module.exists_prologue_of_parse {language : Language} {text : List Char} {script : Module}
    (h : parseModule language text = .ok script) :
    ∃ ds v, Token.Prologue
        (Token.next (skipInterpreterLine ⟨0, dropByteOrderMark text⟩)) ds v ∧
      (∃ c, v = Token.next c) ∧ Agrees v.blankBefore script.items := by
  unfold parseModule at h
  dsimp only at h
  split at h
  next items later hrun =>
    cases h
    have hdepth : Grammar.depthBound (dropByteOrderMark text).length =
        (16 * (dropByteOrderMark text).length + 61) + 3 := rfl
    rw [hdepth, Grammar.moduleItems_eq] at hrun
    obtain ⟨ds, v, hprologue, hv, hitems⟩ := Grammar.exists_prologue_of_loopUpTo ⟨_, rfl⟩ hrun
    exact ⟨ds, v, hprologue, hv, hitems (agrees_nil.mpr trivial)⟩
  next => cases h

end GraphMigrate.Script
