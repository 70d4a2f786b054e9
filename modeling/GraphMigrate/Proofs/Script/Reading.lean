/-
Readers that stay in their text.

A reader of a text is started at a token of the text and stops at one.
The values it gives record where keys and segments of templates stand,
and what they record is so in the text.  Which records a value has follows
from its type alone, and so does what is to be shown of each reader; a
reader that is put together from others needs no more than that.

* `Key.StandsIn`, `SegmentStandsIn`, `TagStandsIn`: what a recorded place
  says;
* `Node.Precedes`: what comes next behind a name;
* `Agrees`: all that a value records is so;
* `Reads`, `ReadsUnnamed`: a reader that stays in the text and gives such
  values, and one that gives no names;
* `reads_iff`: the same in terms of runs;
* `reads_loop`, `reads_separated`, `reads_propertyKey`,
  `reads_templateParts`: the readers that the grammar is built from.
-/
import GraphMigrate.Proofs.Control.Ensures
import GraphMigrate.Proofs.Script.Standing
import GraphMigrate.Script.Grammar.Basic
import Mathlib

namespace GraphMigrate.Script

open Std.Do

set_option mvcgen.warning false

section Places

variable {text : List Char}

/-! ### Places -/

/-- The kind of token that a key of a form consists of.  A computed key
is no token. -/
def KeyForm.Fits : KeyForm → TokenKind → Prop
  | .name spelled, .word read _ => read = spelled
  | .quoted, .quoted => True
  | .numeral, .numeral => True
  | _, _ => False

/-- A token of the text stands where the key is recorded, and it is what
the key says. -/
def Key.StandsIn (text : List Char) (key : Key) : Prop :=
  key.form = .computed ∨ ∃ t : Token, t.In text ∧ t.span = key.span ∧ key.form.Fits t.kind

/-- A span covers the characters of a template behind its opening mark, up
to the first mark behind them. -/
def SegmentStandsIn (text : List Char) (segment : Span) : Prop :=
  ∃ before raw rest, text = before ++ '`' :: (raw ++ rest) ∧ Segment raw rest ∧
    segment = ⟨byteLength before + 1, byteLength before + 1 + byteLength raw⟩

/-- A node that is a name used as an expression. -/
def Node.IsName (n : Node) : Prop := ∃ spelled span, n = .name spelled span

/-- If a node is a name, it is a word of the text, and the token given comes
next behind it. -/
def Node.Precedes (text : List Char) (n : Node) (next : Token) : Prop :=
  ∀ spelled span, n = .name spelled span → ∃ t : Token, t.In text ∧ t.span = span ∧
    (∃ escaped, t.kind = .word spelled escaped) ∧ next = Token.next t.after

/-- If the tag of a template is a name, then what comes next behind it is the
mark in front of the segment, or type arguments. -/
def TagStandsIn (text : List Char) (tag : Node) (segment : Span) : Prop :=
  ∃ next, tag.Precedes text next ∧
    (next.kind = .backtick ∧ next.after.offset = segment.start ∨ next.kind = .punct .less)

/-- Tokens that may be the last one of a name, of an object literal or of a call. -/
def TokenKind.EndsValue : TokenKind → Prop
  | .word _ _ => True
  | .punct p => p = .rbrace ∨ p = .rparen
  | _ => False

/-- At a stop ends a token of the text, one that may end a value. -/
def StopStandsIn (text : List Char) (stop : Nat) : Prop :=
  ∃ t : Token, t.In text ∧ t.kind.EndsValue ∧ t.span.stop = stop

/-- The places that a node itself records are as it says. -/
def Node.RecordsIn (text : List Char) : Node → Prop
  | .name _ s | .object _ s | .call _ _ _ s => StopStandsIn text s.stop
  | .keyed key _ _ | .patternKeyed key _ _ | .method key _ _ _ _ _ | .accessor _ key _ _ _ =>
    key.StandsIn text
  | .shorthand spelled s => Key.StandsIn text ⟨.name spelled, s⟩
  | .tagged tag _ segment _ _ => SegmentStandsIn text segment ∧ TagStandsIn text tag segment
  | .keyword _ _ | .wrapped _ _ _ _ | .member _ _ _ _ | .arrow _ _ _ _
  | .function _ _ _ _ | .construct _ _ _ _ | .spread _ _ | .assigned _ _ _
  | .binding _ _ _ | .objectPattern _ _ _ | .patternName _ _ _ | .patternRest _ _
  | .pattern _ _ _ | .decorated _ _ | .type _ _ _ | .block _ _ | .ret _ _ | .declarator _ _ _
  | .imports _ _ | .other _ _ => True

/-- Values that are read from a text, with what it means that all they
record is so. -/
class Recording (α : Type) where
  Agrees : List Char → α → Prop

export Recording (Agrees)

/-- Types whose values record nothing. -/
class Placeless (α : Type) : Prop

instance : Placeless Unit := ⟨⟩
instance : Placeless Bool := ⟨⟩
instance : Placeless Nat := ⟨⟩
instance : Placeless String := ⟨⟩
instance : Placeless Span := ⟨⟩

namespace Recording

variable {α β : Type} [Recording α] [Recording β]

instance nothing {α : Type} [Placeless α] : Recording α := ⟨fun _ _ => True⟩
instance : Recording Cursor := ⟨Cursor.In⟩
instance : Recording Token := ⟨Token.In⟩
instance : Recording Key := ⟨Key.StandsIn⟩
instance : Recording Node := ⟨fun text n => ∀ m ∈ n.preorder, m.RecordsIn text⟩
instance : Recording (List α) := ⟨fun text as => ∀ a ∈ as, Agrees text a⟩
instance : Recording (Option α) := ⟨fun text a => ∀ b ∈ a, Agrees text b⟩
instance : Recording (α × β) := ⟨fun text p => Agrees text p.1 ∧ Agrees text p.2⟩
instance : Recording (α ⊕ β) := ⟨fun text => Sum.elim (Agrees text) (Agrees text)⟩
instance {ε : Type} : Recording (Except ε α) := ⟨fun text a => ∀ b, a = .ok b → Agrees text b⟩

end Recording

@[grind =] lemma standsIn_iff_agrees (key : Key) : key.StandsIn text ↔ Agrees text key := Iff.rfl

section Agrees

variable {α β : Type} [Recording α] [Recording β]

@[simp, grind ←] lemma agrees_of_placeless {γ : Type} [Placeless γ] (c : γ) : Agrees text c :=
  trivial

@[simp, grind =] lemma agrees_nil : Agrees text ([] : List α) ↔ True := by
  simp [Agrees]

@[simp, grind =] lemma agrees_cons (a : α) (as : List α) :
    Agrees text (a :: as) ↔ Agrees text a ∧ Agrees text as := by
  simp [Agrees]

@[simp, grind =] lemma agrees_append (as bs : List α) :
    Agrees text (as ++ bs) ↔ Agrees text as ∧ Agrees text bs := by
  simp [Agrees, or_imp, forall_and]

@[simp, grind =] lemma agrees_reverse (as : List α) :
    Agrees text as.reverse ↔ Agrees text as := by
  simp [Agrees]

@[simp, grind =] lemma agrees_none : Agrees text (none : Option α) ↔ True := by
  simp [Agrees]

@[simp, grind =] lemma agrees_some (a : α) : Agrees text (some a) ↔ Agrees text a := by
  simp [Agrees]

@[simp, grind =] lemma agrees_toList (a : Option α) :
    Agrees text a.toList ↔ Agrees text a := by
  cases a <;> simp

@[grind ←] lemma agrees_getD {a : Option α} {b : α} (h : Agrees text a) (h' : Agrees text b) :
    Agrees text (a.getD b) := by
  cases a with
  | none => exact h'
  | some a => simpa using h

@[simp, grind =] lemma agrees_mk (a : α) (b : β) :
    Agrees text (a, b) ↔ Agrees text a ∧ Agrees text b := Iff.rfl

@[grind →] lemma Agrees.fst {p : α × β} (h : Agrees text p) : Agrees text p.1 := h.1

@[grind →] lemma Agrees.snd {p : α × β} (h : Agrees text p) : Agrees text p.2 := h.2

@[simp, grind =] lemma agrees_inl (a : α) :
    Agrees text (.inl a : α ⊕ β) ↔ Agrees text a := Iff.rfl

@[simp, grind =] lemma agrees_inr (b : β) :
    Agrees text (.inr b : α ⊕ β) ↔ Agrees text b := Iff.rfl

@[simp, grind =] lemma agrees_ok {ε : Type} (a : α) :
    Agrees text (.ok a : Except ε α) ↔ Agrees text a := by
  simp [Agrees]

@[simp, grind =] lemma agrees_error {ε : Type} (e : ε) :
    Agrees text (.error e : Except ε α) ↔ True := by
  simp [Agrees]

end Agrees

/-! ### Nodes -/

/-- What a node and the nodes below it record is so if that holds of the
node itself and of its children. -/
lemma agrees_node_iff (n : Node) :
    Agrees text n ↔ n.RecordsIn text ∧ Agrees text n.children := by
  have hall : Agrees text n ↔ ∀ m ∈ n :: n.children.flatMap Node.preorder, m.RecordsIn text := by
    rw [← Node.preorder_eq]
    exact Iff.rfl
  rw [hall, List.forall_mem_cons]
  simp only [List.mem_flatMap, forall_exists_index, and_imp]
  exact and_congr_right fun _ => ⟨fun h m hm k hk => h k m hm hk, fun h k m hm hk => h m hm k hk⟩

@[grind ←] lemma Agrees.node {n : Node} (h : n.RecordsIn text)
    (hchildren : Agrees text n.children) : Agrees text n := (agrees_node_iff n).mpr ⟨h, hchildren⟩

attribute [simp, grind =] Node.RecordsIn Node.children KeyForm.Fits

attribute [grind] Node.IsName

@[grind ←] lemma Node.precedes_of_not_isName {n : Node} (h : ¬ n.IsName) (next : Token) :
    n.Precedes text next := fun spelled span hname => absurd ⟨spelled, span, hname⟩ h

/-! ### Tokens -/

section Tokens

variable {t : Token} {c : Cursor}

@[grind ←] lemma agrees_after (h : Agrees text t) : Agrees text t.after := Token.In.after_in h

@[grind ←] lemma agrees_start (h : Agrees text t) : Agrees text t.start := Token.In.start_in h

@[grind ←] lemma agrees_next (h : Agrees text c) : Agrees text (Token.next c) := Token.in_next h

@[grind ←] lemma agrees_drop (h : Agrees text c) (count : Nat) : Agrees text (c.drop count) :=
  Cursor.In.of_reaches h (Cursor.reaches_drop c count)

/-- A key that is a token. -/
@[grind ←] lemma agrees_key {form : KeyForm} (h : Agrees text t) (hfits : form.Fits t.kind) :
    Agrees text (⟨form, t.span⟩ : Key) := .inr ⟨t, h, rfl, hfits⟩

@[grind ←] lemma agrees_key_of_form {key : Key} {form : KeyForm} (h : Agrees text key)
    (hform : key.form = form) : Agrees text (⟨form, key.span⟩ : Key) := by
  subst hform
  exact h

/-- A word or closing bracket ends where the text behind it begins. -/
lemma stopStandsIn_after (h : Agrees text t) (hkind : t.kind.EndsValue) :
    StopStandsIn text t.after.offset :=
  ⟨t, h, hkind, congrArg Span.stop (Token.In.span_eq h)⟩

@[simp, grind =] lemma agrees_computed (span : Span) :
    Agrees text (⟨.computed, span⟩ : Key) ↔ True := iff_true_intro (.inl rfl)

end Tokens

end Places

/-! ### Readers -/

/-- The text that is read, the same for all readers. -/
class Subject where
  text : List Char

export Subject (text)

namespace Grammar

variable [Subject]

/-- The next token of a state is one of the text. -/
def State.In (text : List Char) (s : State) : Prop := s.token.In text

@[simp] lemma state_in_withContext (s : State) (context : Context) :
    State.In text { s with context := context } ↔ s.In text := Iff.rfl

/-- A token that is used leads to the next one. -/
lemma state_in_advanced {t : Token} (h : Agrees text t) (stop : Nat) (context : Context) :
    State.In text ⟨Token.next t.after, stop, context⟩ := Token.in_next (Token.In.after_in h)

@[grind →] lemma State.In.agrees_token {s : State} (h : s.In text) : Agrees text s.token := h

variable {α β : Type} [Recording α] [Recording β]

/-- A reader that stays in the text and gives values that agree with it. -/
abbrev Reads (p : Parse α) : Prop :=
  ⦃fun s => ⌜s.In text⌝⦄ p ⦃⇓? a s => ⌜s.In text ∧ Agrees text a⌝⦄

/-- A reader that stays in the text and gives no names. -/
abbrev ReadsUnnamed (p : Parse Node) : Prop :=
  ⦃fun s => ⌜s.In text⌝⦄ p ⦃⇓? n s => ⌜s.In text ∧ Agrees text n ∧ ¬ n.IsName⌝⦄

omit [Subject] [Recording α] in
lemma apply_wp (p : Parse α) (Q : PostCond α (.arg State (.except SyntaxError .pure)))
    (s : State) :
    (wp p).apply Q s = match p s with
      | .ok (a, later) => Q.1 a later
      | .error e => Q.2.1 e := by
  change (wp (p s)).apply _ = _
  cases p s <;> rfl

omit [Subject] [Recording α] in
/-- A triple whose errors do not count, in terms of runs. -/
lemma triple_iff {p : Parse α} {I : State → Prop} {Q : α → State → Prop} :
    (⦃fun s => ⌜I s⌝⦄ p ⦃⇓? a s => ⌜Q a s⌝⦄) ↔
      ∀ s, I s → ∀ a later, p s = .ok (a, later) → Q a later := by
  constructor
  · intro h s hs a later hrun
    have hpost := h s hs
    rw [apply_wp, hrun] at hpost
    exact hpost
  · intro h s hs
    rw [apply_wp]
    cases hrun : p s with
    | error e => trivial
    | ok result => exact h s hs result.1 result.2 hrun

lemma reads_iff {p : Parse α} : Reads p ↔ Ensures (State.In text) p (Agrees text) :=
  triple_iff

lemma ReadsUnnamed.reads {p : Parse Node} (h : ReadsUnnamed p) : Reads p :=
  triple_iff.mpr fun s hs n later hrun =>
    (triple_iff.mp h s hs n later hrun).imp_right And.left

/-! ### Tokens -/

/-- The next token is given as it stands. -/
@[spec] lemma reads_token :
    ⦃fun s => ⌜s.In text⌝⦄ token ⦃⇓? t s => ⌜s.In text ∧ Agrees text t ∧ s.token = t⌝⦄ :=
  triple_iff.mpr fun s hs a later hrun => by
    cases hrun
    exact ⟨hs, hs, rfl⟩

omit [Subject] [Recording α] in
/-- A reader that stops gives no value. -/
@[spec] lemma none_of_failAt (offset : Nat) :
    ⦃fun _ => ⌜True⌝⦄ (failAt offset : Parse α) ⦃⇓? _ _ => ⌜False⌝⦄ :=
  triple_iff.mpr fun s _ a later hrun => by cases hrun

omit [Subject] [Recording α] in
@[spec] lemma none_of_fail : ⦃fun _ => ⌜True⌝⦄ (fail : Parse α) ⦃⇓? _ _ => ⌜False⌝⦄ :=
  triple_iff.mpr fun s _ a later hrun => by cases hrun

lemma reads_fail : Reads (fail : Parse α) := by
  mvcgen with grind

lemma readsUnnamed_fail : ReadsUnnamed fail := by
  mvcgen with grind

omit [Recording α] in
@[spec] lemma none_of_failAtHash :
    ⦃fun s => ⌜s.In text⌝⦄ (failAtHash : Parse α) ⦃⇓? _ _ => ⌜False⌝⦄ := by
  mvcgen [failAtHash]

@[spec] lemma reads_here : Reads here := by
  mvcgen [here]

@[spec] lemma reads_spanFrom (start : Nat) : Reads (spanFrom start) := by
  mvcgen [spanFrom]

@[spec] lemma reads_resume {cursor : Cursor} (h : Agrees text cursor) :
    Reads (resume cursor) := by
  refine triple_iff.mpr fun s _ a later hrun => ?_
  cases hrun
  exact ⟨Token.in_next h, trivial⟩

@[spec] lemma reads_advance : Reads advance := by
  mvcgen [advance] with grind

@[spec] lemma reads_peek : Reads peek := by
  mvcgen [peek] with grind

@[spec] lemma reads_peekSecond : Reads peekSecond := by
  mvcgen [peekSecond] with grind

@[spec] lemma reads_atPunct (p : Punct) : Reads (atPunct p) := by
  mvcgen [atPunct] with grind

@[spec] lemma reads_atWord (word : String) : Reads (atWord word) := by
  mvcgen [atWord] with grind

@[spec] lemma reads_atAnyWord : Reads atAnyWord := by
  mvcgen [atAnyWord] with grind

@[spec] lemma reads_eat (p : Punct) : Reads (eat p) := by
  mvcgen [eat] with grind

lemma reads_eat_closing {p : Punct} (hp : (TokenKind.punct p).EndsValue) :
    ⦃fun s => ⌜s.In text⌝⦄ eat p
    ⦃⇓? r s => ⌜s.In text ∧ (r = true → StopStandsIn text s.lastStop)⌝⦄ := by
  mvcgen [eat, atPunct, token, advance, resume, -reads_eat, -reads_atPunct, -reads_token,
    -reads_advance, -reads_resume]
    with grind [stopStandsIn_after, state_in_advanced, TokenKind.isPunct]

@[spec] lemma reads_eatWord (word : String) : Reads (eatWord word) := by
  mvcgen [eatWord] with grind

@[spec] lemma reads_expect (p : Punct) : Reads (expect p) := by
  mvcgen [expect] with grind

@[spec] lemma reads_expectWord (word : String) : Reads (expectWord word) := by
  mvcgen [expectWord] with grind

/-! ### Control -/

omit [Recording α] in
@[spec] lemma reads_lookahead (p : Parse α) : Reads (lookahead p) := by
  refine triple_iff.mpr fun s hs result later hrun => ?_
  unfold lookahead at hrun
  split at hrun
  · cases hrun
    exact ⟨hs, trivial⟩
  · cases hrun
    exact ⟨hs, trivial⟩

section Control

variable {p q : Parse α} (hp : Reads p) (hq : Reads q)

include hp

@[spec] lemma reads_within (change : Context → Context) : Reads (within change p) := by
  mvcgen [within, hp]

@[spec] lemma reads_enclosed : Reads (enclosed p) := reads_within hp _

@[spec] lemma reads_attempt : Reads (attempt p) := by
  refine triple_iff.mpr fun s hs result later hrun => ?_
  unfold attempt at hrun
  cases hp' : p s with
  | error e =>
      rw [hp'] at hrun
      cases hrun
      exact ⟨hs, by simp⟩
  | ok r =>
      rw [hp'] at hrun
      cases hrun
      obtain ⟨hlater, hr⟩ := reads_iff.mp hp s hs r.1 r.2 hp'
      exact ⟨hlater, by simpa using hr⟩

@[spec] lemma reads_optionally : Reads (optionally p) := by
  have hattempt := reads_attempt hp
  mvcgen [optionally, hattempt] with grind

omit hp in
/-- What all values of a reader have in common, the value that is given has,
if one is given. -/
lemma reads_optionally_of {P : α → Prop}
    (hp : ⦃fun s => ⌜s.In text⌝⦄ p ⦃⇓? a s => ⌜s.In text ∧ Agrees text a ∧ P a⌝⦄) :
    ⦃fun s => ⌜s.In text⌝⦄ optionally p
    ⦃⇓? a s => ⌜s.In text ∧ Agrees text a ∧ ∀ b ∈ a, P b⌝⦄ := by
  refine triple_iff.mpr fun s hs a later hrun => ?_
  simp only [optionally, attempt, bind, StateT.bind, Except.bind] at hrun
  cases hp' : p s with
  | error e =>
      rw [hp'] at hrun
      cases hrun
      exact ⟨hs, by simp, by simp⟩
  | ok r =>
      rw [hp'] at hrun
      cases hrun
      obtain ⟨hlater, hr, hP⟩ := triple_iff.mp hp s hs r.1 r.2 hp'
      exact ⟨hlater, by simpa using hr, by simpa using hP⟩

include hq in
@[spec] lemma reads_orElse : Reads (orElse p q) := by
  refine triple_iff.mpr fun s hs result later hrun => ?_
  unfold orElse at hrun
  split at hrun
  next r hp' =>
    cases hrun
    exact reads_iff.mp hp s hs _ _ hp'
  next =>
    split at hrun
    next r hq' =>
      cases hrun
      exact reads_iff.mp hq s hs _ _ hq'
    next => cases hrun

end Control

section Loops

omit [Subject] [Recording α] [Recording β] in
/-- What every step keeps, a whole loop keeps; `R` is what a step that ends
the loop makes sure of. -/
lemma of_loopUpTo {P : α → Prop} {I : State → Prop} {R : β → State → Prop}
    {step : α → Parse (α ⊕ β)}
    (hstep : ∀ a, P a → ∀ s, I s → ∀ r mid, step a s = .ok (r, mid) →
      I mid ∧ Sum.elim P (R · mid) r)
    (bound : Nat) {a : α} (ha : P a) {s : State} (hs : I s) {b : β} {later : State}
    (hrun : loopUpTo bound step a s = .ok (b, later)) : I later ∧ R b later := by
  induction bound generalizing a s with
  | zero => cases hrun
  | succ bound ih =>
      obtain ⟨⟨result, mid⟩, hresult, hrun⟩ := exists_ok_of_bind hrun
      obtain ⟨hmid, hr⟩ := hstep a ha s hs result mid hresult
      cases result with
      | inl next => exact ih hr hmid hrun
      | inr b =>
          cases hrun
          exact ⟨hmid, hr⟩

omit [Subject] [Recording α] [Recording β] in
lemma ensures_loopUpTo {P : α → Prop} {Q : β → Prop} {I : State → Prop} {step : α → Parse (α ⊕ β)}
    (hstep : ∀ a, P a → Ensures I (step a) (Sum.elim P Q)) (bound : Nat) {a : α} (ha : P a) :
    Ensures I (loopUpTo bound step a) Q :=
  fun _ hs _ _ hrun => of_loopUpTo (R := fun b _ => Q b) hstep bound ha hs hrun

omit [Subject] [Recording α] [Recording β] in
/-- The first step of a loop may depend on the state in which it is made. -/
lemma ensures_loop_from {P : α → Prop} {Q : β → Prop} {I : State → Prop}
    {step : α → Parse (α ⊕ β)} {a : α} {s : State}
    (hfirst : ∀ result mid, step a s = .ok (result, mid) → I mid ∧ Sum.elim P Q result)
    (hstep : ∀ a, P a → Ensures I (step a) (Sum.elim P Q)) {b : β} {later : State}
    (hrun : loop step a s = .ok (b, later)) : I later ∧ Q b := by
  change (step a s >>= fun r => _) = .ok (b, later) at hrun
  cases hresult : step a s with
  | error e =>
      rw [hresult] at hrun
      cases hrun
  | ok r =>
      rw [hresult] at hrun
      obtain ⟨hmid, hr⟩ := hfirst r.1 r.2 hresult
      obtain ⟨result, mid⟩ := r
      cases result with
      | inl next => exact ensures_loopUpTo hstep _ hr mid hmid b later hrun
      | inr b =>
          cases hrun
          exact ⟨hmid, hr⟩

omit [Subject] [Recording α] [Recording β] in
lemma ensures_loop {P : α → Prop} {Q : β → Prop} {I : State → Prop} {step : α → Parse (α ⊕ β)}
    (hstep : ∀ a, P a → Ensures I (step a) (Sum.elim P Q)) {a : α} (ha : P a) :
    Ensures I (loop step a) Q :=
  fun s hs _ _ => ensures_loop_from (hstep a ha s hs) hstep

@[spec] lemma reads_loop {step : α → Parse (α ⊕ β)} {a : α} (ha : Agrees text a)
    (hstep : ∀ a, Agrees text a → Reads (step a)) : Reads (loop step a) :=
  reads_iff.mpr (ensures_loop (fun a ha => reads_iff.mp (hstep a ha)) ha)

variable {item : Parse Node} (hitem : Reads item)

include hitem

@[spec] lemma reads_separated (close : Punct) : Reads (separated close item) := by
  mvcgen [separated, hitem] with grind

/-- The bracket that closes the items is the token used last. -/
lemma reads_separated_closed (close : Punct) (hclose : (TokenKind.punct close).EndsValue) :
    ⦃fun s => ⌜s.In text⌝⦄ enclosed (separated close item)
    ⦃⇓? r s => ⌜s.In text ∧ Agrees text r ∧ StopStandsIn text s.lastStop⌝⦄ := by
  have heat := reads_eat_closing hclose
  have hseparated : ⦃fun s => ⌜s.In text⌝⦄ separated close item
      ⦃⇓? r s => ⌜s.In text ∧ Agrees text r ∧ StopStandsIn text s.lastStop⌝⦄ := by
    refine triple_iff.mpr fun s hs items later hrun => ?_
    have hitems : Agrees text ([] : List Node) := agrees_nil.mpr trivial
    refine of_loopUpTo (P := Agrees text)
      (R := fun items later => Agrees text items ∧ StopStandsIn text later.lastStop)
      (fun found hfound => triple_iff.mp ?_) _ hitems hs hrun
    mvcgen [-reads_eat, heat, hitem] with grind
  mvcgen [enclosed, within, -reads_separated, -reads_enclosed, -reads_within, hseparated]

@[spec] lemma reads_untilClosed (close : Punct) : Reads (untilClosed close item) := by
  mvcgen [untilClosed, hitem] with grind

end Loops

@[spec] lemma reads_atSemicolon : Reads atSemicolon := by
  mvcgen [atSemicolon] with grind

@[spec] lemma reads_semicolon : Reads semicolon := by
  mvcgen [semicolon] with grind

/-! ### Names and nodes -/

lemma Node.Precedes.stopStandsIn {spelled : String} {span : Span} {next : Token}
    (h : (Node.name spelled span).Precedes text next) : StopStandsIn text span.stop := by
  obtain ⟨t, ht, hspan, ⟨escaped, hkind⟩, -⟩ := h spelled span rfl
  refine ⟨t, ht, ?_, congrArg Span.stop hspan⟩
  rw [hkind]
  trivial

lemma precedes_of_word {t : Token} (h : Agrees text t) {spelled : String} {escaped : Bool}
    (hkind : t.kind = .word spelled escaped) :
    (Node.name spelled t.span).Precedes text (Token.next t.after) := by
  intro name span hname
  cases hname
  exact ⟨t, h, rfl, ⟨escaped, hkind⟩, rfl⟩

/-- The name of a variable, with what comes next behind it. -/
@[spec] lemma reads_variableName :
    ⦃fun s => ⌜s.In text⌝⦄ variableName
    ⦃⇓? r s => ⌜s.In text ∧ Agrees text r ∧ (Node.name r.1 r.2).Precedes text s.token⌝⦄ := by
  mvcgen [variableName, token, advance, resume, -reads_token, -reads_advance, -reads_resume]
    with grind [precedes_of_word, state_in_advanced]

@[spec] lemma reads_anyWord : Reads anyWord := by
  mvcgen [anyWord] with grind

@[spec] lemma reads_hasTypes : Reads hasTypes := by
  mvcgen [hasTypes]

@[spec] lemma reads_hasMarkup : Reads hasMarkup := by
  mvcgen [hasMarkup]

@[spec] lemma reads_group (start : Nat) {inside : List Node} (h : Agrees text inside) :
    ReadsUnnamed (group start inside) := by
  mvcgen [group] with grind

@[spec] lemma reads_propertyKey {rec : Rec} (hrec : ∀ goal, Reads (rec goal)) :
    Reads (propertyKey rec) := by
  mvcgen [propertyKey, hrec] with grind

/-! ### Templates -/

@[grind ←] lemma agrees_templateSegment {c : Cursor} (h : Agrees text c) :
    Agrees text (templateSegment c.offset c.chars).2.2 :=
  Cursor.In.of_reaches h (templateSegment_reaches c.offset c.chars)

omit [Subject] in
/-- The span given is that of the first segment. -/
lemma fst_templateParts {start : Cursor} {interpolation : Parse Node} {s later : State}
    {r : Span × List Node} (h : templateParts start interpolation s = .ok (r, later)) :
    r.1 = ⟨start.offset, (templateSegment start.offset start.chars).1.offset⟩ := by
  have hspan : Ensures (fun _ => True) (templateParts start interpolation)
      fun r => r.1 = ⟨start.offset, (templateSegment start.offset start.chars).1.offset⟩ := by
    unfold templateParts
    exact .bind (P := fun _ => True) (fun _ _ _ _ _ => ⟨trivial, trivial⟩) fun _ _ => .pure rfl
  exact (hspan s trivial r later h).2

omit [Subject] in
/-- A template whose first segment has no end is none. -/
lemma templateParts_of_unfinished {start : Cursor} {interpolation : Parse Node} {s : State}
    (h : (templateSegment start.offset start.chars).2.1 = .unfinished) :
    templateParts start interpolation s = .error ⟨start.offset - 1⟩ := by
  rcases hsegment : templateSegment start.offset start.chars with ⟨stop, ending, after⟩
  rw [hsegment] at h
  dsimp only at h
  subst h
  simp [templateParts, loop, loopUpTo, hsegment, failAt, bind, StateT.bind, Except.bind, get,
    getThe, MonadStateOf.get, StateT.get, pure, Except.pure]

/-- The span given is that of the first segment, which has an end. -/
@[spec] lemma reads_templateParts {start : Cursor} {interpolation : Parse Node}
    (hstart : Agrees text start) (hinterpolation : Reads interpolation) :
    ⦃fun s => ⌜s.In text⌝⦄ templateParts start interpolation
    ⦃⇓? r s => ⌜s.In text ∧ Agrees text r ∧
      (templateSegment start.offset start.chars).2.1 ≠ .unfinished ∧
      r.1 = ⟨start.offset, (templateSegment start.offset start.chars).1.offset⟩⌝⦄ := by
  have hreads : Reads (templateParts start interpolation) := by
    mvcgen [templateParts, hinterpolation] with grind
  refine triple_iff.mpr fun s hs r later hrun => ?_
  obtain ⟨hlater, hr⟩ := triple_iff.mp hreads s hs r later hrun
  refine ⟨hlater, hr, fun hunfinished => ?_, fst_templateParts hrun⟩
  rw [templateParts_of_unfinished hunfinished] at hrun
  cases hrun

end Grammar

end GraphMigrate.Script
