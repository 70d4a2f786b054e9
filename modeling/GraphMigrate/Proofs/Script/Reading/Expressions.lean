/-
Readers of expressions and of markup stay in their text.

An arrow function may turn out to be another expression only after its
head was read; both ways start at the same token.
-/
import GraphMigrate.Proofs.Script.Reading.Functions
import GraphMigrate.Script.Grammar.Expressions
import GraphMigrate.Script.Grammar.Markup

namespace GraphMigrate.Script.Grammar

open Std.Do

set_option mvcgen.warning false

variable [Subject] {rec : Rec} (hrec : ∀ goal, Reads (rec goal))

instance : Placeless BinaryOperator := ⟨⟩

/-! ### Expressions -/

section Expressions

@[spec] lemma reads_operator? : Reads operator? := by
  mvcgen [operator?] with grind

@[spec] lemma reads_atGenericArrow : Reads atGenericArrow := by
  mvcgen [atGenericArrow] with grind

include hrec

section Chains

variable (helement : ReadsUnnamed (rec .element))

include helement

/-- If the expression is a name, then the next token is the one behind it. -/
lemma reads_chainHead :
    ⦃fun s => ⌜s.In text⌝⦄ chainHead rec
    ⦃⇓? n s => ⌜s.In text ∧ Agrees text n ∧ n.Precedes text s.token⌝⦄ := by
  have hprimary := reads_primary hrec helement
  mvcgen [chainHead, hrec, hprimary] with grind

lemma reads_newExpression (fuel : Nat) :
    ⦃fun s => ⌜s.In text⌝⦄ newExpression rec fuel
    ⦃⇓? r s => ⌜s.In text ∧ Agrees text r ∧ ¬ r.1.IsName⌝⦄ := by
  have hhead := reads_chainHead hrec helement
  induction fuel with
  | zero => exact triple_iff.mpr fun _ _ _ _ hrun => by cases hrun
  | succ fuel ih => mvcgen [newExpression, hrec, hhead, ih] with grind

lemma reads_leftHandSide : Reads (leftHandSide rec) := by
  have hhead := reads_chainHead hrec helement
  have hnew := reads_newExpression hrec helement
  mvcgen [leftHandSide, hrec, hhead, hnew] with grind

lemma reads_unaryReader : Reads (unaryReader rec) := by
  have hleft := reads_leftHandSide hrec helement
  mvcgen [unaryReader, hrec, hleft] with grind

end Chains

@[spec] lemma reads_climb (start fuel : Nat) {left : Node} (h : Agrees text left) (least : Nat) :
    Reads (climb rec start fuel left least) := by
  induction fuel generalizing start left least with
  | zero => exact reads_fail
  | succ fuel ih => mvcgen [climb, hrec, ih] with grind

@[spec] lemma reads_binary : Reads (binary rec) := by
  mvcgen [binary, hrec] with grind

@[spec] lemma reads_conditional : Reads (conditional rec) := by
  mvcgen [conditional, hrec] with grind

@[spec] lemma reads_arrowHead : Reads (arrowHead rec) := by
  mvcgen [arrowHead, hrec] with grind

@[spec] lemma reads_arrowTail (start : Nat) {inside types : List Node}
    (hinside : Agrees text inside) (htypes : Agrees text types) :
    Reads (arrowTail rec start inside types) := by
  mvcgen [arrowTail, hrec] with grind

@[spec] lemma reads_bareArrow (start : Nat) : Reads (bareArrow rec start) := by
  mvcgen [bareArrow, hrec] with grind

@[spec] lemma reads_assignmentTail : Reads (assignmentTail rec) := by
  mvcgen [assignmentTail, hrec] with grind

@[spec] lemma reads_yieldExpression : Reads (yieldExpression rec) := by
  mvcgen [yieldExpression, hrec] with grind

omit hrec in
@[spec] lemma reads_blameStart {α : Type} [Recording α] (start : Nat) {p : Parse α}
    (h : Reads p) : Reads (blameStart start p) := by
  mvcgen [blameStart, h] with grind

/-- Whichever way is taken, it starts at a token of the text: that of the
arrow function behind its head, the other one at the same place as the
head. -/
@[spec] lemma reads_arrowOr (start : Nat) {head : Parse (List Node × List Node × Bool)}
    {otherwise : Parse Node} (hhead : Reads head) (hotherwise : Reads otherwise) :
    Reads (arrowOr rec start head otherwise) := by
  refine triple_iff.mpr fun s hs n final hrun => ?_
  unfold arrowOr at hrun
  split at hrun
  next =>
    split at hrun
    next result hother =>
      cases hrun
      exact reads_iff.mp hotherwise s hs _ _ hother
    next => cases hrun
  next inside types typed later hfound =>
    obtain ⟨hlater, hinside, htypes, -⟩ := reads_iff.mp hhead s hs _ _ hfound
    have htail := reads_arrowTail hrec start hinside htypes
    split at hrun
    · have hchecked : Reads (do
          let node ← arrowTail rec start inside types
          if ← atPunct .colon then return node else fail) := by
        mvcgen [hrec] with grind
      have harrow : Reads (fun _ => (do
          let node ← arrowTail rec start inside types
          if ← atPunct .colon then return node else fail : Parse Node) later) :=
        triple_iff.mpr fun _ _ m final hrun => reads_iff.mp hchecked later hlater m final hrun
      exact reads_iff.mp (reads_orElse harrow hotherwise) s hs n final hrun
    · exact reads_iff.mp htail later hlater n final hrun

@[spec] lemma reads_assignmentReader : Reads (assignmentReader rec) := by
  mvcgen [assignmentReader, hrec] with grind

end Expressions

/-! ### Markup -/

section Markup

@[grind ←] lemma agrees_takeWhile {c : Cursor} (h : Agrees text c) (p : Char → Bool) :
    Agrees text (Cursor.takeWhile p c.offset c.chars).2 :=
  Cursor.In.of_reaches h (Cursor.reaches_takeWhile p c)

@[grind ←] lemma agrees_skipWhile {c : Cursor} (h : Agrees text c) (p : Char → Bool) :
    Agrees text (c.skipWhile p) :=
  Cursor.In.of_reaches h (Cursor.reaches_skipWhile p c)

@[grind ←] lemma agrees_skipGap {c : Cursor} (h : Agrees text c) (broken : Bool) (mode : GapMode) :
    Agrees text (skipGap broken c.offset mode c.chars).1 :=
  Cursor.In.of_reaches h (skipGap_reaches broken c.offset mode c.chars)

omit [Subject] in
lemma attributeTextEnd?_reaches {quote : Char} {offset : Nat} {cs : List Char} {rest : Cursor}
    (hquote : quote.utf8Size = 1) (h : attributeTextEnd? quote offset cs = some rest) :
    Cursor.Reaches ⟨offset, cs⟩ rest := by
  fun_induction attributeTextEnd? quote offset cs with
  | case1 => cases h
  | case2 offset cs =>
      cases h
      exact .cons_one hquote (.refl _)
  | case3 offset c cs _ ih => exact .cons (ih h)

@[spec] lemma reads_markupWord : Reads markupWord := by
  mvcgen [markupWord] with grind

@[spec] lemma reads_markupName : Reads markupName := by
  mvcgen [markupName] with grind

include hrec

@[spec] lemma reads_container : Reads (container rec) := by
  mvcgen [container, hrec] with grind

omit hrec in
/-- A value in quotes is no token: its end is looked for from behind its
first quote, which takes up one byte. -/
lemma agrees_of_attributeTextEnd? {t : Token} (h : Agrees text t) {quote : Char}
    {cs : List Char}
    (hchars : (skipGap false t.after.offset .code t.after.chars).1.chars = quote :: cs)
    (hquote : quote = '"' ∨ quote = '\'') {rest : Cursor}
    (hrest : attributeTextEnd? quote
      ((skipGap false t.after.offset .code t.after.chars).1.offset + 1) cs = some rest) :
    Agrees text rest := by
  have hsize : quote.utf8Size = 1 := by rcases hquote with rfl | rfl <;> rfl
  have hstart := agrees_skipGap (agrees_after h) false .code
  generalize (skipGap false t.after.offset .code t.after.chars).1 = start at hchars hrest hstart
  obtain ⟨offset, chars⟩ := start
  dsimp only at hchars
  subst hchars
  exact Cursor.In.of_reaches hstart (.cons_one hsize (attributeTextEnd?_reaches hsize hrest))

@[spec] lemma reads_attributeValue : Reads (attributeValue rec) := by
  mvcgen [attributeValue, hrec] with grind [→ agrees_of_attributeTextEnd?]

@[spec] lemma reads_attributes : Reads (attributes rec) := by
  mvcgen [attributes, hrec] with grind

@[spec] lemma reads_childrenUntil {start : Cursor} (h : Agrees text start) :
    Reads (childrenUntil rec start) := by
  mvcgen [childrenUntil, hrec] with grind

@[spec] lemma reads_elementReader : ReadsUnnamed (elementReader rec) := by
  mvcgen [elementReader, hrec] with grind

end Markup

end GraphMigrate.Script.Grammar
