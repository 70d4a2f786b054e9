/-
Readers of patterns, functions, chains and literals stay in their text.

Two readers start at a token of a certain kind: a tagged template at its
opening mark, which is what stands before its first segment, and a regular
expression at its first slash.  An expression that is a name stands right
before the next token; so the tag of a template, if it is a name, stands in
front of the first link of its chain.
-/
import GraphMigrate.Proofs.Script.Reading.Types
import GraphMigrate.Script.Grammar.Literals

namespace GraphMigrate.Script.Grammar

open Std.Do

set_option mvcgen.warning false

variable [Subject] {rec : Rec} (hrec : ∀ goal, Reads (rec goal))

/-! ### Patterns and parameters -/

section Patterns

include hrec

@[spec] lemma reads_withDefault (start : Nat) {target : Node} (h : Agrees text target) :
    Reads (withDefault rec start target) := by
  mvcgen [withDefault, hrec] with grind

@[spec] lemma reads_patternProperty : Reads (patternProperty rec) := by
  mvcgen [patternProperty, hrec] with grind

@[spec] lemma reads_patternElement : Reads (patternElement rec) := by
  mvcgen [patternElement, hrec] with grind

@[spec] lemma reads_patternReader : Reads (patternReader rec) := by
  mvcgen [patternReader, hrec] with grind

omit hrec in
@[spec] lemma reads_annotate (start : Nat) {target : Node} {typing : Option Node}
    (h : Agrees text target) (htyping : Agrees text typing) :
    Reads (annotate start target typing) := by
  have hchildren := (agrees_node_iff target).mp h
  cases typing with
  | none => mvcgen [annotate]
  | some type => cases target <;> (mvcgen [annotate] with grind)

omit hrec in
@[spec] lemma reads_skipParameterModifiers : Reads skipParameterModifiers := by
  mvcgen [skipParameterModifiers] with grind

omit hrec in
@[spec] lemma reads_decorator {expression : Parse Node} (h : Reads expression) :
    Reads (decorator expression) := by
  mvcgen [decorator, h] with grind

omit hrec in
@[spec] lemma reads_decorators {expression : Parse Node} (h : Reads expression) :
    Reads (decorators expression) := by
  mvcgen [decorators, h] with grind

@[spec] lemma reads_restParameter (style : ParameterStyle) :
    Reads (restParameter rec style) := by
  mvcgen [restParameter, hrec] with grind

@[spec] lemma reads_plainParameter (style : ParameterStyle) :
    Reads (plainParameter rec style) := by
  mvcgen [plainParameter, hrec] with grind

@[spec] lemma reads_parameter {expression : Parse Node} (h : Reads expression)
    (style : ParameterStyle) : Reads (parameter rec expression style) := by
  mvcgen [parameter, hrec, h] with grind

@[spec] lemma reads_parameters {expression : Parse Node} (h : Reads expression)
    (style : ParameterStyle) : Reads (parameters rec expression style) := by
  mvcgen [parameters, hrec, h] with grind

@[spec] lemma reads_blockReader : Reads (blockReader rec) := by
  mvcgen [blockReader, hrec] with grind

@[spec] lemma reads_body? : Reads (body? rec) := by
  mvcgen [body?, hrec] with grind

@[spec] lemma reads_functionTail {expression : Parse Node} (h : Reads expression)
    (generator : Bool) : Reads (functionTail rec expression generator) := by
  mvcgen [functionTail, hrec, h] with grind

end Patterns

/-! ### Chains -/

instance : Recording Chain := ⟨fun text chain => Agrees text chain.node⟩

section Chains

variable {chain : Chain}

@[simp, grind =] lemma agrees_chain_iff : Agrees text chain ↔ Agrees text chain.node := Iff.rfl

@[grind ←] lemma agrees_chain_member (h : Agrees text chain) (field : Option String)
    {index : List Node} (hindex : Agrees text index) (span : Span) :
    Agrees text (chain.member field index span) := by
  unfold Chain.member
  grind

@[grind ←] lemma agrees_chain_call (h : Agrees text chain) {arguments types : List Node}
    (harguments : Agrees text arguments) (htypes : Agrees text types) {span : Span}
    (hstop : StopStandsIn text span.stop) : Agrees text (chain.call arguments types span) := by
  unfold Chain.call
  grind

omit [Subject] in
@[simp, grind .] lemma not_isName_chain_member (field : Option String) (index : List Node)
    (span : Span) : ¬ (chain.member field index span).node.IsName := by
  unfold Chain.member
  grind

omit [Subject] in
@[simp, grind .] lemma not_isName_chain_call (arguments types : List Node) (span : Span) :
    ¬ (chain.call arguments types span).node.IsName := by
  unfold Chain.call
  grind

include hrec

@[spec] lemma reads_expression : Reads (expression rec) := by
  mvcgen [expression, hrec] with grind

@[spec] lemma reads_spreadable : Reads (spreadable rec) := by
  mvcgen [spreadable, hrec] with grind

/-- The bracket that closes the arguments is the token used last. -/
@[spec] lemma reads_callArguments :
    ⦃fun s => ⌜s.In text⌝⦄ callArguments rec
    ⦃⇓? r s => ⌜s.In text ∧ Agrees text r ∧ StopStandsIn text s.lastStop⌝⦄ := by
  have hclosed := reads_separated_closed (reads_spreadable hrec) .rparen (.inr rfl)
  mvcgen [callArguments, -reads_enclosed, hclosed, hrec] with grind

omit hrec in
/-- The first segment begins behind the mark that opens the template. -/
lemma segmentStandsIn_of_backtick {t : Token} (h : Agrees text t) (hkind : t.kind = .backtick)
    (hclosed : (templateSegment t.after.offset t.after.chars).2.1 ≠ .unfinished) :
    SegmentStandsIn text
      ⟨t.after.offset, (templateSegment t.after.offset t.after.chars).1.offset⟩ := by
  obtain ⟨before, htext, hstart⟩ := Token.In.start_in h
  have hreading := Token.In.reading h
  rw [hkind] at hreading
  obtain ⟨hchars, hafter⟩ := hreading.of_backtick
  obtain ⟨raw, hraw, hstop, hsegment⟩ := segment_of_templateSegment _ _ hclosed
  refine ⟨before, raw, _, ?_, hsegment, ?_⟩
  · dsimp only at htext
    rw [htext, hchars, ← hraw]
  · dsimp only at hstart
    rw [hstop, hafter, hstart, Nat.zero_add]

/-- A tagged template at its opening mark, which comes next behind the tag
unless type arguments do. -/
@[spec] lemma reads_taggedTemplate (start : Nat) {tag : Node} {types : List Node}
    (htag : Agrees text tag) (htypes : Agrees text types) :
    ⦃fun s => ⌜s.In text ∧ s.token.kind = .backtick ∧
      ∃ next, tag.Precedes text next ∧ (next = s.token ∨ next.kind = .punct .less)⌝⦄
    taggedTemplate rec start tag types
    ⦃⇓? n s => ⌜s.In text ∧ Agrees text n ∧ ¬ n.IsName⌝⦄ := by
  mvcgen [taggedTemplate, token, -reads_token, hrec]
    with grind [segmentStandsIn_of_backtick, TagStandsIn]

/-- A link of a chain.  If the chain is a name so far, then the next token is
the one behind it; with the link it is none anymore. -/
@[spec] lemma reads_subscript (links : Links) (start : Nat) (h : Agrees text chain)
    {next : Token} (hnext : chain.node.Precedes text next) :
    ⦃fun s => ⌜s.In text ∧ s.token = next⌝⦄ subscript rec links start chain
    ⦃⇓? r s => ⌜s.In text ∧ Agrees text r ∧ ∀ later ∈ r, ¬ later.node.IsName⌝⦄ := by
  have hoptionally (p : Parse Chain) :=
    reads_optionally_of (p := p) (P := fun later => ¬ later.node.IsName)
  mvcgen [subscript, token, spanFrom, -reads_token, -reads_spanFrom, -reads_optionally,
    hoptionally, hrec] with grind

/-- One more link of a chain, or the end of the chain. -/
def linked (rec : Rec) (links : Links) (start : Nat) (chain : Chain) : Parse (Chain ⊕ Chain) := do
  (← subscript rec links start chain).elim (return .inr chain) fun later => return .inl later

omit [Subject] hrec in
lemma subscripts_eq (links : Links) (start : Nat) (node : Node) :
    subscripts rec links start node =
      Chain.node <$> loop (linked rec links start) ⟨node, false⟩ := by
  rw [subscripts, map_eq_pure_bind]
  congr 2
  funext chain
  rw [linked]
  congr 1
  funext link
  cases link <;> rfl

/-- A link in front of the next token, which is behind the chain if that is a
name.  With the link it is none. -/
lemma agrees_of_linked (links : Links) (start : Nat) (hchain : Agrees text chain) {s : State}
    (hs : s.In text) (hnext : chain.node.Precedes text s.token) (result : Chain ⊕ Chain)
    (later : State) (hrun : linked rec links start chain s = .ok (result, later)) :
    later.In text ∧
      Sum.elim (fun c => Agrees text c ∧ ¬ c.node.IsName) (Agrees text) result := by
  have hsubscript := triple_iff.mp (reads_subscript hrec links start hchain hnext) s ⟨hs, rfl⟩
  change (subscript rec links start chain s >>= _) = .ok (result, later) at hrun
  cases hlink : subscript rec links start chain s with
  | error e =>
      rw [hlink] at hrun
      cases hrun
  | ok found =>
      rw [hlink] at hrun
      obtain ⟨link, mid⟩ := found
      obtain ⟨hmid, hagrees, hunnamed⟩ := hsubscript link mid hlink
      cases link with
      | none =>
          cases hrun
          exact ⟨hmid, hchain⟩
      | some next =>
          cases hrun
          exact ⟨hmid, (agrees_some next).mp hagrees, hunnamed next rfl⟩

/-- An expression with what follows it.  If it is a name, then the next token
is the one behind it. -/
@[spec] lemma reads_subscripts (links : Links) (start : Nat) {node : Node}
    (h : Agrees text node) :
    ⦃fun s => ⌜s.In text ∧ node.Precedes text s.token⌝⦄ subscripts rec links start node
    ⦃⇓? n s => ⌜s.In text ∧ Agrees text n⌝⦄ := by
  rw [subscripts_eq]
  refine triple_iff.mpr fun s hs n later hrun => ?_
  -- only the first link can stand behind a name
  have hchain : Agrees text (⟨node, false⟩ : Chain) := h
  have hfirst := agrees_of_linked hrec links start hchain hs.1 hs.2
  have hlater (chain : Chain) (hchain : Agrees text chain ∧ ¬ chain.node.IsName) :
      Ensures (State.In text) (linked rec links start chain) _ := fun s hs =>
    agrees_of_linked hrec links start hchain.1 hs (Node.precedes_of_not_isName hchain.2 s.token)
  change (loop (linked rec links start) ⟨node, false⟩ s >>= fun r => .ok (r.1.node, r.2)) =
    .ok (n, later) at hrun
  cases hloop : loop (linked rec links start) ⟨node, false⟩ s with
  | error e =>
      rw [hloop] at hrun
      cases hrun
  | ok r =>
      rw [hloop] at hrun
      cases hrun
      exact ensures_loop_from hfirst hlater hloop

@[spec] lemma reads_decoratorExpression : Reads (decoratorExpression rec) := by
  mvcgen [decoratorExpression, spanFrom, -reads_spanFrom, hrec]
    with grind [Node.Precedes.stopStandsIn]

end Chains

/-! ### Literals -/

section Literals

@[spec] lemma reads_leaf : ReadsUnnamed leaf := by
  mvcgen [leaf] with grind

@[spec] lemma reads_skipPropertyModifier : Reads skipPropertyModifier := by
  mvcgen [skipPropertyModifier] with grind

@[spec] lemma reads_optionalName : Reads optionalName := by
  mvcgen [optionalName] with grind

@[spec] lemma reads_skipMemberModifiers : Reads skipMemberModifiers := by
  mvcgen [skipMemberModifiers] with grind

@[spec] lemma reads_optionalClassName : Reads optionalClassName := by
  mvcgen [optionalClassName] with grind

include hrec

@[spec] lemma reads_methodTail (start : Nat) {key : Key} {index : List Node}
    (hkey : Agrees text key) (hindex : Agrees text index) (generator : Bool) :
    Reads (methodTail rec start key index generator) := by
  mvcgen [methodTail, hrec] with grind

@[spec] lemma reads_wordedProperty (start : Nat) (word : String) :
    Reads (wordedProperty rec start word) := by
  mvcgen [wordedProperty, hrec] with grind

@[spec] lemma reads_property : Reads (property rec) := by
  mvcgen [property, hrec] with grind

@[spec] lemma reads_objectLiteral : ReadsUnnamed (objectLiteral rec) := by
  have hclosed := reads_separated_closed (reads_property hrec) .rbrace (.inl rfl)
  mvcgen [objectLiteral, spanFrom, -reads_spanFrom, -reads_enclosed, hclosed, hrec] with grind

@[spec] lemma reads_arrayElement : Reads (arrayElement rec) := by
  mvcgen [arrayElement, hrec] with grind

@[spec] lemma reads_arrayLiteral : ReadsUnnamed (arrayLiteral rec) := by
  mvcgen [arrayLiteral, hrec] with grind

@[spec] lemma reads_parenthesized : ReadsUnnamed (parenthesized rec) := by
  mvcgen [parenthesized, hrec] with grind

@[spec] lemma reads_functionFrom (start : Nat) {named : Parse Unit} (h : Reads named) :
    ReadsUnnamed (functionFrom rec start named) := by
  mvcgen [functionFrom, hrec, h] with grind

@[spec] lemma reads_functionExpression : ReadsUnnamed (functionExpression rec) := by
  mvcgen [functionExpression, hrec] with grind

@[spec] lemma reads_memberKey : Reads (memberKey rec) := by
  mvcgen [memberKey, hrec] with grind

@[spec] lemma reads_classMember : Reads (classMember rec) := by
  mvcgen [classMember, hrec] with grind

@[spec] lemma reads_heritage : Reads (heritage rec) := by
  mvcgen [heritage, hrec] with grind

@[spec] lemma reads_classTail (start : Nat) {found : List Node} (hfound : Agrees text found)
    {named : Parse Unit} (h : Reads named) :
    ReadsUnnamed (classTail rec start found named) := by
  mvcgen [classTail, hrec, h] with grind

@[spec] lemma reads_classExpression : ReadsUnnamed (classExpression rec) := by
  mvcgen [classExpression, hrec] with grind

@[spec] lemma reads_template : ReadsUnnamed (template rec) := by
  mvcgen [template, hrec] with grind

omit hrec in
lemma reads_markupExpression (helement : ReadsUnnamed (rec .element)) :
    ReadsUnnamed (markupExpression rec) := by
  mvcgen [markupExpression, helement] with grind

omit hrec in
/-- The cursor that a regular expression is read from stands behind its
first slash, which takes up one byte. -/
lemma agrees_of_regexEnd? {t : Token} (h : Agrees text t)
    (hslash : t.start.chars.head? = some '/') {rest : Cursor}
    (hrest : regexEnd? false (t.span.start + 1) (t.start.drop 1).chars = some rest) :
    Agrees text rest := by
  obtain ⟨cs, hchars⟩ := List.head?_eq_some_iff.mp hslash
  have hdrop : t.start.drop 1 = ⟨t.start.offset + 1, cs⟩ := by
    simp [Cursor.drop, hchars, show Char.utf8Size '/' = 1 from rfl]
  rw [hdrop, Token.In.span_eq h] at hrest
  have hbehind : Agrees text (t.start.drop 1) := agrees_drop (agrees_start h) 1
  rw [hdrop] at hbehind
  exact Cursor.In.of_reaches hbehind (regexEnd?_reaches hrest)

omit hrec in
/-- A regular expression at its first slash. -/
@[spec] lemma reads_regularExpression :
    ⦃fun s => ⌜s.In text ∧ s.token.start.chars.head? = some '/'⌝⦄ regularExpression
    ⦃⇓? n s => ⌜s.In text ∧ Agrees text n ∧ ¬ n.IsName⌝⦄ := by
  mvcgen [regularExpression, token, -reads_token] with grind [agrees_of_regexEnd?]

omit hrec in
lemma head?_of_slash {t : Token} (h : Agrees text t) (hkind : t.kind = .punct .slash) :
    t.start.chars.head? = some '/' := by
  have hreading := Token.In.reading h
  rw [hkind] at hreading
  exact hreading.head?_of_slash

/-- If the expression is a name, then the next token is the one behind it. -/
lemma reads_primary (helement : ReadsUnnamed (rec .element)) :
    ⦃fun s => ⌜s.In text⌝⦄ primary rec
    ⦃⇓? n s => ⌜s.In text ∧ Agrees text n ∧ n.Precedes text s.token⌝⦄ := by
  have hmarkup := reads_markupExpression helement
  mvcgen [primary, token, advance, resume, -reads_token, -reads_advance, -reads_resume,
    hmarkup, hrec]
    with grind [head?_of_slash, precedes_of_word, state_in_advanced, Node.Precedes.stopStandsIn]

end Literals

end GraphMigrate.Script.Grammar
