/-
Patterns that are read as they are written.

The pattern that takes a resolver's parameter apart is put in the place of
the parameter as text.  Between parentheses the grammar reads it as one
parameter again: an object pattern with a property for each of its names,
in their order, and the rest element, if there is one.

* `writesItem_name`, `writesItem_rest`: the members of such a pattern;
* `takes_patternMembers`, `takes_pattern`: the pattern is read as it is written;
* `takes_parameter`: in a list of parameters it is one of them.
-/
import GraphMigrate.Proofs.Arguments.RuntimeObject
import GraphMigrate.Proofs.Script.Written
import GraphMigrate.Script.Grammar

namespace GraphMigrate.Script.Grammar

variable {context : Context} {rec : Rec} {rest : List Char}

/-! ### Members -/

lemma isVariable_of_isVariableName {name : String} (h : isVariableName name = true) :
    isVariable (.word name false) = true := by
  simp only [isVariableName, Bool.and_eq_true, Bool.not_eq_true', List.contains_append,
    Bool.or_eq_false_iff] at h
  rw [isVariable, h.2.1]
  rfl

lemma isWord_of_isVariableName {name : String} (h : isVariableName name = true) :
    isWord name = true := by
  rw [isVariableName, Bool.and_eq_true] at h
  exact h.1

lemma takes_propertyKey {name : String} {written : List Char}
    (h : Begins written rest (.word name false)) :
    Takes context (propertyKey rec) written rest
      fun r => ∃ span, r = (⟨.name name, span⟩, []) := by
  unfold propertyKey
  refine (takes_token h).look fun t ht => ?_
  rw [ht]
  exact (takes_advance h).andThen fun _ _ => .pure ⟨_, rfl⟩

/-- Between the braces of a pattern a variable stands for itself. -/
lemma writesItem_name {name : String} (hname : isVariableName name = true) :
    WritesItem context (patternProperty rec) name.toList
      fun n => ∃ span, n = .patternName name span none := by
  have hword := isWord_of_isVariableName hname
  refine ⟨⟨name.toList, [], _, (List.append_nil _).symm, by simp, fun rest hrest =>
    begins_word hword hrest.endsWord⟩, fun rest hrest => ?_⟩
  have hbegins := (begins_word hword hrest.endsWord).space
  obtain ⟨behind, later, p, rfl, hbehind, hp⟩ := hrest.exists_begins
  have hcolon : TokenKind.punct p ≠ .punct .colon := by rcases hp with rfl | rfl <;> decide
  have hassign : TokenKind.punct p ≠ .punct .assign := by rcases hp with rfl | rfl <;> decide
  unfold patternProperty
  refine takes_here.look fun start _ => ?_
  refine (takes_eat_of_ne hbegins (by simp)).look fun dots hdots => ?_
  rw [hdots, if_neg (by decide)]
  refine (takes_token hbegins).look fun t ht => ?_
  refine (takes_propertyKey hbegins).andThen fun r hr => ?_
  obtain ⟨span, rfl⟩ := hr
  refine (takes_eat_of_ne hbehind hcolon).andThen fun colon hc => ?_
  rw [hc, if_neg (by decide)]
  dsimp only
  rw [ht, isVariable_of_isVariableName hname]
  refine (takes_eat_of_ne hbehind hassign).andThen fun assign ha => ?_
  rw [ha, if_neg (by decide)]
  exact .pure ⟨span, rfl⟩

lemma takes_variableName {name : String} {first : List Char} (hname : isVariableName name = true)
    (hfirst : Begins first rest (.word name false)) :
    Takes context variableName first rest (·.1 = name) := by
  unfold variableName
  refine (takes_token hfirst).look fun t ht => ?_
  rw [ht]
  dsimp only
  rw [if_pos (isVariable_of_isVariableName hname)]
  exact (takes_advance hfirst).andThen fun _ _ => .pure rfl

lemma takes_variable {name : String} {first : List Char} (hname : isVariableName name = true)
    (hfirst : Begins first rest (.word name false)) (depth : ℕ) :
    Takes context (read (depth + 1) .pattern) first rest
      fun n => ∃ span, n = .binding name span none := by
  change Takes context (patternReader (read depth)) _ _ _
  unfold patternReader
  refine (takes_token hfirst).look fun t ht => ?_
  rw [ht]
  exact (takes_variableName hname hfirst).andThen fun r hr => .pure ⟨r.2, by rw [← hr]⟩

/-- Three dots and a variable take the rest. -/
lemma writesItem_rest {name : String} (hname : isVariableName name = true) (depth : ℕ) :
    WritesItem context (patternProperty (read (depth + 1))) ("..." ++ name).toList
      fun n => ∃ inner span, n = .patternRest [.binding name inner none] span := by
  have htext : ("..." ++ name).toList = ['.', '.', '.'] ++ name.toList := by simp
  rw [htext]
  refine ⟨⟨['.', '.', '.'], name.toList, _, rfl, by simp, fun rest _ => begins_ellipsis _⟩,
    fun rest hrest => ?_⟩
  unfold patternProperty
  refine takes_here.look fun start _ => ?_
  refine (takes_eat (begins_ellipsis (name.toList ++ rest)).space).bind fun dots hdots => ?_
  rw [hdots, if_pos rfl]
  have hbegins := begins_word (isWord_of_isVariableName hname) hrest.endsWord
  refine (takes_variable hname hbegins depth).andThen fun inner hinner => ?_
  obtain ⟨span, rfl⟩ := hinner
  exact (takes_spanFrom start).andThen fun s _ => .pure ⟨span, s, rfl⟩

/-! ### Patterns -/

/-- A member of an object pattern as it is written, if it is a name or takes
the rest under a name. -/
def boundMember? : Node → Option String
  | .patternName name _ none => some name
  | .patternRest [.binding name _ none] _ => some ("..." ++ name)
  | _ => none

lemma toList_inBraces {members : List String} (h : members ≠ []) :
    (inBraces members).toList = '{' :: (spaced (members.map String.toList) ++ [' ', '}']) := by
  have hspaced : spaced (members.map String.toList) =
      ' ' :: (String.intercalate ", " members).toList := by
    induction members with
    | nil => exact absurd rfl h
    | cons m ms ih =>
        cases ms with
        | nil => simp [spaced]
        | cons m' ms =>
            rw [List.map_cons, spaced_cons _ (by simp), ih (by simp), String.intercalate_cons_cons]
            simp
  rw [inBraces, hspaced]
  simp

/-- Members that can be written one by one are read in a row. -/
lemma takes_items {item : Parse Node} {S : String → Node → Prop} {members : List String}
    (hmembers : members ≠ []) (h : ∀ m ∈ members, WritesItem context item m.toList (S m)) :
    Takes context (separated .rbrace item) (spaced (members.map String.toList) ++ [' ', '}']) rest
      (List.Forall₂ S members) := by
  have hitems : ∀ w ∈ members.map String.toList, WritesItem context item w
      (S (String.ofList w)) := by
    intro w hw
    obtain ⟨m, hm, rfl⟩ := List.mem_map.mp hw
    rw [String.ofList_toList]
    exact h m hm
  refine (takes_separated (by simpa using hmembers) hitems).mono fun ns hns => ?_
  rw [List.forall₂_map_left_iff] at hns
  exact hns.imp fun m n hmn => by rwa [String.ofList_toList] at hmn

lemma map_of_forall₂_some {member? : Node → Option String} {members : List String} {ns : List Node}
    (h : List.Forall₂ (fun m n => member? n = some m) members ns) :
    ns.map member? = members.map some := by
  induction h with
  | nil => rfl
  | cons hm _ ih => rw [List.map_cons, List.map_cons, ih, hm]

/-- An object pattern with members as they are written. -/
def IsPattern (members : List String) (n : Node) : Prop :=
  ∃ properties span, n = .objectPattern properties [] span ∧
    properties.map boundMember? = members.map some

/-- Members in braces are read as an object pattern. -/
lemma takes_objectPattern {members : List String} (hmembers : members ≠ []) {depth : ℕ}
    {S : String → Node → Prop}
    (h : ∀ m ∈ members, WritesItem context (patternProperty (read depth)) m.toList (S m)) :
    Takes context (read (depth + 1) .pattern) (inBraces members).toList rest
      fun n => ∃ properties span, n = .objectPattern properties [] span ∧
        List.Forall₂ S members properties := by
  rw [toList_inBraces hmembers, ← List.singleton_append]
  have hopen := begins_open (spaced (members.map String.toList) ++ [' ', '}'] ++ rest)
  change Takes context (patternReader (read depth)) _ _ _
  unfold patternReader
  refine Takes.look (by simpa using takes_token hopen) fun t ht => ?_
  rw [ht]
  refine (takes_advance hopen).bind fun _ _ => ?_
  refine (takes_items hmembers h).andThen fun ns hns => ?_
  exact (takes_spanFrom _).andThen fun span _ => .pure ⟨ns, span, rfl, hns⟩

/-- What stands between the braces of a pattern. -/
def patternMembers (p : Destructuring) : List String :=
  p.names ++ p.rest.toList.map ("..." ++ ·)

/-- A member of a pattern: a variable, or the rest under a name. -/
def IsMember (m : String) (n : Node) : Prop :=
  (isVariableName m = true ∧ ∃ span, n = .patternName m span none) ∨
    ∃ name inner span, m = "..." ++ name ∧ n = .patternRest [.binding name inner none] span

lemma IsMember.boundMember?_eq {m : String} {n : Node} (h : IsMember m n) :
    boundMember? n = some m := by
  rcases h with ⟨-, span, rfl⟩ | ⟨name, inner, span, rfl, rfl⟩ <;> rfl

/-- A pattern is read member by member. -/
lemma takes_patternMembers {p : Destructuring} (hsome : p.names ≠ [])
    (hnames : ∀ x ∈ p.names ++ p.rest.toList, isVariableName x = true) (depth : ℕ) :
    Takes context (read (depth + 2) .pattern) p.written.toList rest
      fun n => ∃ properties span, n = .objectPattern properties [] span ∧
        List.Forall₂ IsMember (patternMembers p) properties := by
  rw [List.forall_mem_append] at hnames
  refine takes_objectPattern (by simp [hsome]) fun m hm => ?_
  rcases List.mem_append.mp hm with hm | hm
  · exact (writesItem_name (hnames.1 m hm)).mono fun n hn => .inl ⟨hnames.1 m hm, hn⟩
  · obtain ⟨name, hmem, rfl⟩ := List.mem_map.mp hm
    refine (writesItem_rest (hnames.2 name hmem) depth).mono fun n hn => .inr ?_
    obtain ⟨inner, span, rfl⟩ := hn
    exact ⟨name, inner, span, rfl, rfl⟩

/-- What stands behind a parameter: a comma or the parenthesis that closes. -/
inductive EndsParameter : List Char → Prop
  | comma (cs : List Char) : EndsParameter (',' :: cs)
  | close (cs : List Char) : EndsParameter (')' :: cs)

lemma EndsParameter.exists_begins (h : EndsParameter rest) :
    ∃ written later p, rest = written ++ later ∧ Begins written later (.punct p) ∧
      (p = .comma ∨ p = .rparen) := by
  cases h with
  | comma cs => exact ⟨[','], cs, .comma, rfl, begins_comma cs, .inl rfl⟩
  | close cs => exact ⟨[')'], cs, .rparen, rfl, begins_punct cs rfl (by decide) rfl, .inr rfl⟩

section Parameter

variable {written : List Char} {kind : TokenKind}

lemma takes_loop_once {α β : Type} {step : α → Parse (α ⊕ β)} {a : α} {P : β → Prop}
    (h : Takes context (step a) written rest fun r => ∃ b, r = .inr b ∧ P b) :
    Takes context (loop step a) written rest P := by
  intro offset lastStop
  have hstep : ∀ bound, Takes context (loopUpTo (bound + 1) step a) written rest P := by
    intro bound
    refine Takes.andThen h fun r hr => ?_
    obtain ⟨b, rfl, hb⟩ := hr
    exact .pure hb
  exact hstep _ offset lastStop

lemma takes_decorators {dec : Parse Node} (h : Begins written rest kind)
    (hkind : kind ≠ .punct .at) :
    Takes context (decorators dec) [] (written ++ rest) (· = []) := by
  unfold decorators
  refine takes_loop_once ((takes_atPunct h .at).andThen fun found hfound => ?_)
  rw [hfound, if_neg (by simp [hkind])]
  exact .pure ⟨[], rfl, rfl⟩

lemma takes_peek : Takes context peek [] rest fun _ => True :=
  fun offset lastStop => ⟨_, offset, lastStop, rfl, trivial⟩

lemma takes_skipParameterModifiers {p : Punct} (h : Begins written rest (.punct p)) :
    Takes context skipParameterModifiers [] (written ++ rest) fun _ => True := by
  unfold skipParameterModifiers
  refine takes_hasTypes.andThen fun types _ => ?_
  split
  · refine takes_loop_once ((takes_token h).andThen fun t ht => ?_)
    refine takes_peek.andThen fun next _ => ?_
    dsimp only
    rw [ht]
    exact .pure ⟨(), rfl, trivial⟩
  · exact .pure trivial

lemma takes_typeAnnotation? (h : Begins written rest kind) (hkind : kind ≠ .punct .colon) :
    Takes context (typeAnnotation? rec) [] (written ++ rest) (· = none) := by
  unfold typeAnnotation?
  refine takes_hasTypes.andThen fun types htypes => ?_
  refine (takes_eat_of_ne h hkind).andThen fun colon hcolon => ?_
  rw [hcolon, Bool.and_false, if_neg (by decide)]
  exact .pure rfl

lemma takes_withDefault (h : Begins written rest kind) (hkind : kind ≠ .punct .assign)
    (start : ℕ) (target : Node) :
    Takes context (withDefault rec start target) [] (written ++ rest) (· = target) := by
  unfold withDefault
  refine (takes_eat_of_ne h hkind).andThen fun found hfound => ?_
  rw [hfound, if_neg (by decide)]
  exact .pure rfl

/-- A pattern in braces among the parameters is a parameter. -/
lemma takes_parameter {first later : List Char} (hfirst : Begins first (later ++ rest)
    (.punct .lbrace)) {P : Node → Prop} (hpattern : Takes context (rec .pattern)
    (first ++ later) rest P) (hrest : EndsParameter rest) (dec : Parse Node)
    (style : ParameterStyle) :
    Takes context (parameter rec dec style) (first ++ later) rest P := by
  obtain ⟨behind, end', p, rfl, hbehind, hp⟩ := hrest.exists_begins
  have hquestion : TokenKind.punct p ≠ .punct .question := by rcases hp with rfl | rfl <;> decide
  have hcolon : TokenKind.punct p ≠ .punct .colon := by rcases hp with rfl | rfl <;> decide
  have hassign : TokenKind.punct p ≠ .punct .assign := by rcases hp with rfl | rfl <;> decide
  unfold parameter
  refine Takes.look (by simpa using takes_decorators hfirst (by decide)) fun found hfound => ?_
  subst hfound
  refine Takes.look (by simpa using takes_skipParameterModifiers hfirst) fun _ _ => ?_
  refine Takes.andThen (P := P) ?_ fun n hn => .pure hn
  unfold plainParameter
  refine takes_here.look fun start _ => ?_
  refine Takes.look (by simpa using takes_atPunct hfirst .ellipsis) fun dots hdots => ?_
  rw [hdots, if_neg (by decide)]
  refine Takes.look (by simpa using takes_token hfirst) fun t ht => ?_
  refine takes_hasTypes.look fun types htypes => ?_
  have hthis : TokenKind.isWord t.kind "this" = false := by
    rw [ht]
    rfl
  rw [hthis, Bool.and_false, if_neg (by decide)]
  refine hpattern.andThen fun target htarget => ?_
  have hannotation : Takes context (typeAnnotation? rec >>= fun typing =>
      annotate start target typing >>= withDefault rec start) [] (behind ++ end') (· = target) := by
    refine (takes_typeAnnotation? hbehind hcolon).andThen fun typing htyping => ?_
    subst htyping
    refine Takes.andThen (P := (· = target)) (.pure rfl) fun same hsame => ?_
    rw [hsame]
    exact takes_withDefault hbehind hassign start target
  cases types with
  | false => exact hannotation.mono fun n hn => hn ▸ htarget
  | true =>
      refine (takes_eat_of_ne hbehind hquestion).andThen fun found _ => ?_
      exact hannotation.mono fun n hn => hn ▸ htarget

end Parameter

end GraphMigrate.Script.Grammar
