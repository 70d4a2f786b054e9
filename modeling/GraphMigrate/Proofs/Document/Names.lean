/-
The names in documents that are read.

A name in a document that was read is a token of its text, and tokens of
names are valid names.  Readers only ever go on to later tokens, so this
follows reader by reader.

* `hasName_of_tokensFrom?`: the names among the tokens of a text are valid;
* `Named`: what it means that the names in a value are valid;
* `Reads`: a reader of such tokens that gives such values;
* `valid_of_parse?`: **the fields and the arguments that a renamer comes to
  have valid names in every document that is read**.
-/
import GraphMigrate.Document.Reader
import GraphMigrate.Proofs.Document.AppliedArguments
import Mathlib.Data.List.TakeWhile

namespace GraphMigrate.Document

open Std.Do

set_option mvcgen.warning false

/-! ### Tokens -/

/-- A token that is a name has a valid one. -/
def Token.HasName (t : Token) : Prop := ∀ text, t.kind = .name text → isName text

lemma isName_ofList {c : Char} {cs : List Char} (hc : isNameStart c)
    (hcs : ∀ d ∈ cs, isNamePart d) : isName (String.ofList (c :: cs)) := by
  rw [isName, String.toList_ofList, Bool.and_eq_true, List.all_eq_true]
  exact ⟨hc, hcs⟩

/-- A number is no name. -/
lemma ne_name_of_number? {cs rest : List Char} {kind : TokenKind}
    (h : number? cs = some (kind, rest)) (text : String) : kind ≠ .name text := by
  rintro rfl
  simp only [number?, Option.bind_eq_bind, Option.bind_eq_some_iff,
    Option.ite_none_left_eq_some] at h
  obtain ⟨whole, -, fraction, -, exponent, -, -, h⟩ := h
  split at h <;> cases h

/-- The token at the start of a text is a valid name, if it is one. -/
lemma isName_of_token? {cs rest : List Char} {text : String}
    (h : token? cs = some (.name text, rest)) : isName text := by
  rw [token?.eq_def] at h
  split at h
  case h_1 =>
    obtain ⟨_, _, h⟩ := Option.bind_eq_some_iff.mp h
    cases h
  case h_2 =>
    obtain ⟨_, _, h⟩ := Option.bind_eq_some_iff.mp h
    cases h
  case h_3 => cases h
  case h_4 c cs _ _ =>
    split at h
    · rename_i hstart
      cases h
      exact isName_ofList hstart fun _ => List.mem_takeWhile_imp
    split at h
    · exact absurd rfl (ne_name_of_number? h text)
    · obtain ⟨_, _, h⟩ := Option.bind_eq_some_iff.mp h
      cases h

/-- The names among the tokens of a text are valid. -/
lemma hasName_of_tokensFrom? {fuel offset : ℕ} {cs : List Char} {ts : List Token}
    (h : tokensFrom? fuel offset cs = some ts) : ∀ t ∈ ts, t.HasName := by
  induction fuel generalizing offset cs ts with
  | zero => cases h
  | succ fuel ih =>
      cases cs with
      | nil =>
          cases h
          exact List.forall_mem_nil _
      | cons c cs =>
          rw [tokensFrom?] at h
          split at h
          · exact ih h
          split at h
          · exact ih h
          obtain ⟨⟨kind, rest⟩, htoken, h⟩ := Option.bind_eq_some_iff.mp h
          obtain ⟨later, hlater, h⟩ := Option.bind_eq_some_iff.mp h
          cases h
          refine List.forall_mem_cons.mpr ⟨?_, ih hlater⟩
          rintro text rfl
          exact isName_of_token? htoken

/-! ### Names in values -/

/-- Values with what it means that the names in them are valid. -/
class Named (α : Type) where
  Valid : α → Prop

export Named (Valid)

/-- Types whose values have no names to rename. -/
class Nameless (α : Type) : Prop

instance : Nameless Unit := ⟨⟩
instance : Nameless Bool := ⟨⟩
instance : Nameless Nat := ⟨⟩
instance : Nameless Value := ⟨⟩
instance : Nameless TypeReference := ⟨⟩
instance : Nameless VariableDefinition := ⟨⟩
instance : Nameless OperationKind := ⟨⟩
instance : Nameless InputValue := ⟨⟩
instance : Nameless FieldDefinition := ⟨⟩
instance : Nameless EnumValue := ⟨⟩
instance : Nameless TypeBody := ⟨⟩
instance : Nameless TypeDefinition := ⟨⟩
instance : Nameless DirectiveDefinition := ⟨⟩
instance : Nameless SchemaDefinition := ⟨⟩

namespace Named

variable {α β : Type} [Named α] [Named β]

instance nothing {α : Type} [Nameless α] : Named α := ⟨fun _ => True⟩
instance : Named String := ⟨fun text => isName text⟩
instance : Named TokenKind := ⟨fun kind => ∀ text, kind = .name text → isName text⟩
instance : Named Argument := ⟨fun argument => isName argument.name⟩
instance : Named (List α) := ⟨fun as => ∀ a ∈ as, Valid a⟩
instance : Named (Option α) := ⟨fun a => ∀ b ∈ a, Valid b⟩
instance : Named (α × β) := ⟨fun p => Valid p.1 ∧ Valid p.2⟩
instance : Named Directive := ⟨fun directive => Valid directive.arguments⟩
instance : Named Field := ⟨fun field => Valid field.name ∧ Valid field.appliedArguments⟩
instance : Named Selection := ⟨fun selection => Valid selection.fields⟩
instance : Named Operation := ⟨fun o => Valid o.directives ∧ Valid o.selections⟩
instance : Named Fragment := ⟨fun f => Valid f.directives ∧ Valid f.selections⟩
instance : Named Definition :=
  ⟨fun definition => Valid definition.marks ∧ Valid definition.selections⟩

end Named

section Valid

variable {α β : Type} [Named α] [Named β]

@[simp, grind ←] lemma valid_of_nameless {γ : Type} [Nameless γ] (c : γ) : Valid c := trivial

@[simp, grind =] lemma valid_nil : Valid ([] : List α) ↔ True := by
  simp [Valid]

@[simp, grind =] lemma valid_cons (a : α) (as : List α) :
    Valid (a :: as) ↔ Valid a ∧ Valid as := by
  simp [Valid]

@[simp, grind =] lemma valid_append (as bs : List α) :
    Valid (as ++ bs) ↔ Valid as ∧ Valid bs := by
  simp [Valid, or_imp, forall_and]

@[simp, grind =] lemma valid_none : Valid (none : Option α) ↔ True := by
  simp [Valid]

@[simp, grind =] lemma valid_some (a : α) : Valid (some a) ↔ Valid a := by
  simp [Valid]

@[simp, grind =] lemma valid_mk (a : α) (b : β) : Valid (a, b) ↔ Valid a ∧ Valid b := Iff.rfl

@[grind →] lemma Named.Valid.name {text : String} (h : Valid (TokenKind.name text)) :
    Valid text := h text rfl

@[simp, grind =] lemma valid_argument (name : String) (value : Value) :
    Valid (⟨name, value⟩ : Argument) ↔ Valid name := Iff.rfl

@[simp, grind =] lemma valid_directive (name : String) (arguments : List Argument) :
    Valid (⟨name, arguments⟩ : Directive) ↔ Valid arguments := Iff.rfl

lemma valid_marked (directives : List Directive) :
    Valid (marked directives) ↔ Valid directives := by
  induction directives with
  | nil => exact iff_of_true (List.forall_mem_nil _) (List.forall_mem_nil _)
  | cons directive directives ih =>
      rw [marked, List.flatMap_cons, valid_append, valid_cons]
      exact and_congr Iff.rfl ih

@[simp, grind =] lemma valid_field (offset : ℕ) (alias? : Option String) (name : String)
    (arguments : List Argument) (directives : List Directive) :
    Valid (⟨offset, alias?, name, arguments, directives⟩ : Field) ↔
      Valid name ∧ Valid arguments ∧ Valid directives := by
  rw [← valid_marked, ← valid_append]
  exact Iff.rfl

lemma valid_fieldsAll (selections : List Selection) :
    Valid (Selection.fieldsAll selections) ↔ Valid selections := by
  induction selections with
  | nil => simp [Selection.fieldsAll]
  | cons selection selections ih =>
      rw [Selection.fieldsAll, valid_append, valid_cons, ih]
      exact Iff.rfl

@[simp, grind =] lemma valid_selection_field (head : Field) (below : List Selection) :
    Valid (Selection.field head below) ↔ Valid head ∧ Valid below := by
  rw [← valid_fieldsAll, ← valid_cons]
  exact Iff.rfl

@[simp, grind =] lemma valid_selection_spread (name : String) (directives : List Directive) :
    Valid (Selection.spread name directives) ↔ True :=
  iff_true_intro (List.forall_mem_nil _)

@[simp, grind =] lemma valid_selection_inline (condition : Option String)
    (directives : List Directive) (below : List Selection) :
    Valid (Selection.inline condition directives below) ↔ Valid below := valid_fieldsAll below

@[simp, grind =] lemma valid_operation (kind : OperationKind) (name : Option String)
    (declared : List VariableDefinition) (directives : List Directive)
    (below : List Selection) :
    Valid (⟨kind, name, declared, directives, below⟩ : Operation) ↔
      Valid directives ∧ Valid below := Iff.rfl

@[simp, grind =] lemma valid_fragment (name condition : String) (directives : List Directive)
    (below : List Selection) :
    Valid (⟨name, condition, directives, below⟩ : Fragment) ↔
      Valid directives ∧ Valid below := Iff.rfl

@[simp, grind =] lemma valid_definition_operation (o : Operation) :
    Valid (Definition.operation o) ↔ Valid o := Iff.rfl

@[simp, grind =] lemma valid_definition_fragment (f : Fragment) :
    Valid (Definition.fragment f) ↔ Valid f := Iff.rfl

@[simp, grind =] lemma valid_definition_type (t : TypeDefinition) :
    Valid (Definition.type t) ↔ True :=
  iff_true_intro ⟨List.forall_mem_nil _, List.forall_mem_nil _⟩

@[simp, grind =] lemma valid_definition_directive (d : DirectiveDefinition) :
    Valid (Definition.directive d) ↔ True :=
  iff_true_intro ⟨List.forall_mem_nil _, List.forall_mem_nil _⟩

@[simp, grind =] lemma valid_definition_schema (s : SchemaDefinition) :
    Valid (Definition.schema s) ↔ True :=
  iff_true_intro ⟨List.forall_mem_nil _, List.forall_mem_nil _⟩

end Valid

/-! ### Readers -/

namespace Read

/-- A state in which all names are valid. -/
def State.Valid (ts : List Token) : Prop := ∀ t ∈ ts, t.HasName

variable {α β : Type} [Named α] [Named β]

/-- A reader of tokens with valid names that gives values with valid
names. -/
abbrev Reads (p : Read α) : Prop :=
  ⦃fun ts => ⌜State.Valid ts⌝⦄ p ⦃⇓? a ts => ⌜State.Valid ts ∧ Valid a⌝⦄

@[spec] lemma none_of_fail {α : Type} :
    ⦃fun _ => ⌜True⌝⦄ (fail : Read α) ⦃⇓? _ _ => ⌜False⌝⦄ := by
  intro ts _
  trivial

lemma reads_fail : Reads (fail : Read α) := by
  mvcgen with grind

@[grind ←] lemma valid_head? {ts : List Token} (h : State.Valid ts) :
    Valid (ts.head?.map (·.kind)) := by
  intro kind hkind
  obtain ⟨t, ht, rfl⟩ := Option.map_eq_some_iff.mp hkind
  exact h t (List.mem_of_head? ht)

@[grind ←] lemma State.Valid.drop {ts : List Token} (h : State.Valid ts) (count : ℕ) :
    State.Valid (ts.drop count) :=
  fun t ht => h t (List.mem_of_mem_drop ht)

@[spec] lemma reads_next? : Reads next? := by
  mvcgen [next?] with grind

@[spec] lemma reads_offset : Reads offset := by
  mvcgen [offset]

@[spec] lemma reads_advance : Reads advance := by
  mvcgen [advance] with grind

@[spec] lemma reads_atMark (m : Mark) : Reads (atMark m) := by
  mvcgen [atMark] with grind

@[spec] lemma reads_atName (text : String) : Reads (atName text) := by
  mvcgen [atName] with grind

@[spec] lemma reads_eat (m : Mark) : Reads (eat m) := by
  mvcgen [eat] with grind

@[spec] lemma reads_eatName (text : String) : Reads (eatName text) := by
  mvcgen [eatName] with grind

@[spec] lemma reads_expect (m : Mark) : Reads (expect m) := by
  mvcgen [expect] with grind

@[spec] lemma reads_expectName (text : String) : Reads (expectName text) := by
  mvcgen [expectName] with grind

@[spec] lemma reads_name : Reads name := by
  mvcgen [name] with grind

@[spec] lemma reads_bound : Reads bound := by
  mvcgen [bound]

section Items

variable {item : Read α} (hitem : Reads item)

include hitem

@[spec] lemma reads_itemsUntil (close : Mark) (count : ℕ) :
    Reads (itemsUntil close item count) := by
  induction count with
  | zero => exact reads_fail
  | succ count ih => mvcgen [itemsUntil, hitem, ih] with grind

@[spec] lemma reads_many (close : Mark) : Reads (many close item) := by
  mvcgen [many, hitem] with grind

@[spec] lemma reads_oneOrMore (close : Mark) : Reads (oneOrMore close item) := by
  mvcgen [oneOrMore, hitem] with grind

@[spec] lemma reads_afterEach (separator : Mark) (count : ℕ) :
    Reads (afterEach separator item count) := by
  induction count with
  | zero => exact reads_fail
  | succ count ih => mvcgen [afterEach, hitem, ih] with grind

@[spec] lemma reads_separated (separator : Mark) : Reads (separated separator item) := by
  mvcgen [separated, hitem] with grind

end Items

end Read

open Read

/-! ### Values and types -/

@[spec] lemma reads_objectField {value : Read Value} (h : Reads value) :
    Reads (objectField value) := by
  mvcgen [objectField, h] with grind

@[spec] lemma reads_value (constant : Bool) (depth : ℕ) : Reads (value constant depth) := by
  induction depth with
  | zero => exact reads_fail
  | succ depth ih => mvcgen [value, ih] with grind

@[spec] lemma reads_anyValue (constant : Bool) : Reads (anyValue constant) := by
  mvcgen [anyValue] with grind

@[spec] lemma reads_typeReference (depth : ℕ) : Reads (typeReference depth) := by
  induction depth with
  | zero => exact reads_fail
  | succ depth ih => mvcgen [typeReference, ih] with grind

@[spec] lemma reads_anyType : Reads anyType := by
  mvcgen [anyType] with grind

@[spec] lemma reads_argument (constant : Bool) : Reads (argument constant) := by
  mvcgen [argument] with grind

@[spec] lemma reads_arguments (constant : Bool) : Reads (arguments constant) := by
  mvcgen [arguments] with grind

@[spec] lemma reads_directivesUpTo (constant : Bool) (count : ℕ) :
    Reads (directivesUpTo constant count) := by
  induction count with
  | zero => exact reads_fail
  | succ count ih => mvcgen [directivesUpTo, ih] with grind

@[spec] lemma reads_directives (constant : Bool) : Reads (directives constant) := by
  mvcgen [directives] with grind

@[spec] lemma reads_fallback : Reads fallback := by
  mvcgen [fallback] with grind

/-! ### Operations and fragments -/

@[spec] lemma reads_selection {set : Read (List Selection)} (h : Reads set) :
    Reads (selection set) := by
  mvcgen [selection, h] with grind

@[spec] lemma reads_selectionSet (depth : ℕ) : Reads (selectionSet depth) := by
  induction depth with
  | zero => exact reads_fail
  | succ depth ih => mvcgen [selectionSet, ih] with grind

@[spec] lemma reads_anySelectionSet : Reads anySelectionSet := by
  mvcgen [anySelectionSet] with grind

@[spec] lemma reads_variableDefinition : Reads variableDefinition := by
  mvcgen [variableDefinition] with grind

@[spec] lemma reads_operation (kind : OperationKind) : Reads (operation kind) := by
  mvcgen [operation] with grind

@[spec] lemma reads_fragment : Reads fragment := by
  mvcgen [fragment] with grind

/-! ### Definitions of types, directives and schemas -/

/-- A description is no name. -/
@[spec] lemma reads_description :
    ⦃fun ts => ⌜State.Valid ts⌝⦄ description ⦃⇓? _ ts => ⌜State.Valid ts⌝⦄ := by
  mvcgen [description] with grind

@[spec] lemma reads_inputValue : Reads inputValue := by
  mvcgen [inputValue] with grind

@[spec] lemma reads_argumentsDefinition : Reads argumentsDefinition := by
  mvcgen [argumentsDefinition] with grind

@[spec] lemma reads_fieldDefinition : Reads fieldDefinition := by
  mvcgen [fieldDefinition] with grind

@[spec] lemma reads_enumValue : Reads enumValue := by
  mvcgen [enumValue] with grind

@[spec] lemma reads_optionalBraces {α : Type} [Named α] {item : Read α} (h : Reads item) :
    Reads (optionalBraces item) := by
  mvcgen [optionalBraces, h] with grind

@[spec] lemma reads_interfaces : Reads interfaces := by
  mvcgen [interfaces] with grind

@[spec] lemma reads_rootOperation : Reads rootOperation := by
  mvcgen [rootOperation] with grind

@[spec] lemma reads_directiveLocation : Reads directiveLocation := by
  mvcgen [directiveLocation] with grind

@[spec] lemma reads_directiveDefinition (text : Option String) :
    Reads (directiveDefinition text) := by
  mvcgen [directiveDefinition] with grind

@[spec] lemma reads_schemaDefinition (extending : Bool) (text : Option String) :
    Reads (schemaDefinition extending text) := by
  mvcgen [schemaDefinition] with grind

@[spec] lemma reads_typeBody (keyword : String) (implemented : List String) :
    Reads (typeBody keyword implemented) := by
  mvcgen [typeBody] with grind

@[spec] lemma reads_typeDefinition (extending : Bool) (text : Option String) :
    Reads (typeDefinition extending text) := by
  mvcgen [typeDefinition] with grind

@[spec] lemma reads_systemDefinition (text : Option String) : Reads (systemDefinition text) := by
  mvcgen [systemDefinition] with grind

/-! ### Documents -/

@[spec] lemma reads_definition : Reads definition := by
  mvcgen [definition] with grind

@[spec] lemma reads_definitionsUpTo (count : ℕ) : Reads (definitionsUpTo count) := by
  induction count with
  | zero => exact reads_fail
  | succ count ih => mvcgen [definitionsUpTo, ih] with grind

lemma apply_wp {α : Type} (p : Read α)
    (Q : PostCond α (.arg (List Token) (.except PUnit .pure))) (ts : List Token) :
    (wp p).apply Q ts = match p ts with
      | some (a, later) => Q.1 a later
      | none => Q.2.1 ⟨⟩ := by
  change (wp (p ts)).apply _ = _
  cases p ts <;> rfl

/-- What a reader gives for tokens with valid names has valid names. -/
lemma valid_of_reads {α : Type} [Named α] {p : Read α} (hp : Reads p) {ts later : List Token}
    (hts : State.Valid ts) {a : α} (hrun : p ts = some (a, later)) : Valid a := by
  have hpost := hp ts hts
  rw [apply_wp, hrun] at hpost
  exact hpost.2

/-- **In every document that is read, the names are valid of all fields and
of all arguments that a renamer comes to.** -/
theorem valid_of_parse? {text : List Char} {document : Document}
    (h : parse? text = some document) : Valid document.definitions := by
  obtain ⟨found, hfound, h⟩ := Option.bind_eq_some_iff.mp h
  obtain ⟨⟨definitions, later⟩, hrun, h⟩ := Option.bind_eq_some_iff.mp h
  have hvalid : Valid definitions :=
    valid_of_reads (reads_definitionsUpTo _) (hasName_of_tokensFrom? hfound) hrun
  rw [Option.ite_none_left_eq_some] at h
  exact Option.some.inj h.2 ▸ hvalid

end GraphMigrate.Document
