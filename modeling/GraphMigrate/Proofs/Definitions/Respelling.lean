/-
Scripts that are written in another way.

A property may be written out or in short, and an expression may stand in parentheses
or in a cast.  Of two trees the second is the first in another spelling if they are the
same but for such changes.  Places are free, since every change moves what is behind
it; keys are read alike, and so is all text that is quoted and holds no change.

* `Change`: what may be written in another way;
* `Spelling`: two sources, and the changes between them;
* `Respelled`, `RespelledBelow`: a node in another spelling;
* `RespelledBelow.children`: what is below it is in another spelling;
* `Respelled.unwrap`: so is the expression in it;
* `Respelled.size_le`: a change adds nodes.
-/
import GraphMigrate.Definitions.Locate
import GraphMigrate.Proofs.Definitions.Sites
import Mathlib.Data.List.Forall2

namespace GraphMigrate

open Script (Node Source)
open Locator (Setting isSite)

/-- What may be written in another way. -/
inductive Change where
  /-- The property `name` as `name: name`. -/
  | longhand
  /-- An expression in a wrapper that does not change its value. -/
  | wrapper
  deriving DecidableEq, Repr

namespace Script.Node

/-- Nodes that are written where a value is: only these are wrapped. -/
def isExpression : Node → Bool
  | name _ _ | wrapped _ _ _ _ | member _ _ _ _ | object _ _ | arrow _ _ _ _ => true
  | function _ _ _ _ | call _ _ _ _ | construct _ _ _ _ | tagged _ _ _ _ _ | other _ _ => true
  | _ => false

/-- The number of nodes in a tree. -/
def size (n : Node) : ℕ := n.preorder.length

end Script.Node

/-- Two sources, the names that mark definitions in both, and the changes that lead from the
first source to the second. -/
structure Spelling where
  before : Source
  after : Source
  vocabulary : Vocabulary
  allowed : Change → Prop

namespace Spelling

/-- What a search of the first source works with. -/
def first (sp : Spelling) : Setting := ⟨sp.before, sp.vocabulary⟩

/-- What a search of the second source works with. -/
def second (sp : Spelling) : Setting := ⟨sp.after, sp.vocabulary⟩

/-- What is quoted are nodes of the two scripts.  If nothing in them is changed, the same text
is quoted. -/
def QuotesAlike (sp : Spelling) (n n' : Node) : Prop :=
  n ∈ sp.before.script.preorder ∧ n' ∈ sp.after.script.preorder ∧
    (n.size = n'.size → sp.before.quote n.span = sp.after.quote n'.span)

end Spelling

mutual

/-- A node in another spelling: it may be wrapped, and what is in it may be changed. -/
inductive Respelled (sp : Spelling) : Node → Node → Prop
  | plain {n n' : Node} (h : RespelledBelow sp n n') : Respelled sp n n'
  /-- The types that belong to the wrapper define nothing. -/
  | wrapped {n n' : Node} {types : List Node} (hallowed : sp.allowed .wrapper)
      (hn : n.isExpression = true)
      (htypes : ∀ m ∈ types.flatMap Node.preorder, isSite sp.vocabulary m = false)
      (wrapper : Script.Wrapper) (s : Span) (h : Respelled sp n n') :
      Respelled sp n (.wrapped wrapper n' types s)

/-- A node with nothing around it in which something may be changed. -/
inductive RespelledBelow (sp : Spelling) : Node → Node → Prop
  | longhand (hallowed : sp.allowed .longhand) (text : String) (s ks vs : Span) :
      RespelledBelow sp (.shorthand text s) (.keyed ⟨.name text, ks⟩ [] (.name text vs))
  | name (text : String) (s s' : Span) : RespelledBelow sp (.name text s) (.name text s')
  | keyword (word : String) (s s' : Span) :
      RespelledBelow sp (.keyword word s) (.keyword word s')
  | wrapped {inner inner' : Node} {types types' : List Node} (wrapper : Script.Wrapper)
      (s s' : Span) (hinner : Respelled sp inner inner')
      (htypes : List.Forall₂ (Respelled sp) types types') :
      RespelledBelow sp (.wrapped wrapper inner types s) (.wrapped wrapper inner' types' s')
  | member {owner owner' : Node} {index index' : List Node} (field : Option String)
      (s s' : Span) (howner : Respelled sp owner owner')
      (hindex : List.Forall₂ (Respelled sp) index index') :
      RespelledBelow sp (.member owner field index s) (.member owner' field index' s')
  | object {properties properties' : List Node} (s s' : Span)
      (hproperties : List.Forall₂ (Respelled sp) properties properties') :
      RespelledBelow sp (.object properties s) (.object properties' s')
  | arrow {parameters parameters' types types' : List Node} {body body' : Node} (s s' : Span)
      (hparameters : List.Forall₂ (Respelled sp) parameters parameters')
      (hbody : Respelled sp body body') (htypes : List.Forall₂ (Respelled sp) types types') :
      RespelledBelow sp (.arrow parameters body types s) (.arrow parameters' body' types' s')
  | function {parameters parameters' types types' : List Node} {body body' : Option Node}
      (s s' : Span) (hparameters : List.Forall₂ (Respelled sp) parameters parameters')
      (hbody : Option.Rel (Respelled sp) body body')
      (htypes : List.Forall₂ (Respelled sp) types types') :
      RespelledBelow sp (.function parameters body types s)
        (.function parameters' body' types' s')
  | call {callee callee' : Node} {arguments arguments' types types' : List Node} (s s' : Span)
      (hcallee : Respelled sp callee callee') (hquote : sp.QuotesAlike callee callee')
      (harguments : List.Forall₂ (Respelled sp) arguments arguments')
      (htypes : List.Forall₂ (Respelled sp) types types') :
      RespelledBelow sp (.call callee arguments types s) (.call callee' arguments' types' s')
  | construct {callee callee' : Node} {arguments arguments' types types' : List Node}
      (s s' : Span) (hcallee : Respelled sp callee callee')
      (harguments : List.Forall₂ (Respelled sp) arguments arguments')
      (htypes : List.Forall₂ (Respelled sp) types types') :
      RespelledBelow sp (.construct callee arguments types s)
        (.construct callee' arguments' types' s')
  | tagged {tag tag' : Node} {types types' parts parts' : List Node}
      (segment segment' s s' : Span) (htag : Respelled sp tag tag')
      (htypes : List.Forall₂ (Respelled sp) types types')
      (hparts : List.Forall₂ (Respelled sp) parts parts') :
      RespelledBelow sp (.tagged tag types segment parts s)
        (.tagged tag' types' segment' parts' s')
  | spread {value value' : Node} (dots dots' : ℕ) (hvalue : Respelled sp value value')
      (hquote : sp.QuotesAlike value value') :
      RespelledBelow sp (.spread dots value) (.spread dots' value')
  | keyed {key key' : Script.Key} {index index' : List Node} {value value' : Node}
      (hkey : sp.before.keyName? key = sp.after.keyName? key')
      (hindex : List.Forall₂ (Respelled sp) index index') (hvalue : Respelled sp value value') :
      RespelledBelow sp (.keyed key index value) (.keyed key' index' value')
  | shorthand (text : String) (s s' : Span) :
      RespelledBelow sp (.shorthand text s) (.shorthand text s')
  | method {key key' : Script.Key}
      {index index' parameters parameters' types types' : List Node} {body body' : Option Node}
      (s s' : Span) (hkey : sp.before.keyName? key = sp.after.keyName? key')
      (hindex : List.Forall₂ (Respelled sp) index index')
      (hparameters : List.Forall₂ (Respelled sp) parameters parameters')
      (hbody : Option.Rel (Respelled sp) body body')
      (htypes : List.Forall₂ (Respelled sp) types types') :
      RespelledBelow sp (.method key index parameters body types s)
        (.method key' index' parameters' body' types' s')
  | accessor {key key' : Script.Key} {index index' inside inside' : List Node}
      (kind : Script.Accessor) (s s' : Span)
      (hkey : sp.before.keyName? key = sp.after.keyName? key')
      (hindex : List.Forall₂ (Respelled sp) index index')
      (hinside : List.Forall₂ (Respelled sp) inside inside') :
      RespelledBelow sp (.accessor kind key index inside s)
        (.accessor kind key' index' inside' s')
  | assigned {value value' : Node} (text : String) (s s' : Span)
      (hvalue : Respelled sp value value') :
      RespelledBelow sp (.assigned text s value) (.assigned text s' value')
  | binding {typing typing' : Option Node} (text : String) (s s' : Span)
      (htyping : Option.Rel (Respelled sp) typing typing') :
      RespelledBelow sp (.binding text s typing) (.binding text s' typing')
  | objectPattern {properties properties' types types' : List Node} (s s' : Span)
      (hproperties : List.Forall₂ (Respelled sp) properties properties')
      (htypes : List.Forall₂ (Respelled sp) types types') :
      RespelledBelow sp (.objectPattern properties types s) (.objectPattern properties' types' s')
  | patternKeyed {key key' : Script.Key} {index index' : List Node} {value value' : Node}
      (hkey : sp.before.keyName? key = sp.after.keyName? key')
      (hindex : List.Forall₂ (Respelled sp) index index') (hvalue : Respelled sp value value') :
      RespelledBelow sp (.patternKeyed key index value) (.patternKeyed key' index' value')
  | patternName {value value' : Option Node} (text : String) (s s' : Span)
      (hvalue : Option.Rel (Respelled sp) value value') :
      RespelledBelow sp (.patternName text s value) (.patternName text s' value')
  | patternRest {inside inside' : List Node} (s s' : Span)
      (hinside : List.Forall₂ (Respelled sp) inside inside') :
      RespelledBelow sp (.patternRest inside s) (.patternRest inside' s')
  | pattern {inside inside' : List Node} (kind : Script.PatternKind) (s s' : Span)
      (hinside : List.Forall₂ (Respelled sp) inside inside') :
      RespelledBelow sp (.pattern kind inside s) (.pattern kind inside' s')
  | decorated {decorators decorators' : List Node} {inner inner' : Node}
      (hdecorators : List.Forall₂ (Respelled sp) decorators decorators')
      (hinner : Respelled sp inner inner') :
      RespelledBelow sp (.decorated decorators inner) (.decorated decorators' inner')
  | type {inside inside' : List Node} (name : Option Script.TypeName) (s s' : Span)
      (hinside : List.Forall₂ (Respelled sp) inside inside') :
      RespelledBelow sp (.type name inside s) (.type name inside' s')
  | block {statements statements' : List Node} (s s' : Span)
      (hstatements : List.Forall₂ (Respelled sp) statements statements') :
      RespelledBelow sp (.block statements s) (.block statements' s')
  | ret {value value' : Option Node} (s s' : Span)
      (hvalue : Option.Rel (Respelled sp) value value') :
      RespelledBelow sp (.ret value s) (.ret value' s')
  | declarator {target target' : Node} {value value' : Option Node} (s s' : Span)
      (htarget : Respelled sp target target') (hvalue : Option.Rel (Respelled sp) value value') :
      RespelledBelow sp (.declarator target value s) (.declarator target' value' s')
  | imports (names : List String) (s s' : Span) :
      RespelledBelow sp (.imports names s) (.imports names s')
  | other {inside inside' : List Node} (s s' : Span)
      (hinside : List.Forall₂ (Respelled sp) inside inside') :
      RespelledBelow sp (.other inside s) (.other inside' s')

end

variable {sp : Spelling} {n n' : Node}

/-! ### What is below -/

lemma forall₂_toList {α : Type} {R : α → α → Prop} {a b : Option α} (h : Option.Rel R a b) :
    List.Forall₂ R a.toList b.toList := by
  cases h with
  | some h => exact .cons h .nil
  | none => exact .nil

/-- What is below a node in another spelling is in that spelling as well, unless a property
in short was written out. -/
lemma RespelledBelow.children (h : RespelledBelow sp n n') :
    List.Forall₂ (Respelled sp) n.children n'.children ∨
      sp.allowed .longhand ∧ ∃ text s ks vs, n = .shorthand text s ∧
        n' = .keyed ⟨.name text, ks⟩ [] (.name text vs) := by
  cases h with
  | longhand hallowed text s ks vs => exact .inr ⟨hallowed, text, s, ks, vs, rfl, rfl⟩
  | name | keyword | shorthand | imports => exact .inl .nil
  | wrapped _ _ _ hinner htypes => exact .inl (.cons hinner htypes)
  | member _ _ _ howner hindex => exact .inl (.cons howner hindex)
  | object _ _ hproperties => exact .inl hproperties
  | arrow _ _ hparameters hbody htypes =>
      exact .inl (List.rel_append hparameters (.cons hbody htypes))
  | function _ _ hparameters hbody htypes =>
      exact .inl (List.rel_append (List.rel_append hparameters (forall₂_toList hbody)) htypes)
  | call _ _ hcallee _ harguments htypes =>
      exact .inl (.cons hcallee (List.rel_append harguments htypes))
  | construct _ _ hcallee harguments htypes =>
      exact .inl (.cons hcallee (List.rel_append harguments htypes))
  | tagged _ _ _ _ htag htypes hparts => exact .inl (.cons htag (List.rel_append htypes hparts))
  | spread _ _ hvalue => exact .inl (.cons hvalue .nil)
  | keyed _ hindex hvalue => exact .inl (List.rel_append hindex (.cons hvalue .nil))
  | method _ _ _ hindex hparameters hbody htypes =>
      exact .inl (List.rel_append (List.rel_append (List.rel_append hindex hparameters)
        (forall₂_toList hbody)) htypes)
  | accessor _ _ _ _ hindex hinside => exact .inl (List.rel_append hindex hinside)
  | assigned _ _ _ hvalue => exact .inl (.cons hvalue .nil)
  | binding _ _ _ htyping => exact .inl (forall₂_toList htyping)
  | objectPattern _ _ hproperties htypes => exact .inl (List.rel_append hproperties htypes)
  | patternKeyed _ hindex hvalue => exact .inl (List.rel_append hindex (.cons hvalue .nil))
  | patternName _ _ _ hvalue => exact .inl (forall₂_toList hvalue)
  | patternRest _ _ hinside => exact .inl hinside
  | pattern _ _ _ hinside => exact .inl hinside
  | decorated hdecorators hinner => exact .inl (List.rel_append hdecorators (.cons hinner .nil))
  | type _ _ _ hinside => exact .inl hinside
  | block _ _ hstatements => exact .inl hstatements
  | ret _ _ hvalue => exact .inl (forall₂_toList hvalue)
  | declarator _ _ htarget hvalue => exact .inl (.cons htarget (forall₂_toList hvalue))
  | other _ _ hinside => exact .inl hinside

/-! ### Expressions -/

/-- What is wrapped in another spelling of a node is another spelling of it. -/
lemma Respelled.exists_below (h : Respelled sp n n') :
    ∃ n'', RespelledBelow sp n n'' ∧ n''.unwrap = n'.unwrap := by
  fun_induction Node.unwrap n' with
  | case1 wrapper inner types s ih =>
      cases h with
      | plain h => exact ⟨_, h, rfl⟩
      | wrapped _ _ _ _ _ h => exact ih h
  | case2 n' hplain =>
      cases h with
      | plain h =>
          refine ⟨n', h, ?_⟩
          rw [Node.unwrap]
          exact hplain
      | wrapped => exact absurd rfl (hplain _ _ _ _)

/-- What is no wrapper is none in another spelling. -/
lemma RespelledBelow.unwrap_eq (h : RespelledBelow sp n n')
    (hplain : ∀ wrapper inner types s, n ≠ .wrapped wrapper inner types s) : n'.unwrap = n' := by
  cases h with
  | wrapped => exact absurd rfl (hplain _ _ _ _)
  | _ => rfl

/-- The expression in a node in another spelling is another spelling of the one in it. -/
lemma Respelled.unwrap (h : Respelled sp n n') : RespelledBelow sp n.unwrap n'.unwrap := by
  obtain ⟨n'', hbelow, hunwrap⟩ := h.exists_below
  rw [← hunwrap]
  clear h hunwrap
  fun_induction Node.unwrap n generalizing n'' with
  | case1 wrapper inner types s ih =>
      cases hbelow with
      | wrapped _ _ _ hinner _ =>
          obtain ⟨inner', hbelow, hunwrap⟩ := hinner.exists_below
          rw [Node.unwrap_wrapped, ← hunwrap]
          exact ih inner' hbelow
  | case2 n hplain =>
      rw [hbelow.unwrap_eq hplain]
      exact hbelow

/-! ### Size -/

lemma Script.Node.size_eq (n : Node) : n.size = (n.children.map Node.size).sum + 1 := by
  rw [Node.size, Node.preorder_eq, List.length_cons, List.length_flatMap]
  rfl

lemma sum_le_of_forall₂ {ns ns' : List Node} (hns : List.Forall₂ (Respelled sp) ns ns')
    (h : ∀ n ∈ ns, ∀ {n'}, Respelled sp n n' → n.size ≤ n'.size) :
    (ns.map Node.size).sum ≤ (ns'.map Node.size).sum := by
  induction hns with
  | nil => exact le_rfl
  | cons hn _ ih =>
      rw [List.forall_mem_cons] at h
      exact Nat.add_le_add (h.1 hn) (ih h.2)

lemma RespelledBelow.size_le_of (h : RespelledBelow sp n n')
    (ih : ∀ c ∈ n.children, ∀ {c'}, Respelled sp c c' → c.size ≤ c'.size) :
    n.size ≤ n'.size := by
  obtain hchildren | ⟨_, text, s, ks, vs, rfl, rfl⟩ := h.children
  · rw [Node.size_eq, Node.size_eq]
    exact Nat.add_le_add_right (sum_le_of_forall₂ hchildren ih) 1
  · rw [Node.size_eq, Node.size_eq (.keyed _ _ _)]
    exact Nat.succ_le_succ (Nat.zero_le _)

/-- A change adds nodes. -/
lemma Respelled.size_le (h : Respelled sp n n') : n.size ≤ n'.size := by
  induction n using Node.induction_children generalizing n' with
  | h n ih =>
      -- the wrappers around the node, then the node itself
      fun_induction Node.unwrap n' with
      | case1 wrapper inner types s ihInner =>
          cases h with
          | plain h => exact h.size_le_of ih
          | wrapped _ _ _ _ _ h =>
              have hinner := ihInner h
              rw [Node.size_eq (.wrapped wrapper inner types s), Node.children, List.map_cons,
                List.sum_cons]
              omega
      | case2 n' hplain =>
          cases h with
          | plain h => exact h.size_le_of ih
          | wrapped => exact absurd rfl (hplain _ _ _ _)

end GraphMigrate
