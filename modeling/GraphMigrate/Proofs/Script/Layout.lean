/-
How a script is laid out.

A node that is read off a text stands around the nodes below it, these do not
overlap, and the words and signs that are no nodes of their own stand where the
grammar has them.  Nothing here looks at a text: a layout is a property of the
spans in a tree.

* `Node.extent`: the bytes of a node with all that belongs to it;
* `Node.IsLaidOut`, `Module.IsLaidOut`: one node, and all of a script;
* `Node.extent_within_of_mem_preorder`: a node stands around all nodes below it;
* `Module.IsLaidOut.pairwise_preorder`: **two nodes of a script stand apart, or the later one is
  below the earlier one**.
-/
import GraphMigrate.Proofs.Text.Nesting
import GraphMigrate.Proofs.Text.Recorded
import GraphMigrate.Script.Grammar

namespace GraphMigrate

/-! ### Spans -/

/-- A span within another that is not all of it. -/
def Span.StrictlyWithin (s t : Span) : Prop := s.Within t ∧ s ≠ t

lemma Span.Within.strictly {s t : Span} (h : s.Within t)
    (hlt : t.start < s.start ∨ s.stop < t.stop) : s.StrictlyWithin t := by
  refine ⟨h, ?_⟩
  rintro rfl
  omega

lemma Span.StrictlyWithin.trans {s t u : Span} (hst : s.StrictlyWithin t) (htu : t.Within u) :
    s.StrictlyWithin u := by
  refine ⟨hst.1.trans htu, ?_⟩
  rintro rfl
  have hstart := le_antisymm htu.1 hst.1.1
  have hstop := le_antisymm hst.1.2 htu.2
  cases s
  cases t
  exact hst.2 (congrArg₂ Span.mk hstart hstop)

lemma Span.Within.trans_strictlyWithin {s t u : Span} (hst : s.Within t)
    (htu : t.StrictlyWithin u) : s.StrictlyWithin u := by
  refine ⟨hst.trans htu.1, ?_⟩
  rintro rfl
  have hstart := le_antisymm hst.1 htu.1.1
  have hstop := le_antisymm htu.1.2 hst.2
  cases s
  cases t
  exact htu.2 (congrArg₂ Span.mk hstart hstop)

/-- Parts of spans that stand apart stand apart. -/
lemma Span.Apart.mono {s t s' t' : Span} (h : s.Apart t) (hs : s'.Within s) (ht : t'.Within t) :
    s'.Apart t' :=
  h.imp (fun h => hs.2.trans (h.trans ht.1)) fun h => ht.2.trans (h.trans hs.1)

/-- Two spans stand apart, or one within the other. -/
def Span.Nested (s t : Span) : Prop := s.Apart t ∨ s.Within t ∨ t.Within s

lemma Span.Nested.symm {s t : Span} (h : s.Nested t) : t.Nested s :=
  h.imp Or.symm Or.symm

/-- What takes up bytes does not stand apart from itself. -/
lemma Span.Apart.ne {s t : Span} (h : s.Apart t) (hs : s.start < s.stop) : s ≠ t := by
  rintro rfl
  rcases h with h | h <;> omega

namespace Script

/-! ### Layouts -/

namespace Node

/-- The bytes of a node with all that belongs to it: a name reaches to the end of
its type annotation, and a parameter starts at its first decorator. -/
def extent : Node → Span
  | binding _ s (some typing) => ⟨s.start, typing.span.stop⟩
  | decorated decorators inner =>
    ⟨(decorators.head?.map fun d => d.span.start).getD inner.extent.start, inner.extent.stop⟩
  | n => n.span

/-- Whether an object literal may have a property of this form. -/
def isProperty : Node → Bool
  | spread _ _ | keyed _ _ _ | shorthand _ _ | method _ _ _ _ _ _ | accessor _ _ _ _ _
  | assigned _ _ _ => true
  | _ => false

/-- Nodes come one after the other. -/
def InOrder (ns : List Node) : Prop := ns.Pairwise fun m n => m.extent.stop ≤ n.extent.start

end Node

/-- A key is written with something, and its index, if it is computed, stands in
it. -/
structure Key.IsLaidOut (key : Key) (index : List Node) : Prop where
  nonempty : key.span.start < key.span.stop
  within : ∀ i ∈ index, i.extent.Within key.span

namespace Node

/-- The words and signs of a node that are no nodes stand where the grammar has
them: keys, names and dots come before values, parameters and bodies, a tag comes
before the first segment of its template and that before what is interpolated, each
with a mark behind it.
An object literal holds properties, one after the other. -/
def HasTokensInOrder : Node → Prop
  | object properties _ => InOrder properties ∧ ∀ p ∈ properties, p.isProperty
  | spread dots value => dots < value.extent.start
  | keyed key index value => key.IsLaidOut index ∧ key.span.stop ≤ value.extent.start
  | method key index parameters body types s =>
    key.IsLaidOut index ∧ s.start ≤ key.span.start ∧ key.span.stop < s.stop ∧
      ∀ n ∈ parameters ++ body.toList ++ types, key.span.stop ≤ n.extent.start
  | accessor _ key index inside s =>
    key.IsLaidOut index ∧ s.start ≤ key.span.start ∧ key.span.stop < s.stop ∧
      ∀ n ∈ inside, key.span.stop ≤ n.extent.start
  | assigned _ s value => s.start < s.stop ∧ s.stop ≤ value.extent.start
  | binding _ s (some typing) => s.stop ≤ typing.extent.start
  | tagged tag types segment parts s =>
    s.start = tag.extent.start ∧ tag.extent.stop < segment.start ∧
      segment.start ≤ segment.stop ∧ segment.stop < s.stop ∧
      (∀ t ∈ types, t.extent.stop < segment.start) ∧
      ∀ p ∈ parts, segment.stop < p.extent.start
  | _ => True

/-- A node takes up bytes and stands around the nodes directly below it, which do
not overlap. -/
structure IsLaidOut (n : Node) : Prop where
  nonempty : n.extent.start < n.extent.stop
  within : ∀ c ∈ n.children, c.extent.Within n.extent
  apart : n.children.Pairwise fun c d => c.extent.Apart d.extent
  tokens : n.HasTokensInOrder

end Node

/-- All nodes of a script are laid out, and its items do not overlap. -/
structure Module.IsLaidOut (script : Module) : Prop where
  items : script.items.Pairwise fun m n => m.extent.Apart n.extent
  nodes : ∀ n ∈ script.preorder, n.IsLaidOut

/-! A layout can be checked. -/

section Decidable

instance (ns : List Node) : Decidable (Node.InOrder ns) :=
  inferInstanceAs (Decidable (ns.Pairwise _))

instance (key : Key) (index : List Node) : Decidable (key.IsLaidOut index) :=
  decidable_of_iff (key.span.start < key.span.stop ∧ ∀ i ∈ index, i.extent.Within key.span)
    ⟨fun h => ⟨h.1, h.2⟩, fun h => ⟨h.nonempty, h.within⟩⟩

open Node in
instance : (n : Node) → Decidable n.HasTokensInOrder
  | object _ _ | keyed _ _ _ | method _ _ _ _ _ _ | accessor _ _ _ _ _ | assigned _ _ _
  | tagged _ _ _ _ _ => inferInstanceAs (Decidable (_ ∧ _))
  | spread _ _ => Nat.decLt _ _
  | binding _ _ (some _) => Nat.decLe _ _
  | name _ _ | keyword _ _ | wrapped _ _ _ _ | member _ _ _ _ | arrow _ _ _ _
  | function _ _ _ _ | call _ _ _ _ | construct _ _ _ _ | shorthand _ _ | binding _ _ none
  | objectPattern _ _ _ | patternKeyed _ _ _ | patternName _ _ _ | patternRest _ _
  | pattern _ _ _ | decorated _ _ | type _ _ _ | block _ _ | ret _ _ | declarator _ _ _
  | imports _ _ | other _ _ => isTrue trivial

instance (n : Node) : Decidable n.IsLaidOut :=
  decidable_of_iff (n.extent.start < n.extent.stop ∧ (∀ c ∈ n.children, c.extent.Within n.extent) ∧
      (n.children.Pairwise fun c d => c.extent.Apart d.extent) ∧ n.HasTokensInOrder)
    ⟨fun h => ⟨h.1, h.2.1, h.2.2.1, h.2.2.2⟩, fun h => ⟨h.nonempty, h.within, h.apart, h.tokens⟩⟩

instance (script : Module) : Decidable script.IsLaidOut :=
  decidable_of_iff ((script.items.Pairwise fun m n => m.extent.Apart n.extent) ∧
      ∀ n ∈ script.preorder, n.IsLaidOut)
    ⟨fun h => ⟨h.1, h.2⟩, fun h => ⟨h.items, h.nodes⟩⟩

end Decidable

namespace Node

/-! ### Nodes below a node -/

/-- What holds of all nodes below a node holds of those below a child. -/
lemma forall_mem_preorder_of_mem_children {P : Node → Prop} {n c : Node}
    (h : ∀ m ∈ n.preorder, P m) (hc : c ∈ n.children) : ∀ m ∈ c.preorder, P m :=
  fun m hm => h m (mem_preorder_iff.mpr (.inr ⟨c, hc, hm⟩))

/-- What is below a node that is below another is below that. -/
lemma mem_preorder_trans {k m n : Node} (hkm : k ∈ m.preorder) (hmn : m ∈ n.preorder) :
    k ∈ n.preorder := by
  induction n using induction_children with
  | h n ih =>
      rcases mem_preorder_iff.mp hmn with rfl | ⟨c, hc, hmc⟩
      · exact hkm
      · exact mem_preorder_iff.mpr (.inr ⟨c, hc, ih c hc hmc⟩)

variable {m n : Node}

/-- A node stands around all nodes below it. -/
theorem extent_within_of_mem_preorder (h : ∀ m ∈ n.preorder, m.IsLaidOut) (hm : m ∈ n.preorder) :
    m.extent.Within n.extent := by
  induction n using induction_children with
  | h n ih =>
      rcases mem_preorder_iff.mp hm with rfl | ⟨c, hc, hm⟩
      · exact .refl _
      · exact (ih c hc (forall_mem_preorder_of_mem_children h hc) hm).trans
          ((h n n.self_mem_preorder).within c hc)

/-- What belongs to a node stands around it. -/
lemma span_within_extent (h : ∀ m ∈ n.preorder, m.IsLaidOut) : n.span.Within n.extent := by
  induction n using induction_children with
  | h n ih =>
      have hn := h n n.self_mem_preorder
      cases n with
      | binding text s typing =>
          cases typing with
          | none => exact .refl _
          | some typing =>
              have hchild : typing ∈ (binding text s (some typing)).children :=
                List.mem_singleton_self typing
              have htyping := hn.within typing hchild
              have htokens : s.stop ≤ typing.extent.start := hn.tokens
              have hnonempty := (h typing (mem_preorder_of_mem_children hchild)).nonempty
              exact ⟨le_rfl, htokens.trans (hnonempty.le.trans htyping.2)⟩
      | decorated decorators inner =>
          have hinner : inner ∈ (decorated decorators inner).children :=
            List.mem_append_right _ (List.mem_singleton_self inner)
          exact (ih inner hinner (forall_mem_preorder_of_mem_children h hinner)).trans
            (hn.within inner hinner)
      | _ => exact .refl _

/-- Nodes below nodes that do not overlap stand apart. -/
lemma apart_of_mem_preorder {a b : Node} (hab : a.extent.Apart b.extent)
    (ha : ∀ m ∈ a.preorder, m.IsLaidOut) (hb : ∀ m ∈ b.preorder, m.IsLaidOut)
    (hm : m ∈ a.preorder) (hn : n ∈ b.preorder) : m.extent.Apart n.extent :=
  hab.mono (extent_within_of_mem_preorder ha hm) (extent_within_of_mem_preorder hb hn)

/-- A node stands apart from another, or that is below it. -/
def ApartOrAbove (m n : Node) : Prop :=
  m.extent.Apart n.extent ∨ ∃ c ∈ m.children, n ∈ c.preorder

/-- The nodes of a row that does not overlap stand apart, or each later one is
below the earlier one. -/
lemma pairwise_flatMap_preorder {ns : List Node}
    (hns : ns.Pairwise fun m n => m.extent.Apart n.extent)
    (h : ∀ n ∈ ns, ∀ m ∈ n.preorder, m.IsLaidOut)
    (hrows : ∀ n ∈ ns, n.preorder.Pairwise ApartOrAbove) :
    (ns.flatMap preorder).Pairwise ApartOrAbove := by
  refine List.pairwise_flatMap.mpr ⟨hrows, hns.imp_of_mem fun {a b} ha hb hab m hm n hn => ?_⟩
  exact .inl (apart_of_mem_preorder hab (h a ha) (h b hb) hm hn)

lemma pairwise_preorder_of_isLaidOut (h : ∀ m ∈ n.preorder, m.IsLaidOut) :
    n.preorder.Pairwise ApartOrAbove := by
  induction n using induction_children with
  | h n ih =>
      have hchildren := fun c hc => forall_mem_preorder_of_mem_children (c := c) h hc
      rw [preorder_eq, List.pairwise_cons]
      refine ⟨fun m hm => .inr (List.mem_flatMap.mp hm), ?_⟩
      exact pairwise_flatMap_preorder (h n n.self_mem_preorder).apart hchildren
        fun c hc => ih c hc (hchildren c hc)

end Node

/-- What is below a node of a script is a node of it. -/
lemma Module.mem_preorder_trans {script : Module} {m n : Node} (hm : m ∈ n.preorder)
    (hn : n ∈ script.preorder) : m ∈ script.preorder := by
  rw [Module.preorder, Node.preorderAll_eq_flatMap, List.mem_flatMap] at hn ⊢
  exact hn.imp fun _ hn => ⟨hn.1, Node.mem_preorder_trans hm hn.2⟩

namespace Module.IsLaidOut

variable {script : Module}

/-- All nodes below a node of a script are laid out. -/
lemma nodes_below (h : script.IsLaidOut) {n : Node} (hn : n ∈ script.preorder) :
    ∀ m ∈ n.preorder, m.IsLaidOut :=
  fun m hm => h.nodes m (Module.mem_preorder_trans hm hn)

/-- **Two nodes of a script stand apart, or the later one is below the earlier
one.** -/
theorem pairwise_preorder (h : script.IsLaidOut) :
    script.preorder.Pairwise Node.ApartOrAbove := by
  have hitems (n : Node) (hn : n ∈ script.items) : ∀ m ∈ n.preorder, m.IsLaidOut := by
    refine h.nodes_below ?_
    rw [Module.preorder, Node.preorderAll_eq_flatMap]
    exact List.mem_flatMap_of_mem hn n.self_mem_preorder
  rw [Module.preorder, Node.preorderAll_eq_flatMap]
  exact Node.pairwise_flatMap_preorder h.items hitems
    fun n hn => Node.pairwise_preorder_of_isLaidOut (hitems n hn)

end Module.IsLaidOut

end Script

end GraphMigrate
