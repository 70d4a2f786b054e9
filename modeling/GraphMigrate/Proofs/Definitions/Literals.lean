/-
The object literals that may be read as maps.

Definitions are read at their sites, and a site may stand inside what another
site reads.  Still no object literal is read as a map twice, since below a site
every literal has one role: what is read as a map holds configurations, what is
read as a configuration holds maps, and what stands between them, such as a call,
hands on its own role or is itself read in another.

* `Role`: the two roles;
* `Node.literals`: the literals that are read as maps when a node is read in a
  role, however the search decides;
* `Node.siteLiterals`: the literals that are read as maps at a definition site;
* `siteLiterals_subperm`: **all sites below a row of nodes together read each
  object literal there at most once**;
* `Node.Separate`, `Module.IsLaidOut.pairwise_separate`: object literals stand apart,
  or one in a property of the other;
* `Node.IsPart`, `Module.IsLaidOut.nestedParts`: literals and properties stand apart
  or in one another.
-/
import GraphMigrate.Definitions.Locate
import GraphMigrate.Proofs.Script.Layout
import Mathlib.Data.List.Perm.Subperm
import Mathlib.Tactic

namespace GraphMigrate.Script

/-- How an object literal is read: as a map of fields, or as a configuration. -/
inductive Role where
  | fields
  | config
  deriving DecidableEq

/-- How the values in an object literal are read. -/
def Role.inside : Role → Role
  | fields => config
  | config => fields

namespace Node

mutual

/-- The object literals that may be read as maps when a node is read in a role.
A map may be returned by a function or be the argument of a call; a
configuration is written out. -/
def literals : Role → Node → List Node
  | r, wrapped _ inner _ _ => literals r inner
  | r, spread _ value => literals r value
  | r, keyed _ _ value => literals r.inside value
  | .config, method _ _ _ body _ _ => literalsOpt .fields body
  | .fields, n@(object properties _) => n :: literalsAll .fields properties
  | .config, object properties _ => literalsAll .config properties
  | .fields, arrow _ body _ _ => literals .fields body
  | .fields, function _ body _ _ => literalsOpt .fields body
  | .fields, call _ arguments _ _ => literalsAll .fields arguments
  | .fields, block statements _ => literalsAll .fields statements
  | .fields, ret value _ => literalsOpt .fields value
  | _, _ => []

/-- Those of a list of nodes. -/
def literalsAll : Role → List Node → List Node
  | _, [] => []
  | r, n :: ns => literals r n ++ literalsAll r ns

/-- Those of an optional node. -/
def literalsOpt : Role → Option Node → List Node
  | _, none => []
  | r, some n => literals r n

end

lemma literalsAll_eq_flatMap (r : Role) (ns : List Node) :
    literalsAll r ns = ns.flatMap (literals r) := by
  induction ns with
  | nil => simp [literalsAll]
  | cons n ns ih => simp [literalsAll, ih]

lemma literalsOpt_eq_flatMap (r : Role) (n : Option Node) :
    literalsOpt r n = n.toList.flatMap (literals r) := by
  cases n <;> simp [literalsOpt]

/-- The object literals that may be read as maps at a definition site.  A call
takes a configuration; the type of a variable decides how its value is read. -/
def siteLiterals : Node → List Node
  | construct _ arguments _ _ | call _ arguments _ _ => arguments.flatMap (literals .config)
  | declarator _ value _ =>
    value.toList.flatMap (literals .fields) ++ value.toList.flatMap (literals .config)
  | _ => []

/-- Those of all sites from a node on down. -/
def sitesLiterals (n : Node) : List Node := n.preorder.flatMap siteLiterals

lemma sitesLiterals_eq (n : Node) :
    n.sitesLiterals = n.siteLiterals ++ n.children.flatMap sitesLiterals := by
  unfold sitesLiterals
  rw [preorder_eq, List.flatMap_cons, List.flatMap_assoc]

section Count

variable [DecidableEq Node]

/-- Both readings of a node, and all sites from it on down, read a literal at most
as often as it stands there. -/
def ReadsOnce (a n : Node) : Prop :=
  (n.literals .fields).count a + (n.literals .config).count a + n.sitesLiterals.count a ≤
    n.preorder.count a

/-- The same of the nodes in a row. -/
lemma readsOnce_flatMap {a : Node} {ns : List Node} (h : ∀ n ∈ ns, ReadsOnce a n) :
    (ns.flatMap (literals .fields)).count a + (ns.flatMap (literals .config)).count a +
      (ns.flatMap sitesLiterals).count a ≤ (ns.flatMap preorder).count a := by
  induction ns with
  | nil => exact le_rfl
  | cons n ns ih =>
      rw [List.forall_mem_cons] at h
      have hn : _ ≤ _ := h.1
      have hns := ih h.2
      simp only [List.flatMap_cons, List.count_append]
      omega

theorem readsOnce (a n : Node) : ReadsOnce a n := by
  induction n using induction_children with
  | h n ih =>
      have hbelow := readsOnce_flatMap ih
      unfold ReadsOnce
      rw [sitesLiterals_eq, preorder_eq]
      -- whatever one of the readings, or a site, reads inside a child, the others do not
      cases n with
      | _ =>
          simp only [children, literals, siteLiterals, literalsAll_eq_flatMap,
            literalsOpt_eq_flatMap, Role.inside, List.flatMap_append, List.flatMap_cons,
            List.flatMap_nil, List.count_append, List.count_cons, List.count_nil] at hbelow ⊢
          omega

end Count

/-- **The definition sites below a row of nodes read each object literal there at
most once.** -/
theorem siteLiterals_subperm (ns : List Node) :
    ((ns.flatMap preorder).flatMap siteLiterals).Subperm (ns.flatMap preorder) := by
  classical
  refine List.subperm_iff_count.mpr fun a => ?_
  have hcount := readsOnce_flatMap (a := a) fun n (_ : n ∈ ns) => readsOnce a n
  have hsites : (ns.flatMap preorder).flatMap siteLiterals = ns.flatMap sitesLiterals :=
    List.flatMap_assoc
  rw [hsites]
  omega

end Node

/-! ### Where object literals stand -/

namespace Node

/-- An object literal. -/
def IsObject : Node → Prop
  | object _ _ => True
  | _ => False

lemma IsObject.extent_eq {n : Node} (h : n.IsObject) : n.extent = n.span := by
  cases n with
  | object => rfl
  | _ => cases h

/-- A node stands in a property of another, but is not all of it. -/
def InProperty (m n : Node) : Prop := ∃ p ∈ n.children, m.span.StrictlyWithin (propertySpan p)

/-- Two object literals do not take up the same bytes, and they stand apart or one
of them in a property of the other. -/
def Separate (m n : Node) : Prop :=
  m.span ≠ n.span ∧ (m.span.Apart n.span ∨ m.InProperty n ∨ n.InProperty m)

lemma Separate.symm {m n : Node} (h : m.Separate n) : n.Separate m :=
  ⟨h.1.symm, h.2.imp (fun h => h.symm) fun h => h.symm⟩

/-- The same, of nodes that are object literals. -/
def SeparateObjects (m n : Node) : Prop := m.IsObject → n.IsObject → m.Separate n

instance : Std.Symm SeparateObjects where
  symm _ _ h hn hm := (h hm hn).symm

/-- What stands directly below a property is not all of it. -/
lemma strictlyWithin_of_mem_children {p c : Node} (h : ∀ m ∈ p.preorder, m.IsLaidOut)
    (hp : p.isProperty) (hc : c ∈ p.children) : c.extent.StrictlyWithin (propertySpan p) := by
  have hlaid := h p p.self_mem_preorder
  have hwithin := hlaid.within c hc
  have hnonempty := (h c (mem_preorder_of_mem_children hc)).nonempty
  have htokens := hlaid.tokens
  cases p with
  | spread dots value =>
      cases List.mem_singleton.mp hc
      exact hwithin.strictly (.inl htokens)
  | keyed key index value =>
      obtain ⟨hkey, hvalue⟩ := htokens
      have hchild : value ∈ (keyed key index value).children :=
        List.mem_append_right _ (List.mem_singleton_self value)
      have hvalueWithin := hlaid.within value hchild
      have hstop := (h value (mem_preorder_of_mem_children hchild)).nonempty
      rcases List.mem_append.mp hc with hindex | hc
      · exact hwithin.strictly
          (.inr ((((hkey.within c hindex).2.trans hvalue).trans_lt hstop).trans_le hvalueWithin.2))
      · cases List.mem_singleton.mp hc
        exact hwithin.strictly (.inl (hkey.nonempty.trans_le hvalue))
  | shorthand text s => cases hc
  | method key index parameters body types s =>
      obtain ⟨hkey, -, hstop, hinside⟩ := htokens
      simp only [children, List.append_assoc] at hc
      rcases List.mem_append.mp hc with hindex | hc
      · have hc := hkey.within c hindex
        exact Span.Within.strictly ⟨hc.1, hc.2.trans hstop.le⟩ (.inr (hc.2.trans_lt hstop))
      · have hlt := hkey.nonempty.trans_le (hinside c (by rwa [List.append_assoc]))
        exact Span.Within.strictly ⟨hlt.le, hwithin.2⟩ (.inl hlt)
  | accessor kind key index inside s =>
      obtain ⟨hkey, hstart, hstop, hinside⟩ := htokens
      rcases List.mem_append.mp hc with hindex | hc
      · exact hwithin.strictly (.inr ((hkey.within c hindex).2.trans_lt hstop))
      · exact hwithin.strictly
          (.inl (hstart.trans_lt (hkey.nonempty.trans_le (hinside c hc))))
  | assigned text s value =>
      cases List.mem_singleton.mp hc
      exact hwithin.strictly (.inl (htokens.1.trans_le htokens.2))
  | _ => cases hp

/-- The bytes of a property that count stand in the object literal. -/
lemma propertySpan_within {p : Node} (h : p.IsLaidOut) (hp : p.isProperty) :
    (propertySpan p).Within p.extent := by
  cases p with
  | method key index parameters body types s => exact ⟨h.tokens.2.1, le_rfl⟩
  | binding text s typing => cases hp
  | decorated decorators inner => cases hp
  | _ => exact .refl _

lemma propertySpan_nonempty {p : Node} (h : p.IsLaidOut) (hp : p.isProperty) :
    (propertySpan p).start < (propertySpan p).stop := by
  cases p with
  | method key index parameters body types s => exact h.tokens.1.nonempty.trans h.tokens.2.2.1
  | binding text s typing => cases hp
  | decorated decorators inner => cases hp
  | _ => exact h.nonempty

/-- An object literal below another stands in a property of that. -/
lemma separate_of_mem_preorder {m n c : Node} (h : ∀ k ∈ n.preorder, k.IsLaidOut)
    (hm : m.IsObject) (hn : n.IsObject) (hc : c ∈ n.children) (hmc : m ∈ c.preorder) :
    m.Separate n := by
  obtain ⟨properties, s, rfl⟩ : ∃ properties s, n = object properties s := by
    cases n with
    | object properties s => exact ⟨properties, s, rfl⟩
    | _ => cases hn
  have hbelow := forall_mem_preorder_of_mem_children h hc
  have hlaid := h _ (self_mem_preorder _)
  have hproperty := hlaid.tokens.2 c hc
  have hin : m.span.StrictlyWithin (propertySpan c) := by
    rcases mem_preorder_iff.mp hmc with rfl | ⟨d, hd, hmd⟩
    · cases m with
      | object => cases hproperty
      | _ => cases hm
    · rw [← hm.extent_eq]
      exact (extent_within_of_mem_preorder (forall_mem_preorder_of_mem_children hbelow hd)
        hmd).trans_strictlyWithin (strictlyWithin_of_mem_children hbelow hproperty hd)
  have hwithin := (propertySpan_within (hbelow c c.self_mem_preorder) hproperty).trans
    (hlaid.within c hc)
  exact ⟨(hin.trans hwithin).2, .inr (.inl ⟨c, hc, hin⟩)⟩

end Node

/-- The object literals of a script do not take up the same bytes, and any two of
them stand apart or one in a property of the other. -/
theorem Module.IsLaidOut.pairwise_separate {script : Module} (h : script.IsLaidOut) :
    script.preorder.Pairwise Node.SeparateObjects := by
  refine h.pairwise_preorder.imp_of_mem fun {m n} hm hn happart hmo hno => ?_
  rcases happart with happart | ⟨c, hc, hnc⟩
  · rw [hmo.extent_eq, hno.extent_eq] at happart
    have hnonempty := (h.nodes m hm).nonempty
    rw [hmo.extent_eq] at hnonempty
    exact ⟨happart.ne hnonempty, .inl happart⟩
  · exact (Node.separate_of_mem_preorder (h.nodes_below hm) hno hmo hc hnc).symm

/-! ### Literals and properties in one another -/

namespace Node

/-- What maps and configurations are read off: an object literal, or a property of
one. -/
def IsPart (n : Node) : Prop := n.IsObject ∨ n.isProperty = true

lemma IsPart.propertySpan_within {n : Node} (h : n.IsPart) (hlaid : n.IsLaidOut) :
    (propertySpan n).Within n.extent := by
  rcases h with hobject | hproperty
  · cases n with
    | object => exact .refl _
    | _ => cases hobject
  · exact Node.propertySpan_within hlaid hproperty

/-- The bytes that count of a part stand around the parts below it. -/
lemma IsPart.within_of_mem_preorder {m n c : Node} (hm : m.IsPart) (hn : n.IsPart)
    (h : ∀ k ∈ n.preorder, k.IsLaidOut) (hc : c ∈ n.children) (hmc : m ∈ c.preorder) :
    (propertySpan m).Within (propertySpan n) := by
  have hbelow := forall_mem_preorder_of_mem_children h hc
  have hextent : (propertySpan m).Within c.extent :=
    (hm.propertySpan_within (hbelow m hmc)).trans (extent_within_of_mem_preorder hbelow hmc)
  refine hextent.trans ?_
  rcases hn with hobject | hproperty
  · cases n with
    | object => exact (h _ (self_mem_preorder _)).within c hc
    | _ => cases hobject
  · exact (strictlyWithin_of_mem_children h hproperty hc).1

/-- Of two nodes, that they stand apart or in one another if they are parts. -/
def NestedParts (m n : Node) : Prop :=
  m.IsPart → n.IsPart → (propertySpan m).Nested (propertySpan n)

instance : Std.Symm NestedParts where
  symm _ _ h hn hm := (h hm hn).symm

end Node

/-- The parts of a script stand apart or in one another. -/
theorem Module.IsLaidOut.nestedParts {script : Module} (h : script.IsLaidOut) {m n : Node}
    (hm : m ∈ script.preorder) (hn : n ∈ script.preorder) : m.NestedParts n := by
  have hpairs : script.preorder.Pairwise Node.NestedParts := by
    refine h.pairwise_preorder.imp_of_mem fun {m n} hm hn happart hmpart hnpart => ?_
    rcases happart with happart | ⟨c, hc, hnc⟩
    · exact .inl (happart.mono (hmpart.propertySpan_within (h.nodes m hm))
        (hnpart.propertySpan_within (h.nodes n hn)))
    · exact .inr (.inr (hnpart.within_of_mem_preorder hmpart (h.nodes_below hm) hc hnc))
  exact hpairs.forall_of_forall (fun _ _ _ _ => .inr (.inl (.refl _))) hm hn

end GraphMigrate.Script
