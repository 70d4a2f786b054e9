/-
Maps and configurations stand where their literals do.

Where a script is laid out as a text is, entries stand in their maps one after the
other, and keys and values in their entries.  Each map stands where a literal of
its own does, so maps stand apart or one in an entry of another.

* `MirrorSpans`, `FieldMap.MirrorsSpans`: parts that stand as the properties of a
  literal do;
* `FieldMap.Separate`: maps that stand apart, or one in an entry of the other;
* `Definitions.mirrors_of_locate`: **maps and configurations mirror the spans of
  their literals, and no two maps overlap but one in an entry of the other**.
-/
import GraphMigrate.Proofs.Definitions.ReadLiterals

namespace GraphMigrate

open Script (Node Source)

/-! ### Spans -/

/-- Parts take up bytes, stand inside a literal, one after the other and one for
each property of it, where that is. -/
structure MirrorSpans (whole : Span) (parts : List Span) (properties : List Node) : Prop where
  spans : List.Forall₂ (fun s p => s = propertySpan p) parts properties
  nonempty : ∀ s ∈ parts, s.start < s.stop
  within : ∀ s ∈ parts, s.Within whole
  ordered : parts.Pairwise fun s t => s.stop ≤ t.start

/-- A key and a value stand inside an entry, the key first; a short entry is
both. -/
structure NamedEntry.IsPlaced (field : NamedEntry) : Prop where
  key_within : field.keySpan.Within field.span
  value_within : field.value.span.Within field.span
  key_before : field.shorthand = false → field.keySpan.stop ≤ field.value.span.start
  key_eq : field.shorthand = true → field.keySpan = field.value.span

/-- A map has an entry for each property of an object literal, and they stand as
the properties do. -/
structure FieldMap.MirrorsSpans (map : FieldMap) (properties : List Node) : Prop where
  entries : MirrorSpans map.span (map.entries.map (·.span)) properties
  fields : ∀ field ∈ map.fields, field.IsPlaced

/-- A map stands in an entry of another, but is not all of it. -/
def FieldMap.InEntry (m n : FieldMap) : Prop := ∃ e ∈ n.entries, m.span.StrictlyWithin e.span

/-- Two maps do not take up the same bytes, and they stand apart or one of them in
an entry of the other. -/
def FieldMap.Separate (m n : FieldMap) : Prop :=
  m.span ≠ n.span ∧ (m.span.Apart n.span ∨ m.InEntry n ∨ n.InEntry m)

section Spans

variable {script : Script.Module} {properties : List Node} {s : Span}

/-- The properties of a literal of a script stand in it, one after the other. -/
lemma mirrorSpans_properties (hlaid : script.IsLaidOut)
    (h : Node.object properties s ∈ script.preorder) :
    MirrorSpans s (properties.map propertySpan) properties := by
  have hnode := hlaid.nodes _ h
  obtain ⟨hordered, hproperty⟩ := hnode.tokens
  have hbelow (p : Node) (hp : p ∈ properties) : p.IsLaidOut :=
    hlaid.nodes_below h p (Node.mem_preorder_of_mem_children hp)
  have hwithin (p : Node) (hp : p ∈ properties) : (propertySpan p).Within p.extent :=
    Node.propertySpan_within (hbelow p hp) (hproperty p hp)
  refine ⟨List.forall₂_map_left_iff.mpr (List.forall₂_same.mpr fun _ _ => rfl), ?_, ?_, ?_⟩
  · exact List.forall_mem_map.mpr fun p hp =>
      Node.propertySpan_nonempty (hbelow p hp) (hproperty p hp)
  · exact List.forall_mem_map.mpr fun p hp => (hwithin p hp).trans (hnode.within p hp)
  · exact List.pairwise_map.mpr (hordered.imp_of_mem fun hp hq hpq =>
      (hwithin _ hp).2.trans (hpq.trans (hwithin _ hq).1))

/-- What has the spans of the properties of a literal stands as they do. -/
lemma mirrorSpans_of_forall₂ {α : Type} {span : α → Span} {parts : List α}
    (hlaid : script.IsLaidOut) (h : Node.object properties s ∈ script.preorder)
    (hparts : List.Forall₂ (fun a p => span a = propertySpan p) parts properties) :
    MirrorSpans s (parts.map span) properties := by
  have heq : parts.map span = properties.map propertySpan := by
    rw [← List.forall₂_eq_eq_eq]
    exact List.forall₂_map_left_iff.mpr (List.forall₂_map_right_iff.mpr hparts)
  rw [heq]
  exact mirrorSpans_properties hlaid h

/-- The key and the value of an entry stand where those of its property do. -/
lemma isPlaced_of_mirrors (hlaid : script.IsLaidOut) {e : MapEntry} {p : Node} {field : NamedEntry}
    (hp : p ∈ script.preorder) (hmirrors : e.Mirrors p) (hfield : e.field? = some field) :
    field.IsPlaced := by
  have hnode := hlaid.nodes p hp
  cases hmirrors with
  | named name key index node value hvalue =>
      cases hfield
      obtain ⟨hkey, hbefore⟩ := hnode.tokens
      have hchild : node ∈ (Node.keyed key index node).children :=
        List.mem_append_right _ (List.mem_singleton_self node)
      have hbelow := Node.forall_mem_preorder_of_mem_children (hlaid.nodes_below hp) hchild
      have hunwrap := node.unwrap_mem_preorder
      have hinside : ∀ m ∈ node.unwrap.preorder, m.IsLaidOut := fun m hm =>
        hbelow m (Node.mem_preorder_trans hm hunwrap)
      have hspan : value.span.Within node.extent := by
        rw [hvalue]
        exact (Node.span_within_extent hinside).trans
          (Node.extent_within_of_mem_preorder hbelow hunwrap)
      have hwithin := hnode.within node hchild
      have hnonempty := (hbelow node node.self_mem_preorder).nonempty
      refine ⟨⟨le_rfl, hbefore.trans (hnonempty.le.trans hwithin.2)⟩, hspan.trans hwithin,
        fun _ => hbefore.trans hspan.1, nofun⟩
  | shorthand text t =>
      cases hfield
      exact ⟨.refl t, .refl t, nofun, fun _ => rfl⟩
  | spread => cases hfield
  | computed => cases hfield

/-- No two literals of a script have one span. -/
lemma object_unique (hlaid : script.IsLaidOut) {properties' : List Node}
    (h : Node.object properties s ∈ script.preorder)
    (h' : Node.object properties' s ∈ script.preorder) : properties' = properties := by
  by_contra hne
  have hseparate := hlaid.pairwise_separate.forall h' h fun heq => hne (Node.object.inj heq).1
  exact (hseparate trivial trivial).1 rfl

/-- Maps stand apart, or one in an entry of the other, as their literals do. -/
lemma separate_of_mirrors {m n : FieldMap} {a b : Node} (hm : m.Mirrors a) (hn : n.Mirrors b)
    (h : a.SeparateObjects b) : m.Separate n := by
  have hin {m n : FieldMap} {a b : Node} (hm : m.Mirrors a) (hn : n.Mirrors b)
      (h : a.InProperty b) : m.InEntry n := by
    obtain ⟨_, rfl, -⟩ := hm
    obtain ⟨_, rfl, hentries⟩ := hn
    obtain ⟨p, hp, hwithin⟩ := h
    obtain ⟨e, he, hmirrors⟩ := exists_of_forall₂_right hentries hp
    exact ⟨e, he, hmirrors.span_eq ▸ hwithin⟩
  have hobject {m : FieldMap} {a : Node} (hm : m.Mirrors a) : a.IsObject ∧ a.span = m.span := by
    obtain ⟨_, rfl, -⟩ := hm
    exact ⟨trivial, rfl⟩
  obtain ⟨hne, hplaces⟩ := h (hobject hm).1 (hobject hn).1
  rw [(hobject hm).2, (hobject hn).2] at hne hplaces
  exact ⟨hne, hplaces.imp id (.imp (hin hm hn) (hin hn hm))⟩

/-- Maps that mirror literals of a script, each a different one, stand apart or one
in an entry of the other. -/
lemma ReadFrom.pairwise_separate (hlaid : script.IsLaidOut) {maps : List FieldMap}
    (h : ReadFrom script.preorder maps) : maps.Pairwise FieldMap.Separate := by
  obtain ⟨own, ⟨picked, hperm, hsublist⟩, hmaps⟩ := h
  have hown : own.Pairwise Node.SeparateObjects :=
    (hlaid.pairwise_separate.sublist hsublist).perm hperm fun {_ _} => Std.Symm.symm _ _
  exact pairwise_of_forall₂ hmaps hown fun _ _ _ _ => separate_of_mirrors

/-- An entry of a map that mirrors a literal of a script stands where a property
does. -/
lemma ReadFrom.exists_part (hlaid : script.IsLaidOut) {maps : List FieldMap}
    (h : ReadFrom script.preorder maps) {map : FieldMap} (hmap : map ∈ maps) {field : NamedEntry}
    (hfield : field ∈ map.fields) :
    ∃ p ∈ script.preorder, p.IsPart ∧ propertySpan p = field.span := by
  obtain ⟨own, hown, hmirrors⟩ := h
  obtain ⟨literal, hliteral, properties, rfl, hentries⟩ := exists_of_forall₂_left hmirrors hmap
  obtain ⟨e, he, hnamed⟩ := List.mem_filterMap.mp hfield
  obtain ⟨p, hp, hmirror⟩ := exists_of_forall₂_left hentries he
  have hobject := hown.subset hliteral
  have hbelow : p ∈ (Node.object properties map.span).preorder :=
    Node.mem_preorder_of_mem_children hp
  refine ⟨p, Script.Module.mem_preorder_trans hbelow hobject,
    .inr ((hlaid.nodes _ hobject).tokens.2 p hp), ?_⟩
  rw [← hmirror.span_eq]
  cases e with
  | field => cases hnamed; rfl
  | spread => cases hnamed
  | computed => cases hnamed

end Spans

/-- **Maps and configurations mirror the spans of their literals, and no two maps
overlap but one in an entry of the other.** -/
theorem Definitions.mirrors_of_locate {vocabulary : Vocabulary} {source : Source} {d : Definitions}
    (hlaid : source.script.IsLaidOut) (h : locate vocabulary source = .ok d) :
    (∀ map ∈ d.allMaps, ∃! properties,
      Node.object properties map.span ∈ source.script.preorder ∧ map.MirrorsSpans properties) ∧
    (∀ config ∈ d.allConfigs, ∃! properties,
      Node.object properties config.span ∈ source.script.preorder ∧
        MirrorSpans config.span (config.properties.map (·.span)) properties) ∧
    d.allMaps.Pairwise FieldMap.Separate := by
  obtain ⟨hmaps, hconfigs⟩ := readOff_of_locate h
  refine ⟨fun map hmap => ?_, fun config hconfig => ?_, hmaps.pairwise_separate hlaid⟩
  · obtain ⟨own, hown, hmirrors⟩ := hmaps
    obtain ⟨literal, hliteral, properties, rfl, hentries⟩ := exists_of_forall₂_left hmirrors hmap
    have hobject := hown.subset hliteral
    refine ⟨properties, ⟨hobject, ?_, fun field hfield => ?_⟩,
      fun _ h => object_unique hlaid hobject h.1⟩
    · exact mirrorSpans_of_forall₂ hlaid hobject (hentries.imp fun _ _ h => h.span_eq)
    · obtain ⟨e, he, hfield⟩ := List.mem_filterMap.mp hfield
      obtain ⟨p, hp, hmirror⟩ := exists_of_forall₂_left hentries he
      have hbelow : p ∈ (Node.object properties map.span).preorder :=
        Node.mem_preorder_of_mem_children hp
      exact isPlaced_of_mirrors hlaid (Script.Module.mem_preorder_trans hbelow hobject) hmirror
        hfield
  · obtain ⟨properties, hobject, hmirrors⟩ := hconfigs config hconfig
    exact ⟨properties, ⟨hobject, mirrorSpans_of_forall₂ hlaid hobject hmirrors⟩,
      fun _ h => object_unique hlaid hobject h.1⟩

/-- A field with arguments, between what is not written out. -/
def nestedArguments : String :=
  "new GraphQLObjectType(\x7b fields: () => (\x7b ...rest, " ++
    "a: \x7b type: x, args: \x7b b: \x7b type: y \x7d, c \x7d \x7d, d: e \x7d) \x7d)"

theorem definitions_of_nestedArguments_mirror : ∃ source d,
    Source.parse .typeScript nestedArguments = .ok source ∧ source.script.IsLaidOut ∧
      locate {} source = .ok d ∧ d.allMaps.map (·.size) = [3, 2] ∧ d.allConfigs.length = 2 ∧
      (∀ map ∈ d.allMaps, ∃! properties,
        Node.object properties map.span ∈ source.script.preorder ∧ map.MirrorsSpans properties) ∧
      d.allMaps.Pairwise FieldMap.Separate := by
  have hcheck : (Source.parse .typeScript nestedArguments).toOption.any (fun source =>
      decide source.script.IsLaidOut && (locate {} source).toOption.any fun d => decide (
        d.allMaps.map (·.size) = [3, 2] ∧ d.allConfigs.length = 2)) = true := by
    decide +kernel
  obtain ⟨source, hparse, hholds⟩ := Option.any_eq_true _ _ |>.mp hcheck
  rw [Bool.and_eq_true] at hholds
  obtain ⟨d, hlocate, hcounts⟩ := Option.any_eq_true _ _ |>.mp hholds.2
  have hlaid := of_decide_eq_true hholds.1
  obtain ⟨hsizes, hconfigs⟩ := of_decide_eq_true hcounts
  have hlocated := eq_ok_of_toOption hlocate
  obtain ⟨hmaps, -, hseparate⟩ := Definitions.mirrors_of_locate hlaid hlocated
  exact ⟨source, d, eq_ok_of_toOption hparse, hlaid, hlocated, hsizes, hconfigs, hmaps, hseparate⟩

end GraphMigrate
