/-
What is read mirrors object literals.

A map has one entry for each property of an object literal, a configuration one
property for each, in their order and where they stand.  Each map mirrors a
literal of its own, at any depth.

* `MapEntry.Mirrors`, `FieldMap.Mirrors`, `FieldConfig.Mirrors`: an entry and a
  property, a map or a configuration and an object literal;
* `PartsFrom`: maps mirror different literals, configurations any;
* `mirroring`: entries, values, configurations and arguments that mirror nodes and
  hold what is read in them;
* `reads_thunkSource`, `reads_fieldsSource`: maps that are returned, or held by
  properties;
* `nodesOf_subperm`: two properties that are looked up are read apart.
-/
import GraphMigrate.Proofs.Definitions.Literals
import GraphMigrate.Proofs.Definitions.Reports

namespace GraphMigrate

open Script (Node Role Source)

/-! ### Mirrors -/

/-- The bytes of an entry. -/
def MapEntry.span : MapEntry → Span
  | .field _ _ _ s _ | .spread _ s | .computed s => s

/-- An entry is read off a property of an object literal. -/
inductive MapEntry.Mirrors : MapEntry → Node → Prop
  | named (name : String) (key : Script.Key) (index : List Node) (node : Node) (value : FieldValue)
      (h : value.span = node.unwrap.span) :
      Mirrors (.field name key.span false ⟨key.span.start, node.span.stop⟩ value)
        (.keyed key index node)
  | shorthand (text : String) (s : Span) :
      Mirrors (.field text s true s (.reference text s)) (.shorthand text s)
  | spread (label : String) (dots : ℕ) (value : Node) :
      Mirrors (.spread label ⟨dots, value.span.stop⟩) (.spread dots value)
  | computed (p : Node) : Mirrors (.computed (propertySpan p)) p

/-- A map has an entry for each property of an object literal. -/
def FieldMap.Mirrors (map : FieldMap) (literal : Node) : Prop :=
  ∃ properties, literal = .object properties map.span ∧
    List.Forall₂ MapEntry.Mirrors map.entries properties

/-- A configuration has a property for each of an object literal. -/
def FieldConfig.Mirrors (config : FieldConfig) (properties : List Node) : Prop :=
  List.Forall₂ (fun (q : ConfigProperty) p => q.span = propertySpan p) config.properties properties

lemma MapEntry.Mirrors.span_eq {e : MapEntry} {p : Node} (h : e.Mirrors p) :
    e.span = propertySpan p := by
  cases h <;> rfl

/-! ### What is read -/

/-- The map of arguments of a configuration, where it is known. -/
def FieldConfig.argumentMap? (config : FieldConfig) : Option FieldMap :=
  config.arguments.bind (·.map?)

/-- The configurations of entries. -/
def configsIn (fields : List NamedEntry) : List FieldConfig :=
  fields.filterMap (·.value.config?)

lemma configsIn_cons (field : NamedEntry) (fields : List NamedEntry) :
    configsIn (field :: fields) = field.value.config?.toList ++ configsIn fields := by
  rw [configsIn, List.filterMap_cons]
  cases field.value.config? <;> rfl

lemma configsIn_append (fields later : List NamedEntry) :
    configsIn (fields ++ later) = configsIn fields ++ configsIn later := List.filterMap_append

/-- Maps mirror literals, each a different one. -/
def ReadFrom (literals : List Node) (maps : List FieldMap) : Prop :=
  ∃ own, own.Subperm literals ∧ List.Forall₂ FieldMap.Mirrors maps own

/-- Maps, and the arguments of configurations, mirror literals, each a different
one, and the configurations mirror some of the nodes. -/
structure PartsFrom (nodes literals : List Node) (maps : List FieldMap)
    (configs : List FieldConfig) : Prop where
  maps : ReadFrom literals (maps ++ configs.filterMap (·.argumentMap?))
  configs : ∀ config ∈ configs, ∃ properties,
    Node.object properties config.span ∈ nodes ∧ config.Mirrors properties

section PartsFrom

variable {nodes nodes' literals literals' : List Node} {maps maps' : List FieldMap}
  {configs configs' : List FieldConfig}

lemma ReadFrom.mono (h : ReadFrom literals maps) (hliterals : literals.Subperm literals') :
    ReadFrom literals' maps :=
  h.imp fun _ h => ⟨h.1.trans hliterals, h.2⟩

lemma ReadFrom.append (h : ReadFrom literals maps) (h' : ReadFrom literals' maps') :
    ReadFrom (literals ++ literals') (maps ++ maps') := by
  obtain ⟨own, hown, hmaps⟩ := h
  obtain ⟨own', hown', hmaps'⟩ := h'
  exact ⟨own ++ own', hown.append hown', List.rel_append hmaps hmaps'⟩

lemma ReadFrom.perm (h : ReadFrom literals maps) (hmaps : maps'.Perm maps) :
    ReadFrom literals maps' := by
  obtain ⟨own, hown, hmirrors⟩ := h
  obtain ⟨own', hmirrors', hperm⟩ := List.perm_comp_forall₂ hmaps hmirrors
  exact ⟨own', hperm.subperm.trans hown, hmirrors'⟩

namespace PartsFrom

protected lemma nil : PartsFrom nodes literals [] [] :=
  ⟨⟨[], List.nil_subperm, .nil⟩, List.forall_mem_nil _⟩

lemma mono (h : PartsFrom nodes literals maps configs) (hnodes : nodes ⊆ nodes')
    (hliterals : literals.Subperm literals') : PartsFrom nodes' literals' maps configs :=
  ⟨h.maps.mono hliterals, fun config hconfig =>
    (h.configs config hconfig).imp fun _ h => ⟨hnodes h.1, h.2⟩⟩

lemma append (h : PartsFrom nodes literals maps configs)
    (h' : PartsFrom nodes' literals' maps' configs') :
    PartsFrom (nodes ++ nodes') (literals ++ literals') (maps ++ maps') (configs ++ configs') := by
  refine ⟨(h.maps.append h'.maps).perm ?_, fun config hconfig => ?_⟩
  · rw [List.filterMap_append, List.append_assoc, List.append_assoc]
    exact (List.perm_append_comm_assoc _ _ _).append_left maps
  · rcases List.mem_append.mp hconfig with hconfig | hconfig
    · exact (h.configs config hconfig).imp fun _ h => ⟨List.mem_append_left _ h.1, h.2⟩
    · exact (h'.configs config hconfig).imp fun _ h => ⟨List.mem_append_right _ h.1, h.2⟩

lemma perm (h : PartsFrom nodes literals maps configs) (hmaps : maps'.Perm maps)
    (hconfigs : configs'.Perm configs) : PartsFrom nodes literals maps' configs' :=
  ⟨h.maps.perm (hmaps.append (hconfigs.filterMap _)),
    fun config hconfig => h.configs config (hconfigs.mem_iff.mp hconfig)⟩

end PartsFrom

end PartsFrom

/-- The nodes below a node are among those below another. -/
lemma preorder_subset {m n : Node} (h : m ∈ n.preorder) : m.preorder ⊆ n.preorder :=
  fun _ hk => Node.mem_preorder_trans hk h

lemma preorder_subset_of_mem_children {m n : Node} (h : m ∈ n.children) :
    m.preorder ⊆ n.preorder :=
  preorder_subset (Node.mem_preorder_of_mem_children h)

/-- The nodes below those directly below a node are below that. -/
lemma flatMap_preorder_subset {ms : List Node} {n : Node} (h : ms ⊆ n.children) :
    ms.flatMap Node.preorder ⊆ n.preorder := by
  intro k hk
  obtain ⟨m, hm, hk⟩ := List.mem_flatMap.mp hk
  exact preorder_subset_of_mem_children (h hm) hk

/-- The nodes in which the value of a property is read. -/
def PropertyValue.nodes : PropertyValue → List Node
  | .expression value => [value]
  | .name _ _ => []
  | .method _ body _ => body.toList

/-! ### Maps and configurations -/

/-- An entry mirrors a property and holds what is read in it. -/
structure EntryFrom (n : Node) (e : MapEntry) : Prop where
  mirrors : e.Mirrors n
  reads : PartsFrom n.preorder (n.literals .fields) [] (configsIn e.allFields)

/-- Entries mirror properties and hold what is read in them. -/
structure EntriesFrom (ns : List Node) (es : List MapEntry) : Prop where
  mirrors : List.Forall₂ MapEntry.Mirrors es ns
  reads : PartsFrom (ns.flatMap Node.preorder) (ns.flatMap (Node.literals .fields)) []
    (configsIn (MapEntry.allFieldsOf es))

/-- A value stands where a node does, and holds what is read in it. -/
structure ValueFrom (n : Node) (v : FieldValue) : Prop where
  span_eq : v.span = n.unwrap.span
  reads : PartsFrom n.preorder (n.literals .config) [] (v.config?.toList ++ configsIn v.allFields)

/-- The map of a source, and what it holds, is read off nodes. -/
def SourceFrom (nodes literals : List Node) (source : FieldsSource) : Prop :=
  PartsFrom nodes literals source.map?.toList (configsIn source.allFields)

/-- A configuration mirrors properties, and its arguments are read in them. -/
structure ConfigFrom (s : Span) (ns : List Node) (c : FieldConfig) : Prop where
  span_eq : c.span = s
  mirrors : c.Mirrors ns
  arguments : ∀ source, c.arguments = some source →
    SourceFrom (ns.flatMap Node.preorder) (ns.flatMap (Node.literals .config)) source

section Parts

variable {nodes literals ns : List Node} {n : Node} {s : Span} {c : FieldConfig}

lemma sourceFrom_of_map?_eq_none {source : FieldsSource} (h : source.map? = none) :
    SourceFrom nodes literals source := by
  cases source with
  | inline => cases h
  | deferred => cases h
  | _ => exact .nil

lemma SourceFrom.mono {nodes' literals' : List Node} {source : FieldsSource}
    (h : SourceFrom nodes literals source) (hnodes : nodes ⊆ nodes')
    (hliterals : literals.Subperm literals') : SourceFrom nodes' literals' source :=
  PartsFrom.mono h hnodes hliterals

/-- The map of an object literal, with what is read in it. -/
lemma reads_object {es : List MapEntry} (kind : MapKind) (h : EntriesFrom ns es) :
    PartsFrom (Node.object ns s).preorder ((Node.object ns s).literals .fields) [.mk kind s es]
      (configsIn (FieldMap.mk kind s es).allFields) := by
  obtain ⟨own, hown, hmaps⟩ := h.reads.maps
  refine ⟨⟨.object ns s :: own, ?_, .cons ⟨ns, rfl, h.mirrors⟩ ?_⟩, fun config hconfig => ?_⟩
  · rw [Node.literals, Node.literalsAll_eq_flatMap]
    exact (List.subperm_cons _).mpr hown
  · rwa [FieldMap.allFields]
  · rw [FieldMap.allFields] at hconfig
    exact (h.reads.configs config hconfig).imp fun _ h =>
      ⟨flatMap_preorder_subset (List.Subset.refl ns) h.1, h.2⟩

/-- A configuration, with what is read in it. -/
lemma ConfigFrom.reads (h : ConfigFrom s ns c) :
    PartsFrom (Node.object ns s).preorder ((Node.object ns s).literals .config) []
      (c :: configsIn c.allFields) := by
  obtain ⟨t, properties, type, arguments, resolve, deprecated⟩ := c
  obtain rfl : t = s := h.span_eq
  have hself := Node.self_mem_preorder (.object ns t)
  have hliterals : (Node.object ns t).literals .config = ns.flatMap (Node.literals .config) := by
    rw [Node.literals, Node.literalsAll_eq_flatMap]
  rw [hliterals]
  cases arguments with
  | none =>
      exact ⟨⟨[], List.nil_subperm, .nil⟩, List.forall_mem_cons.mpr
        ⟨⟨ns, hself, h.mirrors⟩, List.forall_mem_nil _⟩⟩
  | some source =>
      obtain ⟨hmaps, hconfigs⟩ := (h.arguments source rfl).mono
        (flatMap_preorder_subset (n := .object ns t) (List.Subset.refl ns)) (List.Subperm.refl _)
      refine ⟨?_, List.forall_mem_cons.mpr ⟨⟨ns, hself, h.mirrors⟩, hconfigs⟩⟩
      have hown : (FieldConfig.mk t properties type (some source) resolve deprecated).argumentMap? =
          source.map? := rfl
      rw [List.nil_append, List.filterMap_cons, hown]
      cases hmap : source.map? with
      | none => rwa [hmap] at hmaps
      | some map => rwa [hmap] at hmaps

/-- A configuration with one more property. -/
lemma ConfigFrom.concat {c' : FieldConfig} {name : Option String} (h : ConfigFrom s ns c)
    (hspan : c'.span = c.span)
    (hproperties : c'.properties = c.properties ++ [⟨name, propertySpan n⟩])
    (harguments : c'.arguments = c.arguments ∨ ∃ source, c'.arguments = some source ∧
      SourceFrom n.preorder (n.literals .config) source) :
    ConfigFrom s (ns ++ [n]) c' := by
  refine ⟨hspan.trans h.span_eq, ?_, fun source hsource => ?_⟩
  · rw [FieldConfig.Mirrors, hproperties]
    exact List.rel_append h.mirrors (.cons rfl .nil)
  · rw [List.flatMap_append, List.flatMap_append, List.flatMap_singleton, List.flatMap_singleton]
    rcases harguments with heq | ⟨own, heq, hown⟩
    · exact (h.arguments source (heq ▸ hsource)).mono (List.subset_append_left _ _)
        (List.sublist_append_left _ _).subperm
    · rw [heq] at hsource
      cases hsource
      exact hown.mono (List.subset_append_right _ _) (List.sublist_append_right _ _).subperm

end Parts

namespace Locator

variable {setting : Setting}

/-- What is read off a node mirrors it, and holds what is read in it. -/
def mirroring : Correspondence where
  entry := EntryFrom
  value := ValueFrom
  config := ConfigFrom
  arguments n := SourceFrom n.preorder (n.literals .fields)

/-- What is read off a child is read off its node, which reads nothing else. -/
lemma reads_of_child {c n : Node} {literals : List Node} {maps : List FieldMap}
    {configs : List FieldConfig} (h : PartsFrom c.preorder literals maps configs)
    (hc : c ∈ n.children) : PartsFrom n.preorder literals maps configs :=
  h.mono (preorder_subset_of_mem_children hc) (List.Subperm.refl _)

/-- Entries that mirror properties, with what is read in them. -/
lemma entriesFrom_of_forall₂ {ns : List Node} {es : List MapEntry}
    (h : List.Forall₂ EntryFrom ns es) : EntriesFrom ns es := by
  induction h with
  | nil => exact ⟨.nil, .nil⟩
  | cons he _ ih =>
      refine ⟨.cons he.mirrors ih.mirrors, ?_⟩
      rw [MapEntry.allFieldsOf, configsIn_append]
      exact he.reads.append ih.reads

lemma mirroring_passesOn : mirroring.PassesOn where
  spread label dots value := ⟨.spread label dots value, .nil⟩
  computed {n} hn := ⟨hn ▸ .computed n, .nil⟩
  named {node value} name key index h := by
    refine ⟨.named name key index node value h.span_eq, ?_⟩
    rw [MapEntry.allFields, configsIn_cons]
    exact reads_of_child h.reads (List.mem_append_right _ (List.mem_singleton_self _))
  shorthand text s := ⟨.shorthand text s, .nil⟩
  wrapped_value h := ⟨h.span_eq, reads_of_child h.reads List.mem_cons_self⟩
  inline_value h := ⟨h.span_eq, h.reads⟩
  plain_value {n value} hn hvalue hspan := by
    refine ⟨hspan.trans (congrArg Node.span hn.symm), ?_⟩
    cases value with
    | config => cases hvalue
    | _ => exact .nil
  empty_config _ := ⟨rfl, .nil, by rintro _ ⟨⟩⟩
  concat_config h hspan hproperties harguments := by
    refine h.concat hspan hproperties (harguments.imp_right ?_)
    rintro ⟨source, heq, hsource⟩
    refine ⟨source, heq, ?_⟩
    rcases hsource with hnone | ⟨key, index, node, rfl, hsource⟩
    · exact sourceFrom_of_map?_eq_none hnone
    · exact reads_of_child hsource (List.mem_append_right _ (List.mem_singleton_self _))
  wrapped_arguments h := reads_of_child h List.mem_cons_self
  inline_arguments h := reads_object .arguments (entriesFrom_of_forall₂ h)
  decorated_arguments h := by
    refine PartsFrom.mono (reads_of_child h (List.mem_cons_of_mem _ List.mem_cons_self))
      (List.Subset.refl _) ?_
    rw [Node.literals, Node.literalsAll]
    exact (List.sublist_append_left _ _).subperm
  unknown_arguments _ h := sourceFrom_of_map?_eq_none h

/-! ### Maps that are returned -/

lemma literals_unwrap (r : Role) (n : Node) : n.unwrap.literals r = n.literals r := by
  fun_induction Node.unwrap n with
  | case1 wrapper inner types s ih => rw [ih, Node.literals]
  | case2 => rfl

/-- What is read off a value is read off the node that holds it. -/
lemma sourceFrom_of_unwrap {r : Role} {n m : Node} {source : FieldsSource} (hm : n.unwrap = m)
    (h : SourceFrom m.preorder (m.literals r) source) :
    SourceFrom n.preorder (n.literals r) source := by
  subst hm
  rw [← literals_unwrap r n]
  exact h.mono (preorder_subset n.unwrap_mem_preorder) (List.Subperm.refl _)

/-- A literal that a function returns is one of those in its body. -/
lemma returnedObject?_literals {body : Node} {properties : List Node} {s : Span}
    (h : returnedObject? body = some (properties, s)) :
    (Node.object properties s) ∈ body.preorder ∧
      ((Node.object properties s).literals .fields).Sublist (body.literals .fields) := by
  unfold returnedObject? at h
  split at h
  next statements t =>
    split at h
    next value t' hlast =>
      split at h
      next hobject =>
        cases h
        have hret := List.mem_of_getLast? hlast
        refine ⟨?_, ?_⟩
        · rw [← hobject]
          refine flatMap_preorder_subset (List.Subset.refl statements)
            (List.mem_flatMap.mpr ⟨_, hret, ?_⟩)
          exact Node.mem_preorder_iff.mpr
            (.inr ⟨value, List.mem_singleton_self value, value.unwrap_mem_preorder⟩)
        · rw [← hobject, literals_unwrap, Node.literals, Node.literalsAll_eq_flatMap]
          have hsublist := List.sublist_flatten_of_mem
            (List.mem_map_of_mem (f := Node.literals .fields) hret)
          rwa [Node.literals, Node.literalsOpt] at hsublist
      next => cases h
    next => cases h
  next => cases h

lemma reads_fieldMap (kind : MapKind) (properties : List Node) (s : Span) :
    Reports setting (fun map => PartsFrom (Node.object properties s).preorder
      ((Node.object properties s).literals .fields) [map] (configsIn map.allFields))
      (fieldMap kind properties s) :=
  (reports_entries mirroring_passesOn kind properties).bind fun _ hes =>
    .pure (reads_object kind (entriesFrom_of_forall₂ hes))

/-- A map that a function returns. -/
lemma reads_deferred {nodes literals : List Node} (kind : MapKind) {properties : List Node}
    {s : Span} (hnodes : Node.object properties s ∈ nodes.flatMap Node.preorder)
    (hliterals : ((Node.object properties s).literals .fields).Sublist literals) :
    Reports setting (SourceFrom (nodes.flatMap Node.preorder) literals)
      (do return .deferred (← fieldMap kind properties s)) := by
  refine (reads_fieldMap kind properties s).bind fun map hmap =>
    .pure (hmap.mono ?_ hliterals.subperm)
  obtain ⟨n, hn, hobject⟩ := List.mem_flatMap.mp hnodes
  exact fun k hk => List.mem_flatMap.mpr ⟨n, hn, preorder_subset hobject hk⟩

lemma reads_functionSource (kind : MapKind) (body : Option Node) (s : Span) :
    Reports setting (SourceFrom (body.toList.flatMap Node.preorder) (Node.literalsOpt .fields body))
      (functionSource kind body s) := by
  rw [functionSource]
  split
  next properties t hfound =>
    obtain ⟨block, rfl, hreturned⟩ := Option.bind_eq_some_iff.mp hfound
    obtain ⟨hobject, hliterals⟩ := returnedObject?_literals hreturned
    exact reads_deferred kind (List.mem_flatMap.mpr ⟨block, List.mem_singleton_self _, hobject⟩)
      hliterals
  next => exact .pure (sourceFrom_of_map?_eq_none rfl)

lemma reads_arrowSource (kind : MapKind) (body : Node) (s : Span) :
    Reports setting (SourceFrom body.preorder (body.literals .fields))
      (arrowSource kind body s) := by
  have hbody : body.preorder = [body].flatMap Node.preorder := (List.flatMap_singleton _ _).symm
  unfold arrowSource
  dsimp only
  split
  next properties t hfound =>
    have hobject : Node.object properties t ∈ body.preorder ∧
        ((Node.object properties t).literals .fields).Sublist (body.literals .fields) := by
      split at hfound
      next => exact returnedObject?_literals hfound
      next =>
        split at hfound
        next hobject =>
          cases hfound
          rw [← hobject, literals_unwrap]
          exact ⟨body.unwrap_mem_preorder, List.Sublist.refl _⟩
        next => cases hfound
    rw [hbody] at hobject ⊢
    exact reads_deferred kind hobject.1 hobject.2
  next => exact .pure (sourceFrom_of_map?_eq_none rfl)

lemma reads_thunkSource (kind : MapKind) (n : Node) :
    Reports setting (SourceFrom n.preorder (n.literals .fields)) (thunkSource kind n) := by
  rw [thunkSource]
  split
  next properties s hn =>
    exact (reads_fieldMap kind properties s).bind fun _ hmap =>
      .pure (sourceFrom_of_unwrap hn hmap)
  next parameters body types s hn =>
    refine (reads_arrowSource kind body s).mono fun found hfound => sourceFrom_of_unwrap hn ?_
    rw [Node.literals]
    exact hfound.mono (preorder_subset_of_mem_children
      (List.mem_append_right _ List.mem_cons_self)) (List.Subperm.refl _)
  next parameters body types s hn =>
    refine (reads_functionSource kind body s).mono fun found hfound => sourceFrom_of_unwrap hn ?_
    rw [Node.literals]
    refine hfound.mono (flatMap_preorder_subset fun m hm => ?_) (List.Subperm.refl _)
    exact List.mem_append_left _ (List.mem_append_right _ hm)
  next => exact .pure (sourceFrom_of_map?_eq_none rfl)
  next => exact .read (.pure (sourceFrom_of_map?_eq_none rfl))
  next => exact .pure (sourceFrom_of_map?_eq_none rfl)

/-! ### Properties that are looked up -/

lemma reads_fieldsSource (kind : MapKind) (value : PropertyValue) :
    Reports setting (SourceFrom (value.nodes.flatMap Node.preorder)
      (value.nodes.flatMap (Node.literals .fields))) (fieldsSource kind value) := by
  cases value with
  | expression value =>
      have h : Reports setting _ _ := reads_thunkSource kind value
      rwa [← List.flatMap_singleton Node.preorder value,
        ← List.flatMap_singleton (Node.literals .fields) value] at h
  | name text s => exact .pure (sourceFrom_of_map?_eq_none rfl)
  | method parameters body s =>
      have h : Reports setting _ _ := reads_functionSource kind body s
      rwa [Node.literalsOpt_eq_flatMap] at h

/-- The value that a property holds, if it has a name. -/
def namedValue? (source : Source) (name : String) : Node → Option PropertyValue
  | .keyed key _ value =>
    if source.keyName? key == some name then some (.expression value) else none
  | .shorthand text s => if text == name then some (.name text s) else none
  | .method key _ parameters body _ s =>
    if source.keyName? key == some name then some (.method parameters body s) else none
  | _ => none

lemma findProperty?_cons (source : Source) (name : String) (p : Node) (ps : List Node) :
    findProperty? source name (p :: ps) = match namedValue? source name p with
      | some value => some (propertySpan p, value)
      | none => findProperty? source name ps := rfl

section Named

variable {source : Source} {name name' : String} {p : Node} {value value' : PropertyValue}

/-- A property has one name. -/
lemma name_unique (h : namedValue? source name p = some value)
    (h' : namedValue? source name' p = some value') : name = name' := by
  cases p with
  | keyed key index node =>
      simp only [namedValue?, Option.ite_none_right_eq_some, beq_iff_eq] at h h'
      exact Option.some.inj (h.1.symm.trans h'.1)
  | shorthand text s =>
      simp only [namedValue?, Option.ite_none_right_eq_some, beq_iff_eq] at h h'
      exact h.1.symm.trans h'.1
  | method key index parameters body types s =>
      simp only [namedValue?, Option.ite_none_right_eq_some, beq_iff_eq] at h h'
      exact Option.some.inj (h.1.symm.trans h'.1)
  | _ => cases h

/-- The value of a property is read as the property is in a configuration. -/
lemma namedValue?_nodes (h : namedValue? source name p = some value) :
    value.nodes ⊆ p.children ∧
      value.nodes.flatMap (Node.literals .fields) = p.literals .config := by
  cases p with
  | keyed key index node =>
      simp only [namedValue?, Option.ite_none_right_eq_some, Option.some.injEq] at h
      obtain ⟨-, rfl⟩ := h
      refine ⟨List.subset_append_right _ _, ?_⟩
      rw [Node.literals]
      exact List.flatMap_singleton _ _
  | shorthand text s =>
      simp only [namedValue?, Option.ite_none_right_eq_some, Option.some.injEq] at h
      obtain ⟨-, rfl⟩ := h
      exact ⟨List.nil_subset _, by simp [Node.literals, PropertyValue.nodes]⟩
  | method key index parameters body types s =>
      simp only [namedValue?, Option.ite_none_right_eq_some, Option.some.injEq] at h
      obtain ⟨-, rfl⟩ := h
      refine ⟨fun m hm => List.mem_append_left _ (List.mem_append_right _ hm), ?_⟩
      rw [Node.literals, Node.literalsOpt_eq_flatMap]
      rfl
  | _ => cases h

/-- The nodes in which the value of a property is read that was looked up. -/
def nodesOf (found : Option (Span × PropertyValue)) : List Node :=
  found.toList.flatMap fun property => property.2.nodes

/-- A property that was looked up is the first, or one of the others. -/
lemma nodesOf_cons (source : Source) (name : String) (p : Node) (ps : List Node) :
    (∃ value, namedValue? source name p = some value ∧
      nodesOf (findProperty? source name (p :: ps)) = value.nodes) ∨
    nodesOf (findProperty? source name (p :: ps)) = nodesOf (findProperty? source name ps) := by
  rw [findProperty?_cons]
  cases namedValue? source name p with
  | some value => exact .inl ⟨value, rfl, List.append_nil _⟩
  | none => exact .inr rfl

/-- The value of a property of a configuration is read as that is. -/
lemma nodesOf_findProperty? (source : Source) (name : String) (ps : List Node) :
    nodesOf (findProperty? source name ps) ⊆ ps.flatMap Node.children ∧
      ((nodesOf (findProperty? source name ps)).flatMap (Node.literals .fields)).Sublist
        (ps.flatMap (Node.literals .config)) := by
  induction ps with
  | nil => exact ⟨List.nil_subset _, List.Sublist.refl _⟩
  | cons p ps ih =>
      rw [List.flatMap_cons, List.flatMap_cons]
      rcases nodesOf_cons source name p ps with
        ⟨value, hvalue, heq⟩ | heq
      · rw [heq, (namedValue?_nodes hvalue).2]
        exact ⟨List.subset_append_of_subset_left _ (namedValue?_nodes hvalue).1,
          List.sublist_append_left _ _⟩
      · rw [heq]
        exact ⟨List.subset_append_of_subset_right _ ih.1,
          ih.2.trans (List.sublist_append_right _ _)⟩

/-- The values of two properties of a configuration are read apart. -/
lemma nodesOf_subperm (hname : name ≠ name') (ps : List Node) :
    ((nodesOf (findProperty? source name ps)).flatMap (Node.literals .fields) ++
      (nodesOf (findProperty? source name' ps)).flatMap (Node.literals .fields)).Subperm
        (ps.flatMap (Node.literals .config)) := by
  induction ps with
  | nil => exact List.Subperm.refl _
  | cons p ps ih =>
      rw [List.flatMap_cons]
      rcases nodesOf_cons source name p ps with
        ⟨value, hvalue, heq⟩ | heq <;>
      rcases nodesOf_cons source name' p ps with
        ⟨value', hvalue', heq'⟩ | heq'
      · exact absurd (name_unique hvalue hvalue') hname
      · rw [heq, heq', (namedValue?_nodes hvalue).2]
        exact (List.Subperm.refl _).append (nodesOf_findProperty? source _ ps).2.subperm
      · rw [heq, heq', (namedValue?_nodes hvalue').2]
        exact List.perm_append_comm.subperm.trans
          ((List.Subperm.refl _).append (nodesOf_findProperty? source _ ps).2.subperm)
      · rw [heq, heq']
        exact ih.trans (List.sublist_append_right _ _).subperm

end Named

end Locator

end GraphMigrate
