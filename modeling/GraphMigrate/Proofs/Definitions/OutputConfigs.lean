/-
The configurations of output fields.

A configuration that is written inline is a summary of its object literal: it
lists the names of all properties, and it has a resolver if one of them is
called `resolve` and holds a value.  Accessors, spreads and computed keys are
listed, but they never count as a resolver.

* `propertyName?`, `isResolverProperty`: what a property is called, and whether
  it counts as a resolver;
* `FieldConfig.IsReadFrom`: the summary of a literal;
* `reports_fieldConfig_isReadFrom`: what is read off a literal is its summary;
* `Definitions.OutputsAre`: what all output maps have in common;
* `configs_isReadFrom_of_locate`: **the configuration of an output field is the
  summary of an object literal of the script**.
-/
import GraphMigrate.Proofs.Definitions.ReadLiterals

namespace GraphMigrate

open Script (Node Source)

/-! ### Summaries of literals -/

/-- What a property is called, as far as that is written; a spread and a
computed key are not called anything. -/
def propertyName? (source : Source) : Node → Option String
  | .keyed key _ _ | .method key _ _ _ _ _ | .accessor _ key _ _ _ => source.keyName? key
  | .shorthand text _ | .assigned text _ _ => some text
  | _ => none

/-- A property that counts as the resolver of a configuration. -/
def isResolverProperty (source : Source) : Node → Bool
  | .keyed key _ _ | .method key _ _ _ _ _ => source.keyName? key == some "resolve"
  | .shorthand text _ => text == "resolve"
  | _ => false

/-- A configuration lists the properties of a literal, and has a resolver if one
of them counts as such. -/
structure FieldConfig.IsReadFrom (source : Source) (properties : List Node)
    (config : FieldConfig) : Prop where
  properties_eq : config.properties =
    properties.map fun p => ⟨propertyName? source p, propertySpan p⟩
  resolve_isSome : config.resolve.isSome = properties.any (isResolverProperty source)

/-- A configuration is the summary of an object literal among some nodes. -/
def FieldConfig.IsWrittenIn (source : Source) (nodes : List Node) (config : FieldConfig) : Prop :=
  ∃ properties, Node.object properties config.span ∈ nodes ∧ config.IsReadFrom source properties

/-- All configurations that a map has inline are written among some nodes. -/
def FieldMap.IsWrittenIn (source : Source) (nodes : List Node) (map : FieldMap) : Prop :=
  ∀ field ∈ map.fields, ∀ config, field.value.config? = some config →
    config.IsWrittenIn source nodes

/-- So are those of the map of a source, if it is known. -/
def FieldsSource.IsWrittenIn (source : Source) (nodes : List Node) (found : FieldsSource) : Prop :=
  ∀ map, found.map? = some map → map.IsWrittenIn source nodes

lemma FieldConfig.IsReadFrom.concat {source : Source} {done : List Node} {n : Node}
    {config config' : FieldConfig} (h : config.IsReadFrom source done)
    (hproperties : config'.properties =
      config.properties ++ [⟨propertyName? source n, propertySpan n⟩])
    (hresolve : config'.resolve.isSome = (config.resolve.isSome || isResolverProperty source n)) :
    config'.IsReadFrom source (done ++ [n]) := by
  refine ⟨?_, ?_⟩
  · rw [hproperties, h.properties_eq, List.map_append, List.map_singleton]
  · rw [hresolve, h.resolve_isSome, List.any_append, List.any_cons, List.any_nil, Bool.or_false]

/-- One more property that counts as a resolver. -/
lemma FieldConfig.IsReadFrom.concat_resolver {source : Source} {done : List Node} {n : Node}
    {config config' : FieldConfig} (h : config.IsReadFrom source done)
    (hproperties : config'.properties =
      config.properties ++ [⟨propertyName? source n, propertySpan n⟩])
    (hresolve : config'.resolve.isSome = true) (hn : isResolverProperty source n = true) :
    config'.IsReadFrom source (done ++ [n]) :=
  h.concat hproperties (by rw [hresolve, hn, Bool.or_true])

/-- One more property that does not count as a resolver. -/
lemma FieldConfig.IsReadFrom.concat_other {source : Source} {done : List Node} {n : Node}
    {config config' : FieldConfig} (h : config.IsReadFrom source done)
    (hproperties : config'.properties =
      config.properties ++ [⟨propertyName? source n, propertySpan n⟩])
    (hresolve : config'.resolve = config.resolve) (hn : isResolverProperty source n = false) :
    config'.IsReadFrom source (done ++ [n]) :=
  h.concat hproperties (by rw [hresolve, hn, Bool.or_false])

lemma FieldConfig.IsWrittenIn.mono {source : Source} {nodes nodes' : List Node}
    {config : FieldConfig} (h : config.IsWrittenIn source nodes) (hnodes : nodes ⊆ nodes') :
    config.IsWrittenIn source nodes' :=
  h.imp fun _ h => ⟨hnodes h.1, h.2⟩

lemma FieldMap.IsWrittenIn.mono {source : Source} {nodes nodes' : List Node} {map : FieldMap}
    (h : map.IsWrittenIn source nodes) (hnodes : nodes ⊆ nodes') : map.IsWrittenIn source nodes' :=
  fun field hfield config hconfig => (h field hfield config hconfig).mono hnodes

lemma FieldsSource.IsWrittenIn.mono {source : Source} {nodes nodes' : List Node}
    {found : FieldsSource} (h : found.IsWrittenIn source nodes) (hnodes : nodes ⊆ nodes') :
    found.IsWrittenIn source nodes' :=
  fun map hmap => (h map hmap).mono hnodes

namespace Locator

variable {setting : Setting} {n : Node}

/-- One more property is summed up. -/
lemma reports_configProperty_isReadFrom {done : List Node} {config : FieldConfig}
    (h : config.IsReadFrom setting.source done) (n : Node) :
    Reports setting
      (fun later => later.span = config.span ∧ later.IsReadFrom setting.source (done ++ [n]))
      (configProperty config n) := by
  unfold configProperty
  split
  next key index value =>
    refine .read ?_
    dsimp only
    -- `type`, `args`, `resolve`, `deprecationReason` and any other name
    split_ifs with htype hargs hresolve hdeprecated
    · exact .pure ⟨rfl, h.concat_other rfl rfl (by simp [isResolverProperty, eq_of_beq htype])⟩
    · exact ((reports_argumentsSource mirroring_passesOn value).mono fun _ _ => trivial).bind
        fun found _ => .pure
          ⟨rfl, h.concat_other rfl rfl (by simp [isResolverProperty, eq_of_beq hargs])⟩
    · exact .pure ⟨rfl, h.concat_resolver rfl rfl hresolve⟩
    · exact .pure
        ⟨rfl, h.concat_other rfl rfl (by simp [isResolverProperty, eq_of_beq hdeprecated])⟩
    · exact .pure ⟨rfl, h.concat_other rfl rfl (eq_false_of_ne_true hresolve)⟩
  next text span =>
    dsimp only
    split_ifs with htype hargs hresolve hdeprecated
    · exact .pure ⟨rfl, h.concat_other rfl rfl (by simp [isResolverProperty, eq_of_beq htype])⟩
    · exact .pure ⟨rfl, h.concat_other rfl rfl (by simp [isResolverProperty, eq_of_beq hargs])⟩
    · exact .pure ⟨rfl, h.concat_resolver rfl rfl hresolve⟩
    · exact .pure
        ⟨rfl, h.concat_other rfl rfl (by simp [isResolverProperty, eq_of_beq hdeprecated])⟩
    · exact .pure ⟨rfl, h.concat_other rfl rfl (eq_false_of_ne_true hresolve)⟩
  next =>
    refine .read ?_
    dsimp only
    split_ifs with hresolve
    · exact .pure ⟨rfl, h.concat_resolver rfl rfl hresolve⟩
    · exact .pure ⟨rfl, h.concat_other rfl rfl (eq_false_of_ne_true hresolve)⟩
  next hkeyed hshorthand hmethod =>
    -- the other properties are listed by their names, if they have any
    refine .read (.pure ⟨rfl, h.concat_other ?_ rfl ?_⟩)
    · unfold propertyName?
      cases n with
      | keyed => exact absurd rfl (hkeyed _ _ _)
      | method => exact absurd rfl (hmethod _ _ _ _ _ _)
      | shorthand => exact absurd rfl (hshorthand _ _)
      | _ => rfl
    · unfold isResolverProperty
      cases n with
      | keyed => exact absurd rfl (hkeyed _ _ _)
      | method => exact absurd rfl (hmethod _ _ _ _ _ _)
      | shorthand => exact absurd rfl (hshorthand _ _)
      | _ => rfl

/-- What is read off the properties of a literal is their summary. -/
lemma reports_fieldConfig_isReadFrom {s : Span} {done : List Node} {config : FieldConfig}
    (h : config.IsReadFrom setting.source done) (ns : List Node) :
    Reports setting
      (fun later => later.span = config.span ∧ later.IsReadFrom setting.source (done ++ ns))
      (fieldConfig s config ns) := by
  induction ns generalizing done config with
  | nil =>
      rw [fieldConfig, List.append_nil]
      exact .pure ⟨rfl, h⟩
  | cons n ns ih =>
      rw [fieldConfig, ← List.singleton_append, ← List.append_assoc]
      exact (reports_configProperty_isReadFrom h n).bind fun config' h' =>
        (ih h'.2).mono fun later hlater => ⟨hlater.1.trans h'.1, hlater.2⟩

/-! ### Entries and maps -/

/-- A configuration that is read off a value is written in that value. -/
lemma reports_fieldValue_isWrittenIn (n : Node) :
    Reports setting (fun value => ∀ config, value.config? = some config →
      config.IsWrittenIn setting.source n.preorder) (fieldValue n) := by
  induction n using Node.induction_children with
  | h n ih =>
    unfold fieldValue
    split
    next wrapper inner types s =>
      exact (ih inner List.mem_cons_self).mono fun _ h config hconfig =>
        (h config hconfig).mono (preorder_subset_of_mem_children List.mem_cons_self)
    next properties s =>
      have hempty : (FieldConfig.mk s [] none none none false).IsReadFrom setting.source [] :=
        ⟨rfl, rfl⟩
      refine (reports_fieldConfig_isReadFrom hempty properties).bind fun config h => .pure ?_
      rintro _ ⟨⟩
      obtain ⟨hspan, hread⟩ := h
      refine ⟨properties, ?_, hread⟩
      rw [hspan]
      exact Node.self_mem_preorder _
    next => exact .pure fun _ h => by cases h
    next => exact .read (.pure fun _ h => by cases h)
    next => exact .pure fun _ h => by cases h

lemma reports_entry_isWrittenIn (kind : MapKind) (n : Node) :
    Reports setting (fun e => ∀ field, e.field? = some field → ∀ config,
      field.value.config? = some config → config.IsWrittenIn setting.source n.preorder)
      (entry kind n) := by
  unfold entry
  split
  next => exact .read (.warn_bind (.pure fun _ h => by cases h))
  next key index value =>
    refine .read ?_
    split
    next => exact .warn_bind (.pure fun _ h => by cases h)
    next =>
      refine (reports_fieldValue_isWrittenIn value).bind fun found hfound => .pure ?_
      rintro _ ⟨⟩ config hconfig
      exact (hfound config hconfig).mono (preorder_subset_of_mem_children
        (List.mem_append_right _ (List.mem_singleton_self value)))
  next =>
    refine .pure ?_
    rintro _ ⟨⟩ config hconfig
    cases hconfig
  next => exact .stop _
  next => exact .stop _
  next => exact .stop _
  next => exact .stop _
  next => exact .pure fun _ h => by cases h

lemma reports_entries_isWrittenIn (kind : MapKind) (ns : List Node) :
    Reports setting (fun es => ∀ field ∈ es.filterMap MapEntry.field?, ∀ config,
      field.value.config? = some config →
        config.IsWrittenIn setting.source (ns.flatMap Node.preorder)) (entries kind ns) := by
  induction ns with
  | nil =>
      rw [entries]
      exact .pure (List.forall_mem_nil _)
  | cons n ns ih =>
      rw [entries]
      refine (reports_entry_isWrittenIn kind n).bind fun e he => ih.bind fun es hes => .pure ?_
      intro field hfield config hconfig
      obtain ⟨e', he', hsome⟩ := List.mem_filterMap.mp hfield
      rw [List.flatMap_cons]
      rcases List.mem_cons.mp he' with rfl | he'
      · exact (he field hsome config hconfig).mono (List.subset_append_left _ _)
      · exact (hes field (List.mem_filterMap.mpr ⟨e', he', hsome⟩) config hconfig).mono
          (List.subset_append_right _ _)

lemma reports_fieldMap_isWrittenIn (kind : MapKind) (properties : List Node) (s : Span) :
    Reports setting (fun map => map.IsWrittenIn setting.source (Node.object properties s).preorder)
      (fieldMap kind properties s) := by
  refine (reports_entries_isWrittenIn kind properties).bind fun es hes => .pure ?_
  refine fun field hfield config hconfig => (hes field hfield config hconfig).mono ?_
  exact flatMap_preorder_subset (n := .object properties s) (List.Subset.refl properties)

/-! ### Maps that are returned -/

lemma reports_deferred_isWrittenIn {nodes : List Node} (kind : MapKind) {properties : List Node}
    {s : Span} (hobject : (Node.object properties s).preorder ⊆ nodes) :
    Reports setting (FieldsSource.IsWrittenIn setting.source nodes)
      (do return .deferred (← fieldMap kind properties s)) := by
  refine (reports_fieldMap_isWrittenIn kind properties s).bind fun map hmap => .pure ?_
  rintro _ ⟨⟩
  exact hmap.mono hobject

lemma reports_functionSource_isWrittenIn (kind : MapKind) (body : Option Node) (s : Span) :
    Reports setting
      (fun found => found.IsWrittenIn setting.source (body.toList.flatMap Node.preorder))
      (functionSource kind body s) := by
  rw [functionSource]
  split
  next properties t hfound =>
    obtain ⟨block, rfl, hreturned⟩ := Option.bind_eq_some_iff.mp hfound
    refine reports_deferred_isWrittenIn kind ?_
    rw [Option.toList_some, List.flatMap_singleton]
    exact preorder_subset (returnedObject?_literals hreturned).1
  next => exact .pure fun _ h => by cases h

lemma reports_arrowSource_isWrittenIn (kind : MapKind) (body : Node) (s : Span) :
    Reports setting (fun found => found.IsWrittenIn setting.source body.preorder)
      (arrowSource kind body s) := by
  unfold arrowSource
  dsimp only
  split
  next properties t hfound =>
    refine reports_deferred_isWrittenIn kind (preorder_subset ?_)
    split at hfound
    next => exact (returnedObject?_literals hfound).1
    next =>
      split at hfound
      next hobject =>
        cases hfound
        rw [← hobject]
        exact body.unwrap_mem_preorder
      next => cases hfound
  next => exact .pure fun _ h => by cases h

lemma reports_thunkSource_isWrittenIn (kind : MapKind) (n : Node) :
    Reports setting (fun found => found.IsWrittenIn setting.source n.preorder)
      (thunkSource kind n) := by
  have hwithin := preorder_subset n.unwrap_mem_preorder
  rw [thunkSource]
  split
  next properties s hn =>
    refine (reports_fieldMap_isWrittenIn kind properties s).bind fun map hmap => .pure ?_
    rintro _ ⟨⟩
    exact hmap.mono (hn ▸ hwithin)
  next parameters body types s hn =>
    refine (reports_arrowSource_isWrittenIn kind body s).mono fun found hfound => hfound.mono ?_
    refine List.Subset.trans ?_ (hn ▸ hwithin)
    exact preorder_subset_of_mem_children (List.mem_append_right _ List.mem_cons_self)
  next parameters body types s hn =>
    refine (reports_functionSource_isWrittenIn kind body s).mono fun found hfound =>
      hfound.mono ?_
    refine List.Subset.trans (flatMap_preorder_subset fun m hm => ?_) (hn ▸ hwithin)
    exact List.mem_append_left _ (List.mem_append_right _ hm)
  next => exact .pure fun _ h => by cases h
  next => exact .read (.pure fun _ h => by cases h)
  next => exact .pure fun _ h => by cases h

lemma reports_fieldsSource_isWrittenIn (kind : MapKind) (value : PropertyValue) :
    Reports setting
      (fun found => found.IsWrittenIn setting.source (value.nodes.flatMap Node.preorder))
      (fieldsSource kind value) := by
  cases value with
  | expression value =>
      refine (reports_thunkSource_isWrittenIn kind value).mono fun found hfound => hfound.mono ?_
      rw [PropertyValue.nodes, List.flatMap_singleton]
      exact List.Subset.refl _
  | name text s => exact .pure fun _ h => by cases h
  | method parameters body s => exact reports_functionSource_isWrittenIn kind body s

end Locator

/-! ### Steps of the search -/

/-- All output maps have something in common. -/
def Definitions.OutputsAre (good : FieldMap → Prop) (d : Definitions) : Prop :=
  ∀ map ∈ d.outputMaps, good map

namespace Locator

variable {α β : Type} {setting : Setting} {good : FieldMap → Prop} {P : α → Prop} {Q : β → Prop}

/-- A step of the search after which all output maps have something in common,
if they had it before. -/
def KeepsOutputs (setting : Setting) (good : FieldMap → Prop) (P : α → Prop) (p : Search α) :
    Prop :=
  Ensures (Definitions.OutputsAre good) (p setting) P

namespace KeepsOutputs

protected lemma pure {a : α} (ha : P a) : KeepsOutputs setting good P (pure a) := Ensures.pure ha

protected lemma bind {p : Search α} {next : α → Search β} (h : KeepsOutputs setting good P p)
    (hnext : ∀ a, P a → KeepsOutputs setting good Q (next a)) :
    KeepsOutputs setting good Q (p >>= next) :=
  Ensures.bind h hnext

protected lemma read {next : Setting → Search β} (h : KeepsOutputs setting good Q (next setting)) :
    KeepsOutputs setting good Q (read >>= next) := h

/-- A step that only leaves notes. -/
lemma of_reports {p : Search α} (h : Reports setting P p) : KeepsOutputs setting good P p := by
  intro d hd a d' hrun
  obtain ⟨ha, notes, hnotes⟩ := h.of_run hrun
  rw [hnotes] at hrun
  cases hrun
  exact ⟨hd, ha⟩

protected lemma discard {p : Search α} (h : KeepsOutputs setting good P p) :
    KeepsOutputs setting good (fun _ => True) (discard p) :=
  Ensures.map h fun _ _ => trivial

/-- A step that adds something other than an output map. -/
protected lemma add {a : Addition} (ha : ∀ map, a ≠ .outputMap map) :
    KeepsOutputs setting good (fun _ => True) (modify fun d => d.add a) := by
  intro d hd _ d' hrun
  cases hrun
  cases a with
  | outputMap map => exact absurd rfl (ha map)
  | _ => exact ⟨hd, trivial⟩

end KeepsOutputs

lemma keepsOutputs_addOutputMap {found : FieldsSource}
    (h : ∀ map, found.map? = some map → good map) :
    KeepsOutputs setting good (fun _ => True) (addOutputMap found) := by
  intro d hd place d' hrun
  refine ⟨?_, trivial⟩
  cases hmap : found.map? with
  | none =>
      obtain ⟨notes, hnotes⟩ := addsMaps_addOutputMap.unknown found d hmap
      rw [hnotes] at hrun
      cases hrun
      exact hd
  | some map =>
      obtain ⟨a, -, hmaps, hadd⟩ := addsMaps_addOutputMap.known found map d hmap
      rw [hadd] at hrun
      cases hrun
      intro m hm
      rw [hmaps] at hm
      rcases List.mem_append.mp hm with hm | hm
      · exact hd m hm
      · rw [List.mem_singleton.mp hm]
        exact h map hmap

lemma keepsOutputs_addInputMap (found : FieldsSource) :
    KeepsOutputs setting good (fun _ => True) (addInputMap found) := by
  intro d hd place d' hrun
  refine ⟨?_, trivial⟩
  cases found with
  | _ =>
      cases hrun
      exact hd

section Sites

variable {nodes : List Node}

/-- The output maps are written among some nodes. -/
abbrev KeepsWritten (setting : Setting) (nodes : List Node) (p : Search Unit) : Prop :=
  KeepsOutputs setting (fun map => map.IsWrittenIn setting.source nodes) (fun _ => True) p

/-- A map that is looked up is written below the literal. -/
lemma isWrittenIn_of_property {name : String} {properties : List Node} {s span : Span}
    {value : PropertyValue} {found : FieldsSource}
    (hfind : findProperty? setting.source name properties = some (span, value))
    (hfound : found.IsWrittenIn setting.source (value.nodes.flatMap Node.preorder)) :
    found.IsWrittenIn setting.source (Node.object properties s).preorder := by
  have hnodes := nodesOf_findProperty? setting.source name properties
  rw [hfind, nodesOf, Option.toList_some, List.flatMap_singleton] at hnodes
  exact hfound.mono (flatMap_preorder_subset_of_properties hnodes.1)

lemma keepsWritten_mutationConfig {properties : List Node} {s : Span}
    (hobject : (Node.object properties s).preorder ⊆ nodes) :
    KeepsWritten setting nodes (mutationConfig properties s) := by
  unfold KeepsWritten KeepsOutputs
  rw [mutationConfig_eq]
  refine KeepsOutputs.bind (P := fun _ => True) ?_ fun input _ =>
    KeepsOutputs.bind (P := fun _ => True) ?_ fun output _ => .add fun _ h => by cases h
  · cases findProperty? setting.source "inputFields" properties with
    | none => exact .pure trivial
    | some property =>
        exact (KeepsOutputs.of_reports (reports_fieldsSource_isWrittenIn .input property.2)).bind
          fun found _ => keepsOutputs_addInputMap found
  · cases hfind : findProperty? setting.source "outputFields" properties with
    | none => exact .pure trivial
    | some property =>
        refine (KeepsOutputs.of_reports
          (reports_fieldsSource_isWrittenIn .output property.2)).bind fun found hfound =>
            keepsOutputs_addOutputMap fun map hmap => ?_
        exact ((isWrittenIn_of_property hfind hfound).mono hobject) map hmap

/-- The literal that a call is given is below it. -/
lemma object_subset_of_argument {arguments properties : List Node} {s : Span}
    (hfirst : (arguments.head?.map fun a => (argumentValue a).unwrap) =
      some (.object properties s)) :
    (Node.object properties s).preorder ⊆ arguments.flatMap Node.preorder := by
  obtain ⟨first, hhead, hobject⟩ := Option.map_eq_some_iff.mp hfirst
  rw [← hobject]
  refine List.Subset.trans (preorder_subset (argumentValue first).unwrap_mem_preorder)
    (List.Subset.trans (preorder_subset (argumentValue_mem_preorder first)) fun k hk => ?_)
  exact List.mem_flatMap.mpr ⟨first, List.mem_of_mem_head? hhead, hk⟩

lemma keepsWritten_constructorCall {callee : Node} {arguments : List Node} {s : Span}
    (harguments : arguments.flatMap Node.preorder ⊆ nodes) :
    KeepsWritten setting nodes (constructorCall callee arguments s) := by
  unfold constructorCall
  refine .read ?_
  split
  next => exact .pure trivial
  next =>
    split
    next => exact .pure trivial
    next kind property _ =>
      split
      next properties t hobject =>
        have hwithin := List.Subset.trans (object_subset_of_argument hobject) harguments
        split
        next => exact .of_reports (.stop _)
        next span value hfind =>
          refine (KeepsOutputs.of_reports
            (reports_fieldsSource_isWrittenIn kind value)).bind fun found hfound => ?_
          have hmap := (isWrittenIn_of_property (s := t) hfind hfound).mono hwithin
          cases kind with
          | enumValues => exact .add (a := .enumValues found) fun _ h => by cases h
          | input => exact (keepsOutputs_addInputMap found).discard
          | output => exact (keepsOutputs_addOutputMap hmap).discard
          | arguments => exact (keepsOutputs_addOutputMap hmap).discard
      next => exact .of_reports (.stop _)

lemma keepsWritten_mutationHelperCall {callee : Node} {arguments : List Node} {s : Span}
    (harguments : arguments.flatMap Node.preorder ⊆ nodes) :
    KeepsWritten setting nodes (mutationHelperCall callee arguments s) := by
  unfold mutationHelperCall
  refine .read ?_
  dsimp only
  split_ifs
  · split
    next properties t hobject =>
      exact keepsWritten_mutationConfig
        (List.Subset.trans (object_subset_of_argument hobject) harguments)
    next => exact .of_reports (.warn _ _)
    next => exact .of_reports (.warn _ _)
  · exact .pure trivial

lemma keepsWritten_typedDeclaration {name : String} {typing value : Node}
    (hvalue : value.preorder ⊆ nodes) :
    KeepsWritten setting nodes (typedDeclaration name typing value) := by
  have hinside := List.Subset.trans (preorder_subset value.unwrap_mem_preorder) hvalue
  unfold typedDeclaration
  refine .read ?_
  split
  next => exact .pure trivial
  next =>
    exact (KeepsOutputs.of_reports (reports_thunkSource_isWrittenIn .output value)).bind
      fun found hfound => (keepsOutputs_addOutputMap (hfound.mono hvalue)).discard
  next =>
    exact (KeepsOutputs.of_reports (reports_thunkSource_isWrittenIn .input value)).bind
      fun found _ => (keepsOutputs_addInputMap found).discard
  next =>
    split
    next properties s hobject =>
      exact (KeepsOutputs.of_reports (reports_fieldMap_isWrittenIn .arguments properties s)).bind
        fun map _ => .add (a := .argumentMap map) fun _ h => by cases h
    next => exact .of_reports (.warn _ _)
  next =>
    split
    next properties s hobject =>
      exact (KeepsOutputs.of_reports (reports_fieldConfig mirroring_passesOn
        (mirroring_passesOn.empty_config s) properties)).bind
          fun config _ => .add (a := .fieldConfig ⟨name, config⟩) fun _ h => by cases h
    next => exact .pure trivial
  next =>
    split
    next properties s hobject => exact keepsWritten_mutationConfig (hobject ▸ hinside)
    next => exact .of_reports (.warn _ _)

lemma keepsWritten_visit {n : Node} (hn : n.preorder ⊆ nodes) :
    KeepsWritten setting nodes (visit n) := by
  unfold visit
  split
  next callee arguments types s =>
    refine keepsWritten_constructorCall (List.Subset.trans ?_ hn)
    exact flatMap_preorder_subset fun m hm => List.mem_append_left _ (List.mem_cons_of_mem _ hm)
  next callee arguments types s =>
    refine keepsWritten_mutationHelperCall (List.Subset.trans ?_ hn)
    exact flatMap_preorder_subset fun m hm => List.mem_append_left _ (List.mem_cons_of_mem _ hm)
  next name s typing value t =>
    refine keepsWritten_typedDeclaration (List.Subset.trans ?_ hn)
    exact preorder_subset_of_mem_children (List.mem_cons_of_mem _ (List.mem_singleton_self value))
  next => exact .pure trivial

lemma keepsWritten_visitAll {ns : List Node} (hns : ∀ n ∈ ns, n.preorder ⊆ nodes) :
    KeepsWritten setting nodes (ns.forM visit) := by
  induction ns with
  | nil => exact .pure trivial
  | cons n ns ih =>
      rw [List.forall_mem_cons] at hns
      rw [List.forM_eq_forM, List.forM_cons]
      exact (keepsWritten_visit hns.1).bind fun _ _ => ih hns.2

end Sites

end Locator

/-- **The configuration of an output field is the summary of an object literal**
of the script: it lists the names and places of all its properties, and it has a
resolver exactly if one of them counts as such. -/
theorem configs_isReadFrom_of_locate {vocabulary : Vocabulary} {source : Source} {d : Definitions}
    (h : locate vocabulary source = .ok d) :
    ∀ map ∈ d.outputMaps, map.IsWrittenIn source source.script.preorder := by
  obtain ⟨⟨_, found⟩, hrun, h⟩ := exists_ok_of_bind h
  cases h
  have hvisits : Locator.KeepsWritten ⟨source, vocabulary⟩ source.script.preorder
      (source.script.preorder.forM Locator.visit) :=
    Locator.keepsWritten_visitAll fun n hn k hk => Script.Module.mem_preorder_trans hk hn
  exact (hvisits {} (List.forall_mem_nil _) _ _ hrun).1

end GraphMigrate
