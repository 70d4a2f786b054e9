/-
Mutations and the maps they refer to.

What is found is added piece by piece, and no piece is changed later.  The maps
of a mutation are added before it, each behind those of its kind that were
there, and the mutation keeps their places.  Other maps that come before, between
or after do no harm to that.

* `Addition`, `Definitions.add`: one more piece;
* `AddsPart`: a piece is added that is of its kind, and no mutation;
* `Refers`: the place of a map;
* `mutationLiterals`, `ownMap?`: the configurations of mutations in a script, and
  the maps that their properties are read as;
* `Definitions.IsSound`: maps are of their kinds, and mutations refer to their
  own maps;
* `linkMap_run`, `mutationConfig_run`: what is added for a mutation;
* `isSound_of_visit`, `isSound_of_visitAll`: one node, and a row of them;
* `Definitions.isSound_of_locate`: **the search is sound at any time**.
-/
import GraphMigrate.Proofs.Control.Ensures
import GraphMigrate.Proofs.Definitions.Reports

namespace GraphMigrate

open Relation (ReflTransGen)
open Script (Node Source)

/-! ### Pieces -/

/-- One thing that is found. -/
inductive Addition where
  | note (diagnostic : Diagnostic)
  | outputMap (map : FieldMap)
  | inputMap (map : FieldMap)
  | argumentMap (map : FieldMap)
  | fieldConfig (config : NamedConfig)
  | enumValues (source : FieldsSource)
  | mutation (mutation : Mutation)

/-- What was found, with one thing more. -/
def Definitions.add (d : Definitions) : Addition → Definitions
  | .note n => { d with diagnostics := d.diagnostics ++ [n] }
  | .outputMap map => { d with outputMaps := d.outputMaps ++ [map] }
  | .inputMap map => { d with inputMaps := d.inputMaps ++ [map] }
  | .argumentMap map => { d with argumentMaps := d.argumentMaps ++ [map] }
  | .fieldConfig config => { d with fieldConfigs := d.fieldConfigs ++ [config] }
  | .enumValues source => { d with enumValues := d.enumValues ++ [source] }
  | .mutation m => { d with mutations := d.mutations ++ [m] }

/-- A piece that is of its kind, and no mutation. -/
def Addition.IsPart : Addition → Prop
  | .note _ => True
  | .outputMap map => map.IsWellKinded .output
  | .inputMap map => map.IsWellKinded .input
  | .argumentMap map => map.IsWellKinded .arguments
  | .fieldConfig config => config.config.IsWellKinded
  | .enumValues source => source.IsWellKinded .enumValues
  | .mutation _ => False

/-- Such a piece is added. -/
def AddsPart (d d' : Definitions) : Prop := ∃ a : Addition, a.IsPart ∧ d' = d.add a

section Pieces

variable {d d' : Definitions}

/-- Notes are such pieces. -/
lemma addsParts_noted (d : Definitions) (notes : List Diagnostic) :
    ReflTransGen AddsPart d (d.noted notes) := by
  induction notes using List.reverseRecOn with
  | nil => rw [d.noted_nil]
  | append_singleton notes note ih =>
      refine ih.tail ⟨.note note, trivial, ?_⟩
      rw [← d.noted_noted]
      rfl

/-- A piece that is no mutation leaves mutations alone, and maps where they
are. -/
lemma AddsPart.leaves (h : AddsPart d d') :
    d'.mutations = d.mutations ∧ d.inputMaps <+: d'.inputMaps ∧ d.outputMaps <+: d'.outputMaps := by
  obtain ⟨a, ha, rfl⟩ := h
  cases a with
  | inputMap map => exact ⟨rfl, List.prefix_append _ _, List.prefix_rfl⟩
  | outputMap map => exact ⟨rfl, List.prefix_rfl, List.prefix_append _ _⟩
  | mutation m => cases ha
  | _ => exact ⟨rfl, List.prefix_rfl, List.prefix_rfl⟩

lemma leaves_of_addsParts (h : ReflTransGen AddsPart d d') :
    d'.mutations = d.mutations ∧ d.inputMaps <+: d'.inputMaps ∧ d.outputMaps <+: d'.outputMaps := by
  induction h with
  | refl => exact ⟨rfl, List.prefix_rfl, List.prefix_rfl⟩
  | tail _ hstep ih =>
      obtain ⟨hmutations, hinputs, houtputs⟩ := hstep.leaves
      exact ⟨hmutations.trans ih.1, ih.2.1.trans hinputs, ih.2.2.trans houtputs⟩

end Pieces

/-! ### Places -/

/-- A place is that of a map, if there is one. -/
def Refers (maps : List FieldMap) (place : Option ℕ) (own : Option FieldMap) : Prop :=
  place.map (maps[·]?) = own.map some

section Places

variable {maps later : List FieldMap} {place : Option ℕ} {own : Option FieldMap} {i : ℕ}

lemma refers_none : Refers maps none none := rfl

lemma refers_concat (maps : List FieldMap) (map : FieldMap) :
    Refers (maps ++ [map]) (some maps.length) (some map) := by
  rw [Refers, Option.map_some, Option.map_some, List.getElem?_concat_length]

lemma Refers.exists_getElem? (h : Refers maps (some i) own) :
    ∃ map, own = some map ∧ maps[i]? = some map := by
  rw [Refers, Option.map_some] at h
  obtain ⟨map, rfl, hmap⟩ := Option.map_eq_some_iff.mp h.symm
  exact ⟨map, rfl, hmap.symm⟩

lemma Refers.lt_length (h : Refers maps (some i) own) : i < maps.length := by
  obtain ⟨map, -, hmap⟩ := h.exists_getElem?
  exact (List.getElem?_eq_some_iff.mp hmap).1

/-- Maps that are added later change no place. -/
lemma Refers.mono (h : Refers maps place own) (hmaps : maps <+: later) :
    Refers later place own := by
  cases place with
  | none => exact h
  | some i =>
      obtain ⟨map, rfl, hmap⟩ := h.exists_getElem?
      obtain ⟨more, rfl⟩ := hmaps
      rw [Refers, Option.map_some, Option.map_some,
        List.getElem?_append_left (List.getElem?_eq_some_iff.mp hmap).1, hmap]

end Places

/-! ### Sound definitions -/

namespace Locator

/-- The properties and the span of the configuration of a mutation that a node
defines. -/
def mutationLiteral? (v : Vocabulary) : Node → Option (List Node × Span)
  | .call callee arguments _ _ =>
    if (expressionName? callee).any v.mutationHelpers.contains then
      match arguments.head?.map fun a => (argumentValue a).unwrap with
      | some (.object properties s) => some (properties, s)
      | _ => none
    else none
  | .declarator (.binding _ _ (some typing)) (some value) _ =>
    match annotatedKind? v typing, value.unwrap with
    | some .mutationConfig, .object properties s => some (properties, s)
    | _, _ => none
  | _ => none

/-- The configurations of mutations that nodes define. -/
def mutationLiterals (v : Vocabulary) (nodes : List Node) : List (List Node × Span) :=
  nodes.filterMap (mutationLiteral? v)

/-- The map that a property of a configuration is read as. -/
def ownMap? (setting : Setting) (kind : MapKind) (name : String) (properties : List Node) :
    Option FieldMap := do
  let (_, value) ← findProperty? setting.source name properties
  let (found, _) ← (fieldsSource kind value setting {}).toOption
  found.map?

end Locator

open Locator (Setting Search Reports mutationLiteral? mutationLiterals ownMap?)

/-- All maps that were found are of their kinds, and so are the arguments of
all configurations. -/
structure Definitions.IsWellKinded (d : Definitions) : Prop where
  outputMaps : ∀ map ∈ d.outputMaps, map.IsWellKinded .output
  inputMaps : ∀ map ∈ d.inputMaps, map.IsWellKinded .input
  argumentMaps : ∀ map ∈ d.argumentMaps, map.IsWellKinded .arguments
  fieldConfigs : ∀ config ∈ d.fieldConfigs, config.config.IsWellKinded
  enumValues : ∀ source ∈ d.enumValues, source.IsWellKinded .enumValues

/-- The mutations that were found are those of configurations, in their order.
Each refers to the maps that its own configuration is read as, and no two to one
place. -/
structure Definitions.IsLinked (setting : Setting) (literals : List (List Node × Span))
    (d : Definitions) : Prop where
  mutations : ∀ (k : ℕ) (m : Mutation), d.mutations[k]? = some m → ∃ properties,
    literals[k]? = some (properties, m.span) ∧
      Refers d.inputMaps m.inputMap (ownMap? setting .input "inputFields" properties) ∧
      Refers d.outputMaps m.outputMap (ownMap? setting .output "outputFields" properties)
  nodup_inputs : (d.mutations.filterMap (·.inputMap)).Nodup
  nodup_outputs : (d.mutations.filterMap (·.outputMap)).Nodup

/-- What was found is of its kinds, and the mutations refer to their own
maps. -/
structure Definitions.IsSound (setting : Setting) (literals : List (List Node × Span))
    (d : Definitions) : Prop extends d.IsWellKinded, d.IsLinked setting literals

/-- One piece is added, and what was found is sound before and after. -/
structure SoundlyAdds (setting : Setting) (literals : List (List Node × Span))
    (d d' : Definitions) : Prop where
  before : d.IsSound setting literals
  after : d'.IsSound setting literals
  exists_add : ∃ a, d' = d.add a

section Sound

variable {setting : Setting} {literals : List (List Node × Span)} {d d' : Definitions}

lemma Definitions.IsWellKinded.add_part {a : Addition} (h : d.IsWellKinded) (ha : a.IsPart) :
    (d.add a).IsWellKinded := by
  have hconcat {α : Type} {P : α → Prop} {as : List α} {a : α} (has : ∀ a ∈ as, P a) (ha : P a) :
      ∀ b ∈ as ++ [a], P b :=
    List.forall_mem_append.mpr ⟨has, List.forall_mem_singleton.mpr ha⟩
  cases a with
  | note n => exact ⟨h.outputMaps, h.inputMaps, h.argumentMaps, h.fieldConfigs, h.enumValues⟩
  | outputMap map => exact { h with outputMaps := hconcat h.outputMaps ha }
  | inputMap map => exact { h with inputMaps := hconcat h.inputMaps ha }
  | argumentMap map => exact { h with argumentMaps := hconcat h.argumentMaps ha }
  | fieldConfig config => exact { h with fieldConfigs := hconcat h.fieldConfigs ha }
  | enumValues source => exact { h with enumValues := hconcat h.enumValues ha }
  | mutation m => cases ha

/-- Mutations stay linked when maps are added. -/
lemma Definitions.IsLinked.of_addsPart (h : d.IsLinked setting literals) (hadds : AddsPart d d') :
    d'.IsLinked setting literals := by
  obtain ⟨hmutations, hinputs, houtputs⟩ := hadds.leaves
  refine ⟨fun k m hm => ?_, by rw [hmutations]; exact h.nodup_inputs,
    by rw [hmutations]; exact h.nodup_outputs⟩
  rw [hmutations] at hm
  obtain ⟨properties, hliteral, hinput, houtput⟩ := h.mutations k m hm
  exact ⟨properties, hliteral, hinput.mono hinputs, houtput.mono houtputs⟩

/-- Pieces that are no mutations keep what was found sound, all the way. -/
lemma Definitions.IsSound.of_addsParts (h : d.IsSound setting literals)
    (hadds : ReflTransGen AddsPart d d') :
    d'.IsSound setting literals ∧ ReflTransGen (SoundlyAdds setting literals) d d' := by
  induction hadds with
  | refl => exact ⟨h, .refl⟩
  | @tail t d' _ hstep ih =>
      have hlinked := ih.1.toIsLinked.of_addsPart hstep
      obtain ⟨a, ha, rfl⟩ := hstep
      have hsound : (t.add a).IsSound setting literals := ⟨ih.1.toIsWellKinded.add_part ha, hlinked⟩
      exact ⟨hsound, ih.2.tail ⟨ih.1, hsound, a, rfl⟩⟩

/-- A place behind all others is none of them. -/
lemma nodup_filterMap_concat {places : Mutation → Option ℕ} {mutations : List Mutation}
    {m : Mutation} (h : (mutations.filterMap places).Nodup)
    (hlt : ∀ m' ∈ mutations, ∀ i j, places m' = some i → places m = some j → i < j) :
    ((mutations ++ [m]).filterMap places).Nodup := by
  rw [List.filterMap_append, List.nodup_append]
  refine ⟨h, ?_, fun i hi j hj => ?_⟩
  · cases hplace : places m <;> simp [hplace]
  · obtain ⟨m', hm', hi⟩ := List.mem_filterMap.mp hi
    obtain ⟨m'', hm'', hj⟩ := List.mem_filterMap.mp hj
    rw [List.mem_singleton.mp hm''] at hj
    exact (hlt m' hm' i j hi hj).ne

/-- A mutation with places that are new stays linked with those before it. -/
lemma Definitions.IsLinked.add_mutation (h : d.IsLinked setting literals) {m : Mutation}
    {properties : List Node} (hliteral : literals[d.mutations.length]? = some (properties, m.span))
    (hinput : Refers d.inputMaps m.inputMap (ownMap? setting .input "inputFields" properties))
    (houtput : Refers d.outputMaps m.outputMap
      (ownMap? setting .output "outputFields" properties))
    (hinputs : ∀ m' ∈ d.mutations, ∀ i j, m'.inputMap = some i → m.inputMap = some j → i < j)
    (houtputs : ∀ m' ∈ d.mutations, ∀ i j, m'.outputMap = some i → m.outputMap = some j → i < j) :
    (d.add (.mutation m)).IsLinked setting literals := by
  refine ⟨fun k m' hm' => ?_, nodup_filterMap_concat h.nodup_inputs hinputs,
    nodup_filterMap_concat h.nodup_outputs houtputs⟩
  change (d.mutations ++ [m])[k]? = some m' at hm'
  rcases Nat.lt_trichotomy k d.mutations.length with hlt | rfl | hgt
  · rw [List.getElem?_append_left hlt] at hm'
    exact h.mutations k m' hm'
  · rw [List.getElem?_concat_length, Option.some.injEq] at hm'
    subst hm'
    exact ⟨properties, hliteral, hinput, houtput⟩
  · have hlt := (List.getElem?_eq_some_iff.mp hm').1
    rw [List.length_append, List.length_singleton] at hlt
    omega

/-- The places of mutations are those of maps that were found. -/
lemma Definitions.IsLinked.places_lt (h : d.IsLinked setting literals) {m : Mutation}
    (hm : m ∈ d.mutations) : (∀ i, m.inputMap = some i → i < d.inputMaps.length) ∧
      ∀ i, m.outputMap = some i → i < d.outputMaps.length := by
  obtain ⟨k, hk⟩ := List.mem_iff_getElem?.mp hm
  obtain ⟨properties, -, hinput, houtput⟩ := h.mutations k m hk
  refine ⟨fun i hi => ?_, fun i hi => ?_⟩
  · rw [hi] at hinput
    exact hinput.lt_length
  · rw [hi] at houtput
    exact houtput.lt_length

end Sound

/-! ### Steps of the search -/

namespace Locator

variable {setting : Setting} {α β : Type} {P : α → Prop} {Q : β → Prop} {d d' : Definitions}

/-- A step of the search that adds pieces, but no mutations. -/
def AddsParts (setting : Setting) (P : α → Prop) (p : Search α) : Prop :=
  ∀ start, Ensures (ReflTransGen AddsPart start) (p setting) P

namespace AddsParts

protected lemma pure {a : α} (ha : P a) : AddsParts setting P (pure a) :=
  fun _ => Ensures.pure ha

protected lemma bind {p : Search α} {next : α → Search β} (h : AddsParts setting P p)
    (hnext : ∀ a, P a → AddsParts setting Q (next a)) : AddsParts setting Q (p >>= next) :=
  fun start => (h start).bind fun a ha => hnext a ha start

protected lemma discard {p : Search α} (h : AddsParts setting P p) :
    AddsParts setting (fun _ => True) (discard p) :=
  h.bind fun _ _ => .pure trivial

/-- A step that goes on with the setting. -/
protected lemma read {next : Setting → Search β} (h : AddsParts setting Q (next setting)) :
    AddsParts setting Q (read >>= next) := h

/-- A step that only leaves notes. -/
lemma of_reports {p : Search α} (h : Reports setting P p) : AddsParts setting P p := by
  intro start d hd a d' hrun
  obtain ⟨ha, notes, hnotes⟩ := h.of_run hrun
  rw [hnotes] at hrun
  cases hrun
  exact ⟨hd.trans (addsParts_noted d notes), ha⟩

protected lemma add {a : Addition} (ha : a.IsPart) :
    AddsParts setting (fun _ => True) (modify fun d => d.add a) := by
  intro start d hd _ d' hrun
  cases hrun
  exact ⟨hd.tail ⟨a, ha, rfl⟩, trivial⟩

end AddsParts

/-! ### Maps -/

/-- A step that adds the map of a source behind those of its kind, and answers
its place.  Without a map it only leaves notes. -/
structure AddsMaps (setting : Setting) (kind : MapKind) (maps : Definitions → List FieldMap)
    (add : FieldsSource → Search (Option ℕ)) : Prop where
  maps_noted : ∀ d notes, maps (d.noted notes) = maps d
  known : ∀ found map d, found.map? = some map → ∃ a : Addition,
    (map.IsWellKinded kind → a.IsPart) ∧ maps (d.add a) = maps d ++ [map] ∧
      add found setting d = .ok (some (maps d).length, d.add a)
  unknown : ∀ found d, found.map? = none →
    ∃ notes, add found setting d = .ok (none, d.noted notes)

lemma addsMaps_addInputMap : AddsMaps setting .input (·.inputMaps) addInputMap where
  maps_noted _ _ := rfl
  known found map d h := by
    cases found with
    | inline => cases h; exact ⟨.inputMap map, id, rfl, rfl⟩
    | deferred => cases h; exact ⟨.inputMap map, id, rfl, rfl⟩
    | _ => cases h
  unknown found d h := by
    cases found with
    | inline => cases h
    | deferred => cases h
    | _ => exact ⟨[.warning _ _], rfl⟩

lemma addsMaps_addOutputMap : AddsMaps setting .output (·.outputMaps) addOutputMap where
  maps_noted _ _ := rfl
  known found map d h := by
    cases found with
    | inline => cases h; exact ⟨.outputMap map, id, rfl, rfl⟩
    | deferred => cases h; exact ⟨.outputMap map, id, rfl, rfl⟩
    | _ => cases h
  unknown found d h := by
    cases found with
    | inline => cases h
    | deferred => cases h
    | _ => exact ⟨[.warning _ _], rfl⟩

section Maps

variable {kind : MapKind} {maps : Definitions → List FieldMap}
  {add : FieldsSource → Search (Option ℕ)} {place : Option ℕ}

/-- The place that is answered is that of the map, behind those that were
there. -/
lemma AddsMaps.of_run (hadd : AddsMaps setting kind maps add) {found : FieldsSource}
    (hfound : found.IsWellKinded kind) (hrun : add found setting d = .ok (place, d')) :
    ReflTransGen AddsPart d d' ∧ Refers (maps d') place found.map? ∧
      ∀ i, place = some i → (maps d).length ≤ i := by
  cases hmap : found.map? with
  | none =>
      obtain ⟨notes, h⟩ := hadd.unknown found d hmap
      rw [h] at hrun
      cases hrun
      exact ⟨addsParts_noted d notes, refers_none, fun i hi => by cases hi⟩
  | some map =>
      obtain ⟨a, ha, hmaps, h⟩ := hadd.known found map d hmap
      rw [h] at hrun
      cases hrun
      refine ⟨.single ⟨a, ha (hfound map hmap), rfl⟩, ?_, ?_⟩
      · rw [hmaps]
        exact refers_concat _ _
      · rintro i ⟨⟩
        exact le_rfl

lemma AddsMaps.addsParts (hadd : AddsMaps setting kind maps add) {found : FieldsSource}
    (hfound : found.IsWellKinded kind) : AddsParts setting (fun _ => True) (add found) :=
  fun _ _ hd _ _ hrun => ⟨hd.trans (hadd.of_run hfound hrun).1, trivial⟩

/-- Adds the map that a property is read as, if there is one. -/
def linkMap (add : FieldsSource → Search (Option ℕ)) (kind : MapKind) :
    Option (Span × PropertyValue) → Search (Option ℕ)
  | some (_, value) => do add (← fieldsSource kind value)
  | none => return none

/-- The map that a property is read as does not depend on what was found
before. -/
lemma ownMap?_of_run {name : String} {properties : List Node} {span : Span} {value : PropertyValue}
    {found : FieldsSource}
    (hfind : findProperty? setting.source name properties = some (span, value))
    (hread : fieldsSource kind value setting d = .ok (found, d')) :
    ownMap? setting kind name properties = found.map? := by
  obtain ⟨-, notes, hnotes⟩ := (reports_fieldsSource kind value).of_run hread
  simp only [ownMap?, hfind, Option.bind_eq_bind, Option.bind_some, hnotes]
  rfl

/-- The place that is answered is that of the configuration's own map. -/
lemma linkMap_run (hadd : AddsMaps setting kind maps add) {name : String} {properties : List Node}
    (hrun : linkMap add kind (findProperty? setting.source name properties) setting d =
      .ok (place, d')) :
    ReflTransGen AddsPart d d' ∧ Refers (maps d') place (ownMap? setting kind name properties) ∧
      ∀ i, place = some i → (maps d).length ≤ i := by
  cases hfind : findProperty? setting.source name properties with
  | none =>
      rw [hfind] at hrun
      cases hrun
      refine ⟨.refl, ?_, fun i hi => by cases hi⟩
      rw [ownMap?, hfind]
      exact refers_none
  | some property =>
      obtain ⟨span, value⟩ := property
      rw [hfind] at hrun
      obtain ⟨⟨found, t⟩, hread, hrun⟩ := exists_ok_of_bind hrun
      obtain ⟨hfound, notes, hnotes⟩ := (reports_fieldsSource kind value).of_run hread
      have ht : d.noted notes = t := congrArg Prod.snd (Except.ok.inj ((hnotes d).symm.trans hread))
      subst ht
      obtain ⟨hadds, hrefers, hplace⟩ := hadd.of_run hfound hrun
      rw [hadd.maps_noted] at hplace
      rw [ownMap?_of_run hfind hread]
      exact ⟨(addsParts_noted d notes).trans hadds, hrefers, hplace⟩

end Maps

/-! ### Nodes -/

lemma read_apply (next : Setting → Search β) : (read >>= next) setting = next setting setting := rfl

/-- The maps of a mutation are added, and then the mutation with their
places. -/
lemma mutationConfig_eq (properties : List Node) (s : Span) : mutationConfig properties s setting =
    (do
      let inputMap ← linkMap addInputMap .input
        (findProperty? setting.source "inputFields" properties)
      let outputMap ← linkMap addOutputMap .output
        (findProperty? setting.source "outputFields" properties)
      let payload := (findProperty? setting.source "mutateAndGetPayload" properties).map
        fun (span, value) =>
          (⟨span, PropertyValue.resolver? setting.source value⟩ : ResolverProperty)
      modify (·.add (.mutation ⟨s, inputMap, outputMap, payload⟩)) : Search Unit) setting := by
  unfold mutationConfig
  rw [read_apply]
  dsimp only
  cases findProperty? setting.source "inputFields" properties <;>
    cases findProperty? setting.source "outputFields" properties <;> rfl

/-- A run of it leaves the mutation with the places of its own maps. -/
lemma mutationConfig_run {properties : List Node} {s : Span}
    (hrun : mutationConfig properties s setting d = .ok ((), d')) :
    ∃ t m, ReflTransGen AddsPart d t ∧ d' = t.add (.mutation m) ∧ m.span = s ∧
      Refers t.inputMaps m.inputMap (ownMap? setting .input "inputFields" properties) ∧
      Refers t.outputMaps m.outputMap (ownMap? setting .output "outputFields" properties) ∧
      (∀ i, m.inputMap = some i → d.inputMaps.length ≤ i) ∧
      ∀ i, m.outputMap = some i → d.outputMaps.length ≤ i := by
  rw [mutationConfig_eq] at hrun
  obtain ⟨⟨inputMap, t⟩, hinput, hrun⟩ := exists_ok_of_bind hrun
  obtain ⟨⟨outputMap, t'⟩, houtput, hrun⟩ := exists_ok_of_bind hrun
  cases hrun
  obtain ⟨hadds, hrefers, hplace⟩ := linkMap_run addsMaps_addInputMap hinput
  obtain ⟨hadds', hrefers', hplace'⟩ := linkMap_run addsMaps_addOutputMap houtput
  exact ⟨t', _, hadds.trans hadds', rfl, rfl, hrefers.mono (leaves_of_addsParts hadds').2.1,
    hrefers', hplace,
    fun i hi => (leaves_of_addsParts hadds).2.2.length_le.trans (hplace' i hi)⟩

lemma addsParts_constructorCall (callee : Node) (arguments : List Node) (s : Span) :
    AddsParts setting (fun _ => True) (constructorCall callee arguments s) := by
  unfold constructorCall
  refine .read ?_
  split
  next => exact .pure trivial
  next =>
    split
    next => exact .pure trivial
    next kind property hkind =>
      split
      next =>
        split
        next => exact .of_reports (.stop _)
        next span value _ =>
          refine .bind (.of_reports (reports_fieldsSource kind value)) fun found hfound => ?_
          cases kind with
          | enumValues => exact .add (a := .enumValues found) hfound
          | input => exact (addsMaps_addInputMap.addsParts hfound).discard
          | output => exact (addsMaps_addOutputMap.addsParts hfound).discard
          | arguments =>
              -- no constructor holds arguments
              rw [constructorKind?] at hkind
              split_ifs at hkind <;> cases hkind
      next => exact .of_reports (.stop _)

lemma visit_of_mutationLiteral? {n : Node} {properties : List Node} {s : Span}
    (h : mutationLiteral? setting.vocabulary n = some (properties, s)) :
    visit n setting = mutationConfig properties s setting := by
  unfold mutationLiteral? at h
  split at h
  next callee arguments types t =>
    split_ifs at h with hhelper
    split at h
    next hobject =>
      cases h
      change mutationHelperCall callee arguments t setting = _
      unfold mutationHelperCall
      rw [read_apply, if_pos hhelper, hobject]
    next => cases h
  next name t typing value t' =>
    split at h
    next hkind hobject =>
      cases h
      change typedDeclaration name typing value setting = _
      unfold typedDeclaration
      rw [read_apply, hkind]
      dsimp only
      rw [hobject]
    next => cases h
  next => cases h

lemma addsParts_mutationHelperCall {callee : Node} {arguments types : List Node} {s : Span}
    (h : mutationLiteral? setting.vocabulary (.call callee arguments types s) = none) :
    AddsParts setting (fun _ => True) (mutationHelperCall callee arguments s) := by
  unfold mutationHelperCall
  refine .read ?_
  dsimp only
  split_ifs with hhelper
  · split
    next properties t hobject =>
      rw [mutationLiteral?, if_pos hhelper, hobject] at h
      cases h
    next => exact .of_reports (.warn _ _)
    next => exact .of_reports (.warn _ _)
  · exact .pure trivial

lemma addsParts_typedDeclaration {name : String} {t t' : Span} {typing value : Node}
    (h : mutationLiteral? setting.vocabulary
      (.declarator (.binding name t (some typing)) (some value) t') = none) :
    AddsParts setting (fun _ => True) (typedDeclaration name typing value) := by
  unfold typedDeclaration
  refine .read ?_
  split
  next => exact .pure trivial
  next =>
    exact (AddsParts.of_reports (reports_thunkSource .output value)).bind fun _ hfound =>
      (addsMaps_addOutputMap.addsParts hfound).discard
  next =>
    exact (AddsParts.of_reports (reports_thunkSource .input value)).bind fun _ hfound =>
      (addsMaps_addInputMap.addsParts hfound).discard
  next =>
    split
    next properties s _ =>
      exact (AddsParts.of_reports (reports_fieldMap .arguments properties s)).bind fun map hmap =>
        .add (a := .argumentMap map) hmap
    next => exact .of_reports (.warn _ _)
  next =>
    split
    next properties s _ =>
      have hnew := wellKinded_passesOn.empty_config s
      exact (AddsParts.of_reports (reports_fieldConfig wellKinded_passesOn hnew properties)).bind
        fun config hconfig => .add (a := .fieldConfig ⟨name, config⟩) hconfig
    next => exact .pure trivial
  next hkind =>
    split
    next properties s hobject =>
      rw [mutationLiteral?, hkind, hobject] at h
      cases h
    next => exact .of_reports (.warn _ _)

/-- A node that defines no mutation only adds other pieces. -/
lemma addsParts_visit {n : Node} (h : mutationLiteral? setting.vocabulary n = none) :
    AddsParts setting (fun _ => True) (visit n) := by
  unfold visit
  split
  next => exact addsParts_constructorCall _ _ _
  next => exact addsParts_mutationHelperCall h
  next => exact addsParts_typedDeclaration h
  next => exact .pure trivial

/-! ### The search -/

section Run

variable {literals earlier later : List (List Node × Span)}

/-- To visit a node keeps what was found sound, all the way, and adds the mutation
that it defines. -/
lemma isSound_of_visit {n : Node} (h : d.IsSound setting literals)
    (hdone : d.mutations.length = earlier.length)
    (hliterals : literals = earlier ++ (mutationLiteral? setting.vocabulary n).toList ++ later)
    (hrun : visit n setting d = .ok ((), d')) :
    d'.IsSound setting literals ∧ ReflTransGen (SoundlyAdds setting literals) d d' ∧
      d'.mutations.length =
        (earlier ++ (mutationLiteral? setting.vocabulary n).toList).length := by
  cases hliteral : mutationLiteral? setting.vocabulary n with
  | none =>
      obtain ⟨hadds, -⟩ := addsParts_visit hliteral d d .refl () d' hrun
      obtain ⟨hsound, hsoundly⟩ := h.of_addsParts hadds
      refine ⟨hsound, hsoundly, ?_⟩
      rw [(leaves_of_addsParts hadds).1, hdone, Option.toList_none, List.append_nil]
  | some literal =>
      obtain ⟨properties, s⟩ := literal
      rw [visit_of_mutationLiteral? hliteral] at hrun
      obtain ⟨t, m, hadds, rfl, rfl, hinput, houtput, hinputs, houtputs⟩ := mutationConfig_run hrun
      obtain ⟨hsound, hsoundly⟩ := h.of_addsParts hadds
      have hmutations := (leaves_of_addsParts hadds).1
      have hplace : literals[t.mutations.length]? = some (properties, m.span) := by
        rw [hliterals, hliteral, hmutations, hdone, Option.toList_some, List.append_assoc,
          List.getElem?_append_right le_rfl, Nat.sub_self]
        rfl
      -- places of mutations before this one are those of maps that were there
      have hlinked := hsound.toIsLinked.add_mutation hplace hinput houtput
        (fun m' hm' i j hi hj => ((h.places_lt (hmutations ▸ hm')).1 i hi).trans_le (hinputs j hj))
        (fun m' hm' i j hi hj => ((h.places_lt (hmutations ▸ hm')).2 i hi).trans_le (houtputs j hj))
      have hkinded : (t.add (.mutation m)).IsWellKinded :=
        ⟨hsound.outputMaps, hsound.inputMaps, hsound.argumentMaps, hsound.fieldConfigs,
          hsound.enumValues⟩
      refine ⟨⟨hkinded, hlinked⟩, hsoundly.tail ⟨hsound, ⟨hkinded, hlinked⟩, _, rfl⟩, ?_⟩
      change (t.mutations ++ [m]).length = _
      rw [hmutations, List.length_append, List.length_append, hdone]
      rfl

/-- The same of a row of nodes. -/
lemma isSound_of_visitAll {ns : List Node} (h : d.IsSound setting literals)
    (hdone : d.mutations.length = earlier.length)
    (hliterals : literals = earlier ++ mutationLiterals setting.vocabulary ns ++ later)
    (hrun : ns.forM visit setting d = .ok ((), d')) :
    d'.IsSound setting literals ∧ ReflTransGen (SoundlyAdds setting literals) d d' ∧
      d'.mutations.length = (earlier ++ mutationLiterals setting.vocabulary ns).length := by
  induction ns generalizing d earlier with
  | nil =>
      cases hrun
      exact ⟨h, .refl, by rw [hdone, mutationLiterals, List.filterMap_nil, List.append_nil]⟩
  | cons n ns ih =>
      rw [List.forM_eq_forM, List.forM_cons, bind_apply] at hrun
      obtain ⟨⟨⟨⟩, t⟩, hfirst, hrun⟩ := exists_ok_of_bind hrun
      have hsplit : mutationLiterals setting.vocabulary (n :: ns) =
          (mutationLiteral? setting.vocabulary n).toList ++
            mutationLiterals setting.vocabulary ns := by
        rw [mutationLiterals, List.filterMap_cons]
        cases mutationLiteral? setting.vocabulary n <;> rfl
      rw [hsplit, ← List.append_assoc] at hliterals ⊢
      obtain ⟨hsound, hsoundly, hlength⟩ := isSound_of_visit h hdone
        (by rw [hliterals, List.append_assoc]) hfirst
      obtain ⟨hsound', hsoundly', hlength'⟩ := ih hsound hlength hliterals hrun
      exact ⟨hsound', hsoundly.trans hsoundly', hlength'⟩

end Run

end Locator

/-- Nothing that was found is sound. -/
lemma isSound_empty (setting : Setting) (literals : List (List Node × Span)) :
    Definitions.IsSound setting literals {} := by
  refine ⟨⟨?_, ?_, ?_, ?_, ?_⟩, ⟨?_, ?_, ?_⟩⟩ <;> simp

/-- The nodes of a script are visited one after another. -/
lemma visitAll_of_locate {vocabulary : Vocabulary} {source : Source} {d : Definitions}
    (h : locate vocabulary source = .ok d) :
    source.script.preorder.forM Locator.visit ⟨source, vocabulary⟩ {} = .ok ((), d) := by
  obtain ⟨⟨⟨⟩, found⟩, hrun, hfound⟩ := exists_ok_of_bind h
  cases hfound
  exact hrun

/-- Where a search over a row of nodes is sound, it is on the way too. -/
lemma exists_isSound_between {setting : Setting} {before after : List Node} {d : Definitions}
    (hrun : (before ++ after).forM Locator.visit setting {} = .ok ((), d)) :
    let literals := mutationLiterals setting.vocabulary (before ++ after)
    ∃ t, before.forM Locator.visit setting {} = .ok ((), t) ∧ t.IsSound setting literals ∧
      t.mutations.length = (mutationLiterals setting.vocabulary before).length ∧
      ReflTransGen (SoundlyAdds setting literals) {} t ∧
      ReflTransGen (SoundlyAdds setting literals) t d ∧
      d.IsSound setting literals ∧ d.mutations.length = literals.length := by
  intro literals
  have hliterals : literals = mutationLiterals setting.vocabulary before ++
      mutationLiterals setting.vocabulary after := List.filterMap_append
  rw [List.forM_eq_forM, List.forM_append] at hrun
  obtain ⟨⟨⟨⟩, t⟩, hbefore, hafter⟩ := exists_ok_of_bind hrun
  have hfirst : literals = [] ++ mutationLiterals setting.vocabulary before ++
      mutationLiterals setting.vocabulary after := hliterals
  obtain ⟨hsound, hsoundly, hlength⟩ :=
    Locator.isSound_of_visitAll (isSound_empty setting literals) rfl hfirst hbefore
  have hlater : literals = mutationLiterals setting.vocabulary before ++
      mutationLiterals setting.vocabulary after ++ [] := by rw [hliterals, List.append_nil]
  obtain ⟨hsound', hsoundly', hlength'⟩ :=
    Locator.isSound_of_visitAll hsound hlength hlater hafter
  exact ⟨t, hbefore, hsound, hlength, hsoundly, hsoundly', hsound', hliterals ▸ hlength'⟩

/-- **The search is sound at any time.**  Let the definitions of a script be
found.  They are sound: maps are of their kinds, and so are the arguments of all
configurations at any depth; the mutations are those of the configurations in the
script, and each refers to the maps that its own configuration is read as, no two
to one place.  What was found when any part of the nodes had been visited is sound
as well, and so is whatever was found on the way there and on the way from there,
as one piece was added to the other. -/
theorem Definitions.isSound_of_locate {vocabulary : Vocabulary} {source : Source} {d : Definitions}
    (h : locate vocabulary source = .ok d) :
    let setting : Setting := ⟨source, vocabulary⟩
    let literals := mutationLiterals vocabulary source.script.preorder
    d.IsSound setting literals ∧ d.mutations.length = literals.length ∧
      ∀ before after, source.script.preorder = before ++ after →
        ∃ t, before.forM Locator.visit setting {} = .ok ((), t) ∧
          t.IsSound setting literals ∧
          t.mutations.length = (mutationLiterals vocabulary before).length ∧
          ReflTransGen (SoundlyAdds setting literals) {} t ∧
          ReflTransGen (SoundlyAdds setting literals) t d := by
  intro setting literals
  have hall := visitAll_of_locate h
  obtain ⟨-, -, -, -, -, -, hsound, hlength⟩ :=
    @exists_isSound_between setting [] source.script.preorder d hall
  refine ⟨hsound, hlength, fun before after hsplit => ?_⟩
  rw [hsplit] at hall
  obtain ⟨t, hrun, hbetween, hcount, hfrom, hto, -⟩ := exists_isSound_between hall
  rw [← hsplit] at hbetween hfrom hto
  exact ⟨t, hrun, hbetween, hcount, hfrom, hto⟩

/-- A type and a mutation, each with a map of output fields. -/
def showMutation : String :=
  "new GraphQLObjectType(\x7b fields: \x7b a: x \x7d \x7d);\n" ++
    "mutationWithClientMutationId(" ++
    "\x7b inputFields: \x7b b: y \x7d, outputFields: \x7b c: z \x7d \x7d)"

theorem definitions_of_showMutation_isSound : ∃ source d,
    Source.parse .typeScript showMutation = .ok source ∧ locate {} source = .ok d ∧
      d.mutations.map (fun m => (m.inputMap, m.outputMap)) = [(some 0, some 1)] ∧
      d.outputMaps.length = 2 ∧
      d.IsSound ⟨source, {}⟩ (mutationLiterals {} source.script.preorder) := by
  have hcheck : (Source.parse .typeScript showMutation).toOption.any (fun source =>
      (locate {} source).toOption.any fun d => decide (
        d.mutations.map (fun m => (m.inputMap, m.outputMap)) = [(some 0, some 1)] ∧
          d.outputMaps.length = 2)) = true := by
    decide +kernel
  obtain ⟨source, hparse, hholds⟩ := Option.any_eq_true _ _ |>.mp hcheck
  obtain ⟨d, hlocate, hholds⟩ := Option.any_eq_true _ _ |>.mp hholds
  obtain ⟨hplaces, htwo⟩ := of_decide_eq_true hholds
  have hlocated := eq_ok_of_toOption hlocate
  exact ⟨source, d, eq_ok_of_toOption hparse, hlocated, hplaces, htwo,
    (Definitions.isSound_of_locate hlocated).1⟩

end GraphMigrate
