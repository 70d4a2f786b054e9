/-
Definitions are read off the literals of a script.

Each step of the search adds what is read off the object literals at its site.
All sites together read each literal at most once; so however the definitions of
a script nest, no two maps are read off one literal.

* `Definitions.allMaps`, `Definitions.allConfigs`: maps and configurations at any
  depth;
* `Locator.Adds`: a step of the search, with the literals that it reads;
* `adds_visit`: one node;
* `readOff_of_locate`: **what is found in a script is read off its literals, each
  map off one of its own**.
-/
import GraphMigrate.Proofs.Definitions.CrossReferences
import GraphMigrate.Proofs.Definitions.Mirrors

namespace GraphMigrate

open Script (Node Role Source)

/-! ### Definitions -/

namespace Definitions

/-- The maps that are definitions of their own. -/
def topMaps (d : Definitions) : List FieldMap :=
  d.outputMaps ++ d.inputMaps ++ d.argumentMaps ++ d.enumValues.filterMap (·.map?)

/-- The configurations of fields, in maps at any depth or on their own. -/
def allConfigs (d : Definitions) : List FieldConfig :=
  configsIn d.allFields ++ d.fieldConfigs.map (·.config)

/-- The maps that are definitions of their own, and the arguments of fields. -/
def allMaps (d : Definitions) : List FieldMap :=
  d.topMaps ++ d.allConfigs.filterMap (·.argumentMap?)

/-- What was found is read off nodes. -/
def ReadOff (nodes literals : List Node) (d : Definitions) : Prop :=
  PartsFrom nodes literals d.topMaps d.allConfigs

end Definitions

/-- The maps that a piece of what is found adds. -/
def Addition.maps : Addition → List FieldMap
  | .outputMap map | .inputMap map | .argumentMap map => [map]
  | .enumValues source => source.map?.toList
  | _ => []

/-- The configurations that a piece of what is found adds. -/
def Addition.configs : Addition → List FieldConfig
  | .outputMap map | .inputMap map | .argumentMap map => configsIn map.allFields
  | .enumValues source => configsIn source.allFields
  | .fieldConfig config => config.config :: configsIn config.config.allFields
  | _ => []

lemma filterMap_singleton_toList {α β : Type} (f : α → Option β) (a : α) :
    [a].filterMap f = (f a).toList := by
  rw [List.filterMap_cons]
  cases f a <;> rfl

lemma topMaps_add (d : Definitions) (a : Addition) :
    (d.add a).topMaps.Perm (d.topMaps ++ a.maps) := by
  classical
  refine List.perm_iff_count.mpr fun map => ?_
  cases a with
  | _ =>
      simp only [Definitions.topMaps, Definitions.add, Addition.maps, List.filterMap_append,
        filterMap_singleton_toList, List.count_append, List.count_nil]
      omega

lemma allConfigs_add (d : Definitions) (a : Addition) :
    (d.add a).allConfigs.Perm (d.allConfigs ++ a.configs) := by
  classical
  refine List.perm_iff_count.mpr fun config => ?_
  cases a with
  | _ =>
      simp only [Definitions.allConfigs, Definitions.allFields, Definitions.add, Addition.configs,
        List.flatMap_append, List.flatMap_singleton, configsIn_append, List.map_append,
        List.map_cons, List.map_nil, List.count_append, List.count_cons, List.count_nil]
      omega

/-- One more piece that is read off other nodes. -/
lemma Definitions.ReadOff.add {nodes nodes' literals literals' : List Node} {d : Definitions}
    {a : Addition} (h : d.ReadOff nodes literals)
    (ha : PartsFrom nodes' literals' a.maps a.configs) :
    (d.add a).ReadOff (nodes ++ nodes') (literals ++ literals') :=
  (PartsFrom.append h ha).perm (topMaps_add d a) (allConfigs_add d a)

lemma Definitions.ReadOff.noted {nodes literals : List Node} {d : Definitions}
    (h : d.ReadOff nodes literals) (notes : List Diagnostic) :
    (d.noted notes).ReadOff nodes literals := h

/-! ### Steps of the search -/

namespace Locator

variable {setting : Setting} {α β : Type} {P : α → Prop}
  {nodes nodes' literals literals' : List Node}

/-- A step of the search that only adds what is read off some nodes. -/
def Adds (setting : Setting) (nodes literals : List Node) (p : Search α) : Prop :=
  ∀ d a d' before own, p setting d = .ok (a, d') → d.ReadOff before own →
    d'.ReadOff (before ++ nodes) (own ++ literals)

namespace Adds

lemma mono {p : Search α} (h : Adds setting nodes literals p) (hnodes : nodes ⊆ nodes')
    (hliterals : literals.Subperm literals') : Adds setting nodes' literals' p := by
  intro d a d' before own hrun hd
  refine PartsFrom.mono (h d a d' before own hrun hd) ?_ ((List.Subperm.refl own).append hliterals)
  exact List.append_subset.mpr
    ⟨List.subset_append_left _ _, List.subset_append_of_subset_right _ hnodes⟩

lemma of_eq {p q : Search α} (h : p setting = q setting) (hq : Adds setting nodes literals q) :
    Adds setting nodes literals p := by
  intro d a d' before own hrun
  rw [h] at hrun
  exact hq d a d' before own hrun

protected lemma bind {p : Search α} {next : α → Search β} (h : Adds setting nodes literals p)
    (hnext : ∀ a, Adds setting nodes' literals' (next a)) :
    Adds setting (nodes ++ nodes') (literals ++ literals') (p >>= next) := by
  intro d b d' before own hrun hd
  obtain ⟨⟨a, t⟩, hp, hrun⟩ := exists_ok_of_bind hrun
  have := hnext a t b d' _ _ hrun (h d a t before own hp hd)
  rwa [List.append_assoc, List.append_assoc] at this

/-- A step that goes on with what another answered and adds what that is read
off. -/
lemma reports_bind {p : Search α} {next : α → Search β} (h : Reports setting P p)
    (hnext : ∀ a, P a → Adds setting nodes literals (next a)) :
    Adds setting nodes literals (p >>= next) := by
  intro d b d' before own hrun hd
  obtain ⟨⟨a, t⟩, hp, hrun⟩ := exists_ok_of_bind hrun
  obtain ⟨ha, notes, hnotes⟩ := h.of_run hp
  rw [hnotes] at hp
  cases hp
  exact hnext a ha _ b d' before own hrun (hd.noted notes)

protected lemma read {next : Setting → Search β} (h : Adds setting nodes literals (next setting)) :
    Adds setting nodes literals (read >>= next) := h

/-- A step that only leaves notes. -/
lemma of_reports {p : Search α} (h : Reports setting P p) : Adds setting nodes literals p := by
  intro d a d' before own hrun hd
  obtain ⟨-, notes, hnotes⟩ := h.of_run hrun
  rw [hnotes] at hrun
  cases hrun
  exact PartsFrom.mono (hd.noted notes) (List.subset_append_left _ _)
    (List.sublist_append_left _ _).subperm

protected lemma pure {a : α} : Adds setting nodes literals (pure a : Search α) :=
  of_reports (P := fun _ => True) (.pure trivial)

protected lemma add {a : Addition} (ha : PartsFrom nodes literals a.maps a.configs) :
    Adds setting nodes literals (modify fun d => d.add a) := by
  intro d _ d' before own hrun hd
  cases hrun
  exact hd.add ha

protected lemma discard {p : Search α} (h : Adds setting nodes literals p) :
    Adds setting nodes literals (discard p) := by
  have hnothing (_ : α) : Adds setting [] [] (pure PUnit.unit : Search PUnit) := .pure
  have hboth := h.bind hnothing
  rwa [List.append_nil, List.append_nil] at hboth

end Adds

/-- The map of a source is added, if it is known, with what is read in it. -/
lemma adds_of_source {add : FieldsSource → Search (Option ℕ)} (addition : FieldMap → Addition)
    (hmaps : ∀ map, (addition map).maps = [map])
    (hconfigs : ∀ map, (addition map).configs = configsIn map.allFields)
    (hknown : ∀ found map d, found.map? = some map →
      ∃ place, add found setting d = .ok (place, d.add (addition map)))
    (hunknown : ∀ found, found.map? = none → Reports setting (fun _ => True) (add found))
    {found : FieldsSource} (h : SourceFrom nodes literals found) :
    Adds setting nodes literals (add found) := by
  cases hmap : found.map? with
  | none => exact .of_reports (hunknown found hmap)
  | some map =>
      have hreads : PartsFrom nodes literals (addition map).maps (addition map).configs := by
        rw [hmaps, hconfigs]
        cases found with
        | inline => cases hmap; exact h
        | deferred => cases hmap; exact h
        | _ => cases hmap
      intro d a d' before own hrun hd
      obtain ⟨place, hadd⟩ := hknown found map d hmap
      rw [hadd] at hrun
      cases hrun
      exact hd.add hreads

lemma adds_addOutputMap {found : FieldsSource} (h : SourceFrom nodes literals found) :
    Adds setting nodes literals (addOutputMap found) := by
  refine adds_of_source .outputMap (fun _ => rfl) (fun _ => rfl)
    (fun found map d hmap => ?_) (fun found hmap => ?_) h
  · cases found <;> cases hmap <;> exact ⟨_, rfl⟩
  · cases found with
    | inline => cases hmap
    | deferred => cases hmap
    | _ => exact .warn_bind (.pure trivial)

lemma adds_addInputMap {found : FieldsSource} (h : SourceFrom nodes literals found) :
    Adds setting nodes literals (addInputMap found) := by
  refine adds_of_source .inputMap (fun _ => rfl) (fun _ => rfl)
    (fun found map d hmap => ?_) (fun found hmap => ?_) h
  · cases found <;> cases hmap <;> exact ⟨_, rfl⟩
  · cases found with
    | inline => cases hmap
    | deferred => cases hmap
    | _ => exact .warn_bind (.pure trivial)

/-- A map that is looked up is added with what is read in it. -/
lemma adds_linkMap {add : FieldsSource → Search (Option ℕ)}
    (hadd : ∀ nodes literals found, SourceFrom nodes literals found →
      Adds setting nodes literals (add found)) (kind : MapKind)
    (property : Option (Span × PropertyValue)) :
    Adds setting ((nodesOf property).flatMap Node.preorder)
      ((nodesOf property).flatMap (Node.literals .fields)) (linkMap add kind property) := by
  cases property with
  | none => exact .pure
  | some property =>
      have hnodes : nodesOf (some property) = property.2.nodes := List.append_nil _
      rw [hnodes]
      exact .reports_bind (reads_fieldsSource kind property.2) fun found => hadd _ _ found

/-- Nodes directly below properties are below the literal. -/
lemma flatMap_preorder_subset_of_properties {ns properties : List Node} {s : Span}
    (h : ns ⊆ properties.flatMap Node.children) :
    ns.flatMap Node.preorder ⊆ (Node.object properties s).preorder := by
  intro k hk
  obtain ⟨n, hn, hk⟩ := List.mem_flatMap.mp hk
  obtain ⟨p, hp, hn⟩ := List.mem_flatMap.mp (h hn)
  exact preorder_subset_of_mem_children (n := .object properties s) hp
    (preorder_subset_of_mem_children hn hk)

/-- A configuration of a mutation is read as a configuration is. -/
lemma adds_mutationConfig (properties : List Node) (s : Span) :
    Adds setting (Node.object properties s).preorder
      ((Node.object properties s).literals .config) (mutationConfig properties s) := by
  have hinput : Adds setting _ _ _ := adds_linkMap (fun _ _ _ => adds_addInputMap) .input
    (findProperty? setting.source "inputFields" properties)
  have houtput : Adds setting _ _ _ := adds_linkMap (fun _ _ _ => adds_addOutputMap) .output
    (findProperty? setting.source "outputFields" properties)
  have hmutation (m : Mutation) : Adds setting [] [] (modify fun d => d.add (.mutation m)) :=
    .add .nil
  refine .of_eq (mutationConfig_eq properties s) (Adds.mono (.bind hinput fun input =>
    .bind houtput fun output => hmutation _) ?_ ?_)
  · rw [List.append_nil]
    exact List.append_subset.mpr
      ⟨flatMap_preorder_subset_of_properties (nodesOf_findProperty? _ _ properties).1,
        flatMap_preorder_subset_of_properties (nodesOf_findProperty? _ _ properties).1⟩
  · rw [List.append_nil, Node.literals, Node.literalsAll_eq_flatMap]
    exact nodesOf_subperm (by decide) properties

/-- What is read off a value is read off the node that holds it. -/
lemma adds_of_unwrap {r : Role} {n m : Node} {p : Search α} (hm : n.unwrap = m)
    (h : Adds setting m.preorder (m.literals r) p) : Adds setting n.preorder (n.literals r) p := by
  subst hm
  rw [← literals_unwrap r n]
  exact h.mono (preorder_subset n.unwrap_mem_preorder) (List.Subperm.refl _)

lemma argumentValue_mem_preorder (argument : Node) :
    argumentValue argument ∈ argument.preorder := by
  unfold argumentValue
  split
  next dots value => exact Node.mem_preorder_of_mem_children (List.mem_singleton_self value)
  next => exact argument.self_mem_preorder

/-- A call reads its first argument as a configuration. -/
lemma adds_of_argument {arguments properties : List Node} {s : Span} {p : Search α}
    (hfirst : (arguments.head?.map fun a => (argumentValue a).unwrap) = some (.object properties s))
    (h : Adds setting (Node.object properties s).preorder
      ((Node.object properties s).literals .config) p) :
    Adds setting (arguments.flatMap Node.preorder)
      (arguments.flatMap (Node.literals .config)) p := by
  cases arguments with
  | nil => cases hfirst
  | cons first later =>
      have hvalue : (argumentValue first).literals .config = first.literals .config := by
        unfold argumentValue
        split
        next dots value => rw [Node.literals]
        next => rfl
      have hargument := adds_of_unwrap (Option.some.inj hfirst) h
      rw [hvalue] at hargument
      refine hargument.mono ?_ (List.sublist_append_left _ _).subperm
      exact fun k hk =>
        List.mem_append_left _ (preorder_subset (argumentValue_mem_preorder first) hk)

lemma adds_constructorCall (callee : Node) (arguments : List Node) (s : Span) :
    Adds setting (arguments.flatMap Node.preorder) (arguments.flatMap (Node.literals .config))
      (constructorCall callee arguments s) := by
  unfold constructorCall
  refine .read ?_
  split
  next => exact .pure
  next =>
    split
    next => exact .pure
    next kind property _ =>
      split
      next properties t hobject =>
        refine adds_of_argument hobject ?_
        split
        next => exact .of_reports (P := fun _ => True) (.stop _)
        next span value hfind =>
          have hnodes := nodesOf_findProperty? setting.source property properties
          rw [hfind, nodesOf, Option.toList_some, List.flatMap_singleton] at hnodes
          have hliterals : (value.nodes.flatMap (Node.literals .fields)).Subperm
              ((Node.object properties t).literals .config) := by
            rw [Node.literals, Node.literalsAll_eq_flatMap]
            exact hnodes.2.subperm
          refine .mono (.reports_bind (reads_fieldsSource kind value) fun found hfound => ?_)
            (flatMap_preorder_subset_of_properties hnodes.1) hliterals
          cases kind with
          | enumValues => exact .add (a := .enumValues found) hfound
          | input => exact (adds_addInputMap hfound).discard
          | output => exact (adds_addOutputMap hfound).discard
          | arguments => exact (adds_addOutputMap hfound).discard
      next => exact .of_reports (P := fun _ => True) (.stop _)

lemma adds_mutationHelperCall (callee : Node) (arguments : List Node) (s : Span) :
    Adds setting (arguments.flatMap Node.preorder) (arguments.flatMap (Node.literals .config))
      (mutationHelperCall callee arguments s) := by
  unfold mutationHelperCall
  refine .read ?_
  dsimp only
  split_ifs
  · split
    next properties t hobject => exact adds_of_argument hobject (adds_mutationConfig properties t)
    next => exact .of_reports (.warn _ _)
    next => exact .of_reports (.warn _ _)
  · exact .pure

/-- The type of a variable decides how its value is read. -/
lemma adds_typedDeclaration (name : String) (typing value : Node) :
    Adds setting value.preorder (value.literals .fields ++ value.literals .config)
      (typedDeclaration name typing value) := by
  have hfields {p : Search Unit} (h : Adds setting value.preorder (value.literals .fields) p) :=
    h.mono (List.Subset.refl _) (List.sublist_append_left _ (value.literals .config)).subperm
  have hconfig {p : Search Unit} (h : Adds setting value.preorder (value.literals .config) p) :=
    h.mono (List.Subset.refl _) (List.sublist_append_right (value.literals .fields) _).subperm
  unfold typedDeclaration
  refine .read ?_
  split
  next => exact .pure
  next =>
    exact hfields (.reports_bind (reads_thunkSource .output value) fun _ hfound =>
      (adds_addOutputMap hfound).discard)
  next =>
    exact hfields (.reports_bind (reads_thunkSource .input value) fun _ hfound =>
      (adds_addInputMap hfound).discard)
  next =>
    split
    next properties s hobject =>
      exact hfields (adds_of_unwrap hobject (.reports_bind (reads_fieldMap .arguments properties s)
        fun map hmap => .add (a := .argumentMap map) hmap))
    next => exact .of_reports (.warn _ _)
  next =>
    split
    next properties s hobject =>
      have hnew := mirroring_passesOn.empty_config s
      exact hconfig (adds_of_unwrap hobject
        (.reports_bind (reports_fieldConfig mirroring_passesOn hnew properties)
          fun config hfrom => .add (a := .fieldConfig ⟨name, config⟩) (ConfigFrom.reads hfrom)))
    next => exact .pure
  next =>
    split
    next properties s hobject =>
      exact hconfig (adds_of_unwrap hobject (adds_mutationConfig properties s))
    next => exact .of_reports (.warn _ _)

/-- A definition site adds what is read off its literals. -/
lemma adds_visit (n : Node) : Adds setting n.preorder n.siteLiterals (visit n) := by
  unfold visit
  split
  next callee arguments types s =>
    refine (adds_constructorCall callee arguments s).mono
      (flatMap_preorder_subset fun m hm => ?_) (List.Subperm.refl _)
    exact List.mem_append_left _ (List.mem_cons_of_mem _ hm)
  next callee arguments types s =>
    refine (adds_mutationHelperCall callee arguments s).mono
      (flatMap_preorder_subset fun m hm => ?_) (List.Subperm.refl _)
    exact List.mem_append_left _ (List.mem_cons_of_mem _ hm)
  next name s typing value t =>
    refine (adds_typedDeclaration name typing value).mono
      (preorder_subset_of_mem_children (List.mem_cons_of_mem _ (List.mem_singleton_self value))) ?_
    rw [Node.siteLiterals, Option.toList_some, List.flatMap_singleton, List.flatMap_singleton]
  next => exact .pure

lemma adds_visitAll (ns : List Node) :
    Adds setting (ns.flatMap Node.preorder) (ns.flatMap Node.siteLiterals) (ns.forM visit) := by
  induction ns with
  | nil => exact .pure
  | cons n ns ih =>
      rw [List.forM_eq_forM, List.forM_cons]
      exact (adds_visit n).bind fun _ => ih

end Locator

/-- Whatever is found in a script is read off its literals, no map off one that
another is read off. -/
theorem readOff_of_locate {vocabulary : Vocabulary} {source : Source} {d : Definitions}
    (h : locate vocabulary source = .ok d) :
    d.ReadOff source.script.preorder source.script.preorder := by
  obtain ⟨⟨_, found⟩, hrun, h⟩ := exists_ok_of_bind h
  cases h
  have hempty : Definitions.ReadOff [] [] {} := .nil
  refine PartsFrom.mono (Locator.adds_visitAll _ _ _ _ _ _ hrun hempty) ?_ ?_
  · intro k hk
    obtain ⟨n, hn, hk⟩ := List.mem_flatMap.mp hk
    exact Script.Module.mem_preorder_trans hk hn
  · rw [Script.Module.preorder, Node.preorderAll_eq_flatMap]
    exact Node.siteLiterals_subperm source.script.items

end GraphMigrate
