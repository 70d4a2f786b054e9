/-
Where definitions are found.

The search walks down nodes whose keys stand in the text and makes entries
whose keys stand there too.  As with readers, what is to be shown of a step
follows from the type of its result: all entries in it, and all that were
found so far, have keys of the text.

* `Finds`: a step of the search that finds only what stands in the text;
* `finds_entries`, `finds_argumentsSource`: maps and configurations, which
  contain each other;
* `finds_visit`: one node;
* `Definitions.keyStandsIn_of_locate`: **the keys of everything found in a
  script stand in its text**.
-/
import GraphMigrate.Definitions.Locate
import GraphMigrate.Proofs.Definitions.Fields
import Mathlib

namespace GraphMigrate

open Script (Key Node Recording Agrees Source Subject text agrees_node_iff)
open Std.Do

set_option mvcgen.warning false

/-! ### What definitions record -/

section Recording

/-- The keys of all entries stand in the text. -/
def AllStandIn (text : List Char) (fields : List NamedEntry) : Prop :=
  ∀ field ∈ fields, KeyStandsIn text field.key field.keySpan

instance : Recording MapEntry := ⟨fun text e => AllStandIn text e.allFields⟩
instance : Recording FieldMap := ⟨fun text m => AllStandIn text m.allFields⟩
instance : Recording FieldValue := ⟨fun text v => AllStandIn text v.allFields⟩
instance : Recording FieldConfig := ⟨fun text c => AllStandIn text c.allFields⟩
instance : Recording FieldsSource := ⟨fun text s => AllStandIn text s.allFields⟩
instance : Recording NamedConfig := ⟨fun text c => AllStandIn text c.config.allFields⟩
instance : Recording Definitions := ⟨fun text d => AllStandIn text d.allFields⟩
instance : Recording Locator.Setting := ⟨fun text s => s.source.text = text⟩

/-- Of the value of a property only the nodes in it record something. -/
instance : Recording PropertyValue where
  Agrees text
    | .expression value => Agrees text value
    | .name _ _ => True
    | .method _ body _ => Agrees text body

variable {text : List Char}

@[simp] lemma allStandIn_nil : AllStandIn text [] := by
  simp [AllStandIn]

@[simp] lemma allStandIn_append (fields later : List NamedEntry) :
    AllStandIn text (fields ++ later) ↔ AllStandIn text fields ∧ AllStandIn text later := by
  simp [AllStandIn, or_imp, forall_and]

lemma allStandIn_flatMap {α : Type} (f : α → List NamedEntry) (as : List α) :
    AllStandIn text (as.flatMap f) ↔ ∀ a ∈ as, AllStandIn text (f a) := by
  simp only [AllStandIn, List.mem_flatMap]
  exact ⟨fun h a ha field hfield => h field ⟨a, ha, hfield⟩,
    fun h field ⟨a, ha, hfield⟩ => h a ha field hfield⟩

@[simp, grind =] lemma agrees_field (key : String) (keySpan : Span) (shorthand : Bool) (span : Span)
    (value : FieldValue) : Agrees text (MapEntry.field key keySpan shorthand span value) ↔
      KeyStandsIn text key keySpan ∧ Agrees text value := by
  simp [Agrees, AllStandIn, MapEntry.allFields]

@[simp, grind =] lemma agrees_entry_spread (label : String) (span : Span) :
    Agrees text (MapEntry.spread label span) ↔ True := by
  simp [Agrees, MapEntry.allFields]

@[simp, grind =] lemma agrees_entry_computed (span : Span) :
    Agrees text (MapEntry.computed span) ↔ True := by
  simp [Agrees, MapEntry.allFields]

@[simp, grind =] lemma agrees_fieldMap (kind : MapKind) (span : Span) (es : List MapEntry) :
    Agrees text (FieldMap.mk kind span es) ↔ Agrees text es := by
  have hmap : AllStandIn text (MapEntry.allFieldsOf es) ↔ Agrees text es := by
    induction es with
    | nil => simp [MapEntry.allFieldsOf]
    | cons e es ih =>
        rw [MapEntry.allFieldsOf, allStandIn_append, ih, Script.agrees_cons]
        exact Iff.rfl
  rw [← hmap]
  simp only [Agrees, FieldMap.allFields]

@[simp, grind =] lemma agrees_fieldConfig (span : Span) (properties : List ConfigProperty)
    (type : Option TypeExpression) (arguments : Option FieldsSource)
    (resolve : Option ResolverProperty) (deprecated : Bool) :
    Agrees text (FieldConfig.mk span properties type arguments resolve deprecated) ↔
      Agrees text arguments := by
  cases arguments <;> simp [Agrees, FieldConfig.allFields, FieldsSource.allFieldsOf]

@[simp, grind =] lemma agrees_config (config : FieldConfig) :
    Agrees text (FieldValue.config config) ↔ Agrees text config := by
  simp [Agrees, FieldValue.allFields]

@[simp, grind =] lemma agrees_value_reference (name : String) (span : Span) :
    Agrees text (FieldValue.reference name span) ↔ True := by
  simp [Agrees, FieldValue.allFields]

@[simp, grind =] lemma agrees_value_call (callee : String) (span : Span) :
    Agrees text (FieldValue.call callee span) ↔ True := by
  simp [Agrees, FieldValue.allFields]

@[simp, grind =] lemma agrees_value_other (span : Span) :
    Agrees text (FieldValue.other span) ↔ True := by
  simp [Agrees, FieldValue.allFields]

/-- Of a source only its map counts. -/
@[grind =] lemma agrees_source (source : FieldsSource) :
    Agrees text source ↔ Agrees text source.map? := by
  cases source <;> simp [Agrees, FieldsSource.allFields, FieldsSource.map?]

@[simp, grind =] lemma agrees_namedConfig (name : String) (config : FieldConfig) :
    Agrees text (NamedConfig.mk name config) ↔ Agrees text config := Iff.rfl

@[simp, grind =] lemma agrees_definitions (outputMaps inputMaps argumentMaps : List FieldMap)
    (fieldConfigs : List NamedConfig) (mutations : List Mutation) (enumValues : List FieldsSource)
    (diagnostics : List Diagnostic) :
    Agrees text (⟨outputMaps, inputMaps, argumentMaps, fieldConfigs, mutations, enumValues,
        diagnostics⟩ : Definitions) ↔
      Agrees text outputMaps ∧ Agrees text inputMaps ∧ Agrees text argumentMaps ∧
        Agrees text fieldConfigs ∧ Agrees text enumValues := by
  simp only [Agrees, Definitions.allFields, allStandIn_append, allStandIn_flatMap, and_assoc]

/-- What was found agrees with a text if that holds of each kind. -/
@[grind →] lemma agrees_of_definitions {d : Definitions} (h : Agrees text d) :
    Agrees text d.outputMaps ∧ Agrees text d.inputMaps ∧ Agrees text d.argumentMaps ∧
      Agrees text d.fieldConfigs ∧ Agrees text d.enumValues :=
  (agrees_definitions ..).mp h

attribute [grind =] FieldsSource.map?

end Recording

/-! ### Nodes -/

section Nodes

variable {text : List Char}

lemma children_agree {n : Node} (h : Agrees text n) : Agrees text n.children :=
  ((agrees_node_iff n).mp h).2

/-- A wrapped expression agrees with a text if what is in it does. -/
lemma unwrap_agrees {n : Node} (h : Agrees text n) : Agrees text n.unwrap := by
  fun_induction Node.unwrap n with
  | case1 wrapper inner types span ih =>
      have hchildren := children_agree h
      simp only [Node.children, Script.agrees_cons] at hchildren
      exact ih hchildren.1
  | case2 => exact h

/-- The nodes below a node agree with a text if the node does. -/
lemma preorder_agrees {n m : Node} (h : Agrees text n) (hm : m ∈ n.preorder) :
    Agrees text m := by
  induction n using Node.induction_children with
  | h n ih =>
      rcases Node.mem_preorder_iff.mp hm with rfl | ⟨child, hchild, hm⟩
      · exact h
      · exact ih child hchild (children_agree h child hchild) hm

lemma agrees_of_unwrap_object {n : Node} (h : Agrees text n) {properties : List Node} {span : Span}
    (hn : n.unwrap = .object properties span) : Agrees text properties := by
  have hobject := children_agree (unwrap_agrees h)
  rwa [hn] at hobject

lemma agrees_of_returnedObject? {n : Node} (h : Agrees text n) {properties : List Node}
    {span : Span} (hfound : returnedObject? n = some (properties, span)) :
    Agrees text properties := by
  unfold returnedObject? at hfound
  split at hfound
  next statements s =>
    split at hfound
    next value s' hlast =>
      have hret : Agrees text (Node.ret (some value) s') :=
        children_agree h _ (List.mem_of_getLast? hlast)
      have hvalue := children_agree hret
      simp only [Node.children, Option.toList_some, Script.agrees_cons] at hvalue
      split at hfound
      next hobject =>
        cases hfound
        exact agrees_of_unwrap_object hvalue.1 hobject
      next => cases hfound
    next => cases hfound
  next => cases hfound

lemma argumentValue_agrees {n : Node} (h : Agrees text n) :
    Agrees text (Locator.argumentValue n) := by
  unfold Locator.argumentValue
  split
  next dots value =>
    have hvalue := children_agree h
    simp only [Node.children, Script.agrees_cons] at hvalue
    exact hvalue.1
  next => exact h

lemma agrees_of_findProperty? {source : Source} {name : String} {ns : List Node}
    (h : Agrees text ns) {span : Span} {value : PropertyValue}
    (hfound : Locator.findProperty? source name ns = some (span, value)) : Agrees text value := by
  induction ns with
  | nil => cases hfound
  | cons p ps ih =>
      rw [Script.agrees_cons] at h
      have hchildren := children_agree h.1
      unfold Locator.findProperty? at hfound
      dsimp only at hfound
      cases p with
      | keyed key index inner =>
          dsimp only at hfound
          split_ifs at hfound
          · cases hfound
            simp only [Node.children, Script.agrees_append, Script.agrees_cons] at hchildren
            exact hchildren.2.1
          · exact ih h.2 hfound
      | shorthand spelled s =>
          dsimp only at hfound
          split_ifs at hfound
          · cases hfound
            trivial
          · exact ih h.2 hfound
      | method key index parameters body types s =>
          dsimp only at hfound
          split_ifs at hfound
          · cases hfound
            simp only [Node.children, Script.agrees_append, Script.agrees_toList] at hchildren
            exact hchildren.1.2
          · exact ih h.2 hfound
      | _ => exact ih h.2 hfound

end Nodes

namespace Locator

/-! ### Steps of the search -/

variable [Subject]

/-- A step of the search that finds only what stands in the text. -/
abbrev Finds {α : Type} [Recording α] (p : Search α) : Prop :=
  ⦃fun setting found => ⌜Agrees text setting ∧ Agrees text found⌝⦄ p
  ⦃⇓? a setting found => ⌜Agrees text setting ∧ Agrees text found ∧ Agrees text a⌝⦄

omit [Subject] in
lemma search_apply_wp {α : Type} (p : Search α)
    (Q : PostCond α (.arg Setting (.arg Definitions (.except LocateError .pure))))
    (setting : Setting) (found : Definitions) :
    (wp p).apply Q setting found = match p setting found with
      | .ok (a, later) => Q.1 a setting later
      | .error e => Q.2.1 e := by
  change (wp (p setting found)).apply _ = _
  cases p setting found <;> rfl

/-- What a run of such a step has found. -/
lemma Finds.agrees {α : Type} [Recording α] {p : Search α} (h : Finds p) {setting : Setting}
    {found later : Definitions} {a : α} (hsetting : Agrees text setting)
    (hfound : Agrees text found) (hrun : p setting found = .ok (a, later)) :
    Agrees text later := by
  have hpost := h setting found ⟨hsetting, hfound⟩
  rw [search_apply_wp, hrun] at hpost
  exact hpost.2.1

@[spec] lemma finds_stop {α : Type} [Recording α] (e : LocateError) :
    Finds (stop e : Search α) := by
  intro setting found _
  trivial

@[spec] lemma finds_warn (message : String) (span : Span) : Finds (warn message span) := by
  mvcgen [warn] with grind

/-- A setting whose text is read gives names to keys that stand in it. -/
@[grind →] lemma keyStandsIn_of_setting {setting : Setting} (h : Agrees text setting) {key : Key}
    (hkey : key.StandsIn text) {name : String}
    (hname : setting.source.keyName? key = some name) : KeyStandsIn text name key.span :=
  keyStandsIn_of_keyName? h hkey hname

@[grind →] lemma agrees_parts_of_node {n : Node} (h : Agrees text n) :
    n.RecordsIn text ∧ Agrees text n.children := (agrees_node_iff n).mp h

@[grind →] lemma keyStandsIn_of_shorthand {spelled : String} {span : Span}
    (h : Key.StandsIn text ⟨.name spelled, span⟩) : KeyStandsIn text spelled span :=
  keyStandsIn_of_name h

@[spec] lemma finds_discard {α : Type} [Recording α] {p : Search α} (h : Finds p) :
    Finds (discard p) := by
  have heq : (discard p : Search PUnit) = p >>= fun _ => pure ⟨⟩ := rfl
  rw [heq]
  mvcgen [h] with grind

mutual

theorem finds_entries (kind : MapKind) :
    (ns : List Node) → Agrees text ns → Finds (entries kind ns)
  | [], _ => by
    (mvcgen [entries] with grind)
  | n :: ns, h => by
    rw [Script.agrees_cons] at h
    have hentry := finds_entry kind n h.1
    have hentries := finds_entries kind ns h.2
    mvcgen [entries, hentry, hentries] with grind

theorem finds_entry (kind : MapKind) (n : Node) (h : Agrees text n) : Finds (entry kind n) := by
  cases n with
  | keyed key index value =>
      have hchildren := children_agree h
      simp only [Node.children, Script.agrees_append, Script.agrees_cons] at hchildren
      have hvalue := finds_fieldValue value hchildren.2.1
      (mvcgen [entry, hvalue] with grind)
  | accessor kind => cases kind <;> mvcgen [entry]
  | _ => mvcgen [entry] with grind

theorem finds_fieldValue (n : Node) (h : Agrees text n) : Finds (fieldValue n) := by
  cases n with
  | wrapped wrapper inner types s =>
      have hchildren := children_agree h
      simp only [Node.children, Script.agrees_cons] at hchildren
      exact finds_fieldValue inner hchildren.1
  | object properties s =>
      have hconfig := finds_fieldConfig s (.mk s [] none none none false) (by simp) properties
        (children_agree h)
      mvcgen [fieldValue, hconfig]
  | _ => mvcgen [fieldValue] with grind

theorem finds_fieldConfig (s : Span) (config : FieldConfig) (hconfig : Agrees text config) :
    (ns : List Node) → Agrees text ns → Finds (fieldConfig s config ns)
  | [], _ => by
    (mvcgen [fieldConfig] with grind)
  | n :: ns, h => by
    rw [Script.agrees_cons] at h
    have hfirst := finds_configProperty config hconfig n h.1
    have hlater := fun (later : FieldConfig) (hlater : Agrees text later) =>
      finds_fieldConfig s later hlater ns h.2
    mvcgen [fieldConfig, hfirst, hlater] with grind

theorem finds_configProperty (config : FieldConfig) (hconfig : Agrees text config) (n : Node)
    (h : Agrees text n) : Finds (configProperty config n) := by
  obtain ⟨s, properties, type, arguments, resolve, deprecated⟩ := config
  cases n with
  | keyed key index value =>
      have hchildren := children_agree h
      simp only [Node.children, Script.agrees_append, Script.agrees_cons] at hchildren
      have hsource := finds_argumentsSource value hchildren.2.1
      (mvcgen [configProperty, hsource] with grind)
  | _ => mvcgen [configProperty] with grind

theorem finds_argumentsSource (n : Node) (h : Agrees text n) : Finds (argumentsSource n) := by
  cases n with
  | wrapped wrapper inner types s =>
      have hchildren := children_agree h
      simp only [Node.children, Script.agrees_cons] at hchildren
      exact finds_argumentsSource inner hchildren.1
  | object properties s =>
      have hentries := finds_entries .arguments properties (children_agree h)
      (mvcgen [argumentsSource, hentries] with grind)
  | call callee arguments types s =>
      -- the first argument is opened up no further than the recursion does
      unfold argumentsSource
      cases arguments with
      | nil => (mvcgen with grind)
      | cons first later =>
          have hchildren := children_agree h
          simp only [Node.children, Script.agrees_append, Script.agrees_cons] at hchildren
          have hfirst : ∀ n, n = first → Finds (argumentsSource n) := by
            intro n hn
            rw [hn]
            exact finds_argumentsSource first hchildren.1.2.1
          (mvcgen [hfirst] with grind)
  | _ => mvcgen [argumentsSource] with grind

end

attribute [spec] finds_entries finds_fieldConfig finds_argumentsSource

/-! ### Maps that are returned -/

@[spec] lemma finds_fieldMap (kind : MapKind) {properties : List Node} (h : Agrees text properties)
    (s : Span) : Finds (fieldMap kind properties s) := by
  mvcgen [fieldMap] with grind

@[spec] lemma finds_functionSource (kind : MapKind) {body : Option Node} (h : Agrees text body)
    (s : Span) : Finds (functionSource kind body s) := by
  unfold functionSource
  split
  next properties t hfound =>
    obtain ⟨block, hblock, hreturned⟩ := Option.bind_eq_some_iff.mp hfound
    have hproperties := agrees_of_returnedObject? (h block hblock) hreturned
    mvcgen
  next => mvcgen with grind

@[spec] lemma finds_arrowSource (kind : MapKind) {body : Node} (h : Agrees text body) (s : Span) :
    Finds (arrowSource kind body s) := by
  unfold arrowSource
  dsimp only
  split
  next properties t hfound =>
    have hproperties : Agrees text properties := by
      split at hfound
      next => exact agrees_of_returnedObject? h hfound
      next =>
        split at hfound
        next hobject =>
          cases hfound
          exact agrees_of_unwrap_object h hobject
        next => cases hfound
    mvcgen
  next => mvcgen with grind

@[spec] lemma finds_thunkSource (kind : MapKind) {n : Node} (h : Agrees text n) :
    Finds (thunkSource kind n) := by
  have hinner := unwrap_agrees h
  unfold thunkSource
  generalize n.unwrap = inner at hinner
  cases inner with
  | object properties s =>
      have hproperties : Agrees text properties := children_agree hinner
      mvcgen
  | arrow parameters body types s =>
      have hchildren := children_agree hinner
      simp only [Node.children, Script.agrees_append, Script.agrees_cons] at hchildren
      exact finds_arrowSource kind hchildren.2.1 s
  | function parameters body types s =>
      have hchildren := children_agree hinner
      simp only [Node.children, Script.agrees_append, Script.agrees_toList] at hchildren
      exact finds_functionSource kind hchildren.1.2 s
  | _ => mvcgen with grind

@[spec] lemma finds_fieldsSource (kind : MapKind) {value : PropertyValue} (h : Agrees text value) :
    Finds (fieldsSource kind value) := by
  cases value with
  | expression value => exact finds_thunkSource kind h
  | name spelled s => (mvcgen [fieldsSource] with grind)
  | method parameters body s => exact finds_functionSource kind h s

/-! ### Definitions -/

@[spec] lemma finds_reportUnfollowed (found : FieldsSource) : Finds (reportUnfollowed found) := by
  mvcgen [reportUnfollowed] with grind

@[spec] lemma finds_addOutputMap {found : FieldsSource} (h : Agrees text found) :
    Finds (addOutputMap found) := by
  mvcgen [addOutputMap] with grind

@[spec] lemma finds_addInputMap {found : FieldsSource} (h : Agrees text found) :
    Finds (addInputMap found) := by
  mvcgen [addInputMap] with grind

omit [Subject] in
/-- The object that a call is given first. -/
lemma agrees_of_firstArgument {text : List Char} {arguments properties : List Node} {s : Span}
    (h : Agrees text arguments)
    (hfound : (arguments.head?.map fun a => (argumentValue a).unwrap) =
      some (.object properties s)) : Agrees text properties := by
  obtain ⟨first, hfirst, hobject⟩ := Option.map_eq_some_iff.mp hfound
  exact agrees_of_unwrap_object (argumentValue_agrees (h first (List.mem_of_head? hfirst))) hobject

@[spec] lemma finds_constructorCall (callee : Node) {arguments : List Node}
    (h : Agrees text arguments) (s : Span) : Finds (constructorCall callee arguments s) := by
  mvcgen [constructorCall] with grind [→ agrees_of_firstArgument, → agrees_of_findProperty?]

@[spec] lemma finds_mutationConfig {properties : List Node} (h : Agrees text properties)
    (s : Span) : Finds (mutationConfig properties s) := by
  mvcgen [mutationConfig] with grind [→ agrees_of_findProperty?]

@[spec] lemma finds_mutationHelperCall (callee : Node) {arguments : List Node}
    (h : Agrees text arguments) (s : Span) : Finds (mutationHelperCall callee arguments s) := by
  mvcgen [mutationHelperCall] with grind [→ agrees_of_firstArgument]

@[spec] lemma finds_typedDeclaration (name : String) (typing : Node) {value : Node}
    (h : Agrees text value) : Finds (typedDeclaration name typing value) := by
  mvcgen [typedDeclaration] with grind [→ agrees_of_unwrap_object]

@[spec] lemma finds_visit {n : Node} (h : Agrees text n) : Finds (visit n) := by
  have hchildren := children_agree h
  unfold visit
  split
  next => 
    simp only [Node.children, Script.agrees_append, Script.agrees_cons] at hchildren
    exact finds_constructorCall _ hchildren.1.2 _
  next => 
    simp only [Node.children, Script.agrees_append, Script.agrees_cons] at hchildren
    exact finds_mutationHelperCall _ hchildren.1.2 _
  next =>
    simp only [Node.children, Option.toList_some, Script.agrees_cons] at hchildren
    exact finds_typedDeclaration _ _ hchildren.2.1
  next => mvcgen with grind

lemma finds_visitAll {ns : List Node} (h : Agrees text ns) : Finds (ns.forM visit) := by
  rw [List.forM_eq_forM]
  induction ns with
  | nil =>
      rw [List.forM_nil]
      (mvcgen with grind)
  | cons n ns ih =>
      rw [Script.agrees_cons] at h
      have hfirst := finds_visit h.1
      have hlater := ih h.2
      rw [List.forM_cons]
      mvcgen [hfirst, hlater] with grind

end Locator

/-- The keys of everything found in a script stand in its text, if the nodes
of the script do. -/
theorem Definitions.keyStandsIn_of_locate {vocabulary : Vocabulary} {source : Source}
    {d : Definitions} (hscript : Agrees source.text source.script.items)
    (h : locate vocabulary source = .ok d) {field : NamedEntry} (hfield : field ∈ d.allFields) :
    KeyStandsIn source.text field.key field.keySpan := by
  let _ : Subject := ⟨source.text⟩
  have hnodes : Agrees source.text source.script.preorder := by
    intro m hm
    rw [Script.Module.preorder, Node.preorderAll_eq_flatMap] at hm
    obtain ⟨item, hitem, hm⟩ := List.mem_flatMap.mp hm
    exact preorder_agrees (hscript item hitem) hm
  unfold locate at h
  cases hrun : (source.script.preorder.forM Locator.visit) ⟨source, vocabulary⟩ {} with
  | error e =>
      simp [ReaderT.run, StateT.run, hrun, bind, Except.bind] at h
  | ok result =>
      obtain ⟨a, found⟩ := result
      simp only [ReaderT.run, StateT.run, hrun, bind, Except.bind, pure, Except.pure,
        Except.ok.injEq] at h
      subst h
      have hall : Agrees source.text found :=
        (Locator.finds_visitAll hnodes).agrees rfl (by simp) hrun
      exact hall field hfield

end GraphMigrate
