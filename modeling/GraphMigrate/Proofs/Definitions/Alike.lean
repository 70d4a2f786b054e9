/-
Definitions that differ in their places only.

Two scripts that differ in spelling define the same things elsewhere.  What is found in
them is compared without its places: maps entry by entry, configurations property by
property, resolvers parameter by parameter.  Labels quote the script; where they quote
a change they differ.

* `Spelling.LabelsAlike`: labels that are equal or quote a change;
* `Resolver.anywhere`, `TypeExpression.anywhere`, `LocateError.anywhere`: what is left
  without places;
* `FieldMap.Alike`, `FieldConfig.Alike`, `FieldsSource.Alike`: maps, configurations and
  sources of maps that agree;
* `NotesAlike`: notes that agree, but for warnings about arguments that come in between;
* `Definitions.Alike`: definitions that agree.
-/
import GraphMigrate.Proofs.Definitions.Respelling

namespace GraphMigrate

/-! ### Without places -/

/-- A parameter anywhere. -/
def Parameter.anywhere : Parameter → Parameter
  | .name text _ => .name text default
  | .object pattern => .object ⟨default,
      pattern.properties.map fun property => { property with keySpan := default }, pattern.hasRest⟩
  | .other kind _ => .other kind default

/-- The body of a resolver anywhere. -/
def ResolverBody.anywhere : ResolverBody → ResolverBody
  | .block _ first => .block default (first.map fun _ => default)
  | .expression _ => .expression default

/-- A resolver anywhere. -/
def Resolver.anywhere (resolver : Resolver) : Resolver :=
  ⟨default, resolver.parameters.map Parameter.anywhere, resolver.body.anywhere⟩

/-- A property with a function anywhere. -/
def ResolverProperty.anywhere (property : ResolverProperty) : ResolverProperty :=
  ⟨default, property.function.map Resolver.anywhere⟩

/-- A type expression anywhere. -/
def TypeExpression.anywhere : TypeExpression → TypeExpression
  | .list _ => .list default
  | .named name _ => .named name default
  | .other _ => .other default

/-- A mutation anywhere. -/
def Mutation.anywhere (mutation : Mutation) : Mutation :=
  { mutation with
    span := default
    payload := mutation.payload.map ResolverProperty.anywhere }

/-- A failure anywhere. -/
def LocateError.anywhere : LocateError → LocateError
  | .expectedConfigObject callee _ => .expectedConfigObject callee 0
  | .missingProperty property callee _ => .missingProperty property callee 0
  | .unknownPropertyKind kind _ => .unknownPropertyKind kind 0

/-! ### Maps and configurations -/

/-- Labels are alike if they are equal, or if they quote a node of the script in which something
was changed. -/
def Spelling.LabelsAlike (sp : Spelling) (label label' : String) : Prop :=
  label = label' ∨ ∃ n ∈ sp.before.script.preorder, ∃ n' ∈ sp.after.script.preorder,
    Respelled sp n n' ∧ n.size < n'.size ∧
      label = sp.before.quote n.span ∧ label' = sp.after.quote n'.span

mutual

/-- Maps that agree. -/
inductive FieldMap.Alike (sp : Spelling) : FieldMap → FieldMap → Prop
  | mk {es es' : List MapEntry} (kind : MapKind) (s s' : Span)
      (h : List.Forall₂ (MapEntry.Alike sp) es es') :
      FieldMap.Alike sp (.mk kind s es) (.mk kind s' es')

/-- Entries that agree.  What was an entry in short may be written out. -/
inductive MapEntry.Alike (sp : Spelling) : MapEntry → MapEntry → Prop
  | field {short short' : Bool} {value value' : FieldValue} (key : String) (ks ks' s s' : Span)
      (hshort : short = short' ∨ sp.allowed .longhand ∧ short = true ∧ short' = false)
      (hvalue : FieldValue.Alike sp value value') :
      MapEntry.Alike sp (.field key ks short s value) (.field key ks' short' s' value')
  | spread {label label' : String} (s s' : Span) (h : sp.LabelsAlike label label') :
      MapEntry.Alike sp (.spread label s) (.spread label' s')
  | computed (s s' : Span) : MapEntry.Alike sp (.computed s) (.computed s')

/-- Values that agree. -/
inductive FieldValue.Alike (sp : Spelling) : FieldValue → FieldValue → Prop
  | config {config config' : FieldConfig} (h : FieldConfig.Alike sp config config') :
      FieldValue.Alike sp (.config config) (.config config')
  | reference (name : String) (s s' : Span) :
      FieldValue.Alike sp (.reference name s) (.reference name s')
  | call {callee callee' : String} (s s' : Span) (h : sp.LabelsAlike callee callee') :
      FieldValue.Alike sp (.call callee s) (.call callee' s')
  | other (s s' : Span) : FieldValue.Alike sp (.other s) (.other s')

/-- Configurations that agree. -/
inductive FieldConfig.Alike (sp : Spelling) : FieldConfig → FieldConfig → Prop
  | mk {properties properties' : List ConfigProperty} {type type' : Option TypeExpression}
      {arguments arguments' : Option FieldsSource} {resolve resolve' : Option ResolverProperty}
      (s s' : Span) (deprecated : Bool)
      (hproperties : properties.map ConfigProperty.name = properties'.map ConfigProperty.name)
      (htype : type.map TypeExpression.anywhere = type'.map TypeExpression.anywhere)
      (harguments : Option.Rel (FieldsSource.Alike sp) arguments arguments')
      (hresolve : resolve.map ResolverProperty.anywhere = resolve'.map ResolverProperty.anywhere) :
      FieldConfig.Alike sp (.mk s properties type arguments resolve deprecated)
        (.mk s' properties' type' arguments' resolve' deprecated)

/-- Sources of maps that agree. -/
inductive FieldsSource.Alike (sp : Spelling) : FieldsSource → FieldsSource → Prop
  | inline {map map' : FieldMap} (h : FieldMap.Alike sp map map') :
      FieldsSource.Alike sp (.inline map) (.inline map')
  | deferred {map map' : FieldMap} (h : FieldMap.Alike sp map map') :
      FieldsSource.Alike sp (.deferred map) (.deferred map')
  | reference (name : String) (s s' : Span) :
      FieldsSource.Alike sp (.reference name s) (.reference name s')
  | call {callee callee' : String} (s s' : Span) (h : sp.LabelsAlike callee callee') :
      FieldsSource.Alike sp (.call callee s) (.call callee' s')
  | unsupported (s s' : Span) : FieldsSource.Alike sp (.unsupported s) (.unsupported s')

end

/-- Configurations without properties agree. -/
lemma FieldConfig.alike_new (sp : Spelling) (s s' : Span) : FieldConfig.Alike sp
    (.mk s [] none none none false) (.mk s' [] none none none false) :=
  .mk s s' false rfl rfl .none rfl

/-! ### Notes -/

/-- Notes that agree. -/
inductive NoteAlike (sp : Spelling) : Diagnostic → Diagnostic → Prop
  | same (severity : Severity) (message : String) (s s' : Span) :
      NoteAlike sp ⟨severity, message, s⟩ ⟨severity, message, s'⟩
  | spread {label label' : String} (s s' : Span) (h : sp.LabelsAlike label label') :
      NoteAlike sp (.warning ("Skipping spread of `" ++ label ++ "`") s)
        (.warning ("Skipping spread of `" ++ label' ++ "`") s')

/-- Notes that agree one by one, but for a number of warnings about arguments that come in
between where a property may have been written out. -/
inductive NotesAlike (sp : Spelling) : ℕ → List Diagnostic → List Diagnostic → Prop
  | nil : NotesAlike sp 0 [] []
  | concat {k : ℕ} {ns ns' : List Diagnostic} {n n' : Diagnostic} (h : NotesAlike sp k ns ns')
      (hn : NoteAlike sp n n') : NotesAlike sp k (ns ++ [n]) (ns' ++ [n'])
  | more {k : ℕ} {ns ns' : List Diagnostic} (h : NotesAlike sp k ns ns')
      (hallowed : sp.allowed .longhand) (s : Span) :
      NotesAlike sp (k + 1) ns (ns' ++ [.warning Locator.skippingArguments s])

namespace NotesAlike

variable {sp : Spelling} {k : ℕ} {ns ns' : List Diagnostic}

lemma length_eq (h : NotesAlike sp k ns ns') : ns'.length = ns.length + k := by
  induction h with
  | nil => rfl
  | concat _ _ ih => simp only [List.length_append, List.length_singleton]; omega
  | more _ _ _ ih => simp only [List.length_append, List.length_singleton]; omega

/-- If nothing can be written out, no warning comes in between. -/
lemma eq_zero (h : NotesAlike sp k ns ns') (hnone : ¬ sp.allowed .longhand) : k = 0 := by
  induction h with
  | nil => rfl
  | concat _ _ ih => exact ih
  | more _ hallowed => exact absurd hallowed hnone

/-- Notes agree one by one exactly if nothing comes in between. -/
lemma forall₂_iff (h : NotesAlike sp k ns ns') : List.Forall₂ (NoteAlike sp) ns ns' ↔ k = 0 := by
  constructor
  · intro hall
    have hlength := hall.length_eq
    have := h.length_eq
    omega
  · intro hk
    induction h with
    | nil => exact .nil
    | concat _ hn ih => exact List.rel_append (ih hk) (.cons hn .nil)
    | more => cases hk

end NotesAlike

/-! ### Definitions -/

/-- Definitions that agree, with a number of warnings about arguments that come in between. -/
structure Definitions.Alike (sp : Spelling) (k : ℕ) (d d' : Definitions) : Prop where
  outputMaps : List.Forall₂ (FieldMap.Alike sp) d.outputMaps d'.outputMaps
  inputMaps : List.Forall₂ (FieldMap.Alike sp) d.inputMaps d'.inputMaps
  argumentMaps : List.Forall₂ (FieldMap.Alike sp) d.argumentMaps d'.argumentMaps
  fieldConfigs : List.Forall₂
    (fun c c' => c.name = c'.name ∧ FieldConfig.Alike sp c.config c'.config)
    d.fieldConfigs d'.fieldConfigs
  mutations : d.mutations.map Mutation.anywhere = d'.mutations.map Mutation.anywhere
  enumValues : List.Forall₂ (FieldsSource.Alike sp) d.enumValues d'.enumValues
  notes : NotesAlike sp k d.diagnostics d'.diagnostics

lemma Definitions.alike_empty (sp : Spelling) : Definitions.Alike sp 0 {} {} :=
  ⟨.nil, .nil, .nil, .nil, rfl, .nil, .nil⟩

end GraphMigrate
