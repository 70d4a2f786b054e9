/-
What maps and configurations are read as.

To read a map, or a configuration, adds nothing to what was found.  It leaves
warnings at most, and what it answers does not depend on what was found before.
What holds of entries, values, configurations and arguments, and passes from parts
to the whole, holds of all that are read.  So a map is of the kind that it is read
for, and the arguments of each field in it are of theirs, at any depth.

* `Definitions.noted`: more notes, and nothing else;
* `Reports`: a step of the search that only leaves notes;
* `Correspondence`: what the parts that are read have to do with nodes;
* `reports_entries`, `reports_fieldConfig`: maps and configurations, which contain
  each other;
* `FieldMap.IsWellKinded`, `FieldConfig.IsWellKinded`,
  `FieldsSource.IsWellKinded`: maps of a kind, and arguments in them;
* `reports_fieldsSource`: **what a property is read as**.
-/
import GraphMigrate.Definitions.Locate
import GraphMigrate.Proofs.Control.Ensures
import GraphMigrate.Proofs.Definitions.Fields

namespace GraphMigrate

open Script (Node)

/-! ### Notes -/

/-- What was found, with more notes. -/
def Definitions.noted (d : Definitions) (notes : List Diagnostic) : Definitions :=
  { d with diagnostics := d.diagnostics ++ notes }

@[simp] lemma Definitions.noted_nil (d : Definitions) : d.noted [] = d := by
  simp [noted]

@[simp] lemma Definitions.noted_noted (d : Definitions) (notes more : List Diagnostic) :
    (d.noted notes).noted more = d.noted (notes ++ more) := by
  simp [noted]

namespace Locator

variable {α β : Type} {setting : Setting} {P : α → Prop} {Q : β → Prop}

/-- A step of the search that only leaves notes.  Whether it stops, what it
answers and which notes it leaves does not depend on what was found before. -/
inductive Reports (setting : Setting) (P : α → Prop) (p : Search α) : Prop
  | stops (e : LocateError) (h : ∀ d, p setting d = .error e)
  | answers (a : α) (notes : List Diagnostic) (ha : P a)
      (h : ∀ d, p setting d = .ok (a, d.noted notes))

lemma bind_apply (p : Search α) (next : α → Search β) (d : Definitions) :
    (p >>= next) setting d = p setting d >>= fun (a, d') => next a setting d' := rfl

namespace Reports

protected lemma pure {a : α} (ha : P a) : Reports setting P (pure a) :=
  .answers a [] ha fun d => by rw [d.noted_nil]; rfl

/-- A step that goes on with what another answered. -/
protected lemma bind {p : Search α} {next : α → Search β} (h : Reports setting P p)
    (hnext : ∀ a, P a → Reports setting Q (next a)) : Reports setting Q (p >>= next) := by
  cases h with
  | stops e h =>
      refine .stops e fun d => ?_
      rw [bind_apply, h]
      rfl
  | answers a notes ha h =>
      cases hnext a ha with
      | stops e hstops =>
          refine .stops e fun d => ?_
          rw [bind_apply, h]
          exact hstops _
      | answers b more hb hmore =>
          refine .answers b (notes ++ more) hb fun d => ?_
          rw [bind_apply, h, ← d.noted_noted]
          exact hmore _

/-- A step that goes on with the setting. -/
protected lemma read {next : Setting → Search β} (h : Reports setting Q (next setting)) :
    Reports setting Q (read >>= next) := by
  cases h with
  | stops e h => exact .stops e h
  | answers b notes hb h => exact .answers b notes hb h

protected lemma stop (e : LocateError) : Reports setting P (stop e) := .stops e fun _ => rfl

protected lemma warn (message : String) (span : Span) :
    Reports setting (fun _ => True) (warn message span) :=
  .answers () [.warning message span] trivial fun _ => rfl

/-- A warning before something else. -/
lemma warn_bind {message : String} {span : Span} {next : Search β} (h : Reports setting Q next) :
    Reports setting Q (do warn message span; next) :=
  (Reports.warn message span).bind fun _ _ => h

lemma mono {p : Search α} {Q : α → Prop} (h : Reports setting P p) (hPQ : ∀ a, P a → Q a) :
    Reports setting Q p := by
  cases h with
  | stops e h => exact .stops e h
  | answers a notes ha h => exact .answers a notes (hPQ a ha) h

/-- What a run of such a step answers and leaves. -/
lemma of_run {p : Search α} (h : Reports setting P p) {d d' : Definitions} {a : α}
    (hrun : p setting d = .ok (a, d')) :
    P a ∧ ∃ notes, ∀ s, p setting s = .ok (a, s.noted notes) := by
  cases h with
  | stops e h =>
      rw [h] at hrun
      cases hrun
  | answers b notes hb h =>
      rw [h] at hrun
      cases hrun
      exact ⟨hb, notes, h⟩

end Reports

/-! ### Maps and configurations -/

/-- What entries, values, configurations and arguments have to do with the nodes
that they are read off. -/
structure Correspondence where
  entry : Node → MapEntry → Prop
  value : Node → FieldValue → Prop
  config : Span → List Node → FieldConfig → Prop
  arguments : Node → FieldsSource → Prop

/-- It passes from parts to the whole. -/
structure Correspondence.PassesOn (R : Correspondence) : Prop where
  spread (label : String) (dots : ℕ) (value : Node) :
    R.entry (.spread dots value) (.spread label ⟨dots, value.span.stop⟩)
  computed {n : Node} (hn : propertySpan n = n.span) : R.entry n (.computed n.span)
  named {node : Node} {value : FieldValue} (name : String) (key : Script.Key) (index : List Node)
    (h : R.value node value) : R.entry (.keyed key index node)
      (.field name key.span false ⟨key.span.start, node.span.stop⟩ value)
  shorthand (text : String) (s : Span) :
    R.entry (.shorthand text s) (.field text s true s (.reference text s))
  wrapped_value {wrapper : Script.Wrapper} {inner : Node} {types : List Node} {s : Span}
    {value : FieldValue} (h : R.value inner value) : R.value (.wrapped wrapper inner types s) value
  inline_value {s : Span} {properties : List Node} {config : FieldConfig}
    (h : R.config s properties config) : R.value (.object properties s) (.config config)
  plain_value {n : Node} {value : FieldValue} (hn : n.unwrap = n) (hvalue : value.config? = none)
    (hspan : value.span = n.span) : R.value n value
  empty_config (s : Span) : R.config s [] (.mk s [] none none none false)
  concat_config {s : Span} {ns : List Node} {n : Node} {config config' : FieldConfig}
    {name : Option String} (h : R.config s ns config) (hspan : config'.span = config.span)
    (hproperties : config'.properties = config.properties ++ [⟨name, propertySpan n⟩])
    (harguments : config'.arguments = config.arguments ∨
      ∃ source, config'.arguments = some source ∧ (source.map? = none ∨
        ∃ key index node, n = .keyed key index node ∧ R.arguments node source)) :
    R.config s (ns ++ [n]) config'
  wrapped_arguments {wrapper : Script.Wrapper} {inner : Node} {types : List Node} {s : Span}
    {source : FieldsSource} (h : R.arguments inner source) :
    R.arguments (.wrapped wrapper inner types s) source
  inline_arguments {s : Span} {ns : List Node} {es : List MapEntry}
    (h : List.Forall₂ R.entry ns es) : R.arguments (.object ns s) (.inline (.mk .arguments s es))
  decorated_arguments {callee first : Node} {later types : List Node} {s : Span}
    {source : FieldsSource} (h : R.arguments first source) :
    R.arguments (.call callee (first :: later) types s) source
  unknown_arguments {source : FieldsSource} (n : Node) (h : source.map? = none) :
    R.arguments n source

section Steps

variable {R : Correspondence} {kind : MapKind} {n : Node}

/-- To read an entry only leaves notes if to read its value does. -/
lemma reports_entry_of (hR : R.PassesOn) (hvalue : ∀ key index value, n = .keyed key index value →
      Reports setting (R.value value) (fieldValue value)) :
    Reports setting (R.entry n) (entry kind n) := by
  unfold entry
  split
  next => exact .read (.warn_bind (.pure (hR.spread _ _ _)))
  next key index value =>
    refine .read ?_
    split
    next => exact .warn_bind (.pure (hR.computed rfl))
    next => exact (hvalue key index value rfl).bind fun v hv => .pure (hR.named _ _ _ hv)
  next => exact .pure (hR.shorthand _ _)
  next => exact .stop _
  next => exact .stop _
  next => exact .stop _
  next => exact .stop _
  next hmethod _ _ _ =>
    refine .pure (hR.computed ?_)
    unfold propertySpan
    split
    next => exact absurd rfl (hmethod _ _ _ _ _ _)
    next => rfl

/-- The same of a value, by the expression in it or the configuration that it
is. -/
lemma reports_fieldValue_of (hR : R.PassesOn)
    (hinner : ∀ wrapper inner types s, n = .wrapped wrapper inner types s →
      Reports setting (R.value inner) (fieldValue inner))
    (hobject : ∀ properties s, n = .object properties s → Reports setting (R.config s properties)
      (fieldConfig s (.mk s [] none none none false) properties)) :
    Reports setting (R.value n) (fieldValue n) := by
  unfold fieldValue
  split
  next wrapper inner types s =>
    exact (hinner wrapper inner types s rfl).mono fun _ => hR.wrapped_value
  next properties s =>
    exact (hobject properties s rfl).bind fun _ h => .pure (hR.inline_value h)
  next => exact .pure (hR.plain_value rfl rfl rfl)
  next => exact .read (.pure (hR.plain_value rfl rfl rfl))
  next hwrapped _ _ _ =>
    refine .pure (hR.plain_value ?_ rfl rfl)
    unfold Node.unwrap
    split
    next => exact absurd rfl (hwrapped _ _ _ _)
    next => rfl

/-- The same of a property of a configuration, by the arguments that it may
hold. -/
lemma reports_configProperty_of (hR : R.PassesOn) {s : Span} {done : List Node}
    {config : FieldConfig} (hconfig : R.config s done config)
    (hvalue : ∀ key index value, n = .keyed key index value →
      Reports setting (R.arguments value) (argumentsSource value)) :
    Reports setting (R.config s (done ++ [n])) (configProperty config n) := by
  unfold configProperty
  split
  next key index value =>
    refine .read ?_
    dsimp only
    split_ifs
    · exact .pure (hR.concat_config hconfig rfl rfl (.inl rfl))
    · exact (hvalue key index value rfl).bind fun found hfound =>
        .pure (hR.concat_config hconfig rfl rfl
          (.inr ⟨found, rfl, .inr ⟨key, index, value, rfl, hfound⟩⟩))
    · exact .pure (hR.concat_config hconfig rfl rfl (.inl rfl))
    · exact .pure (hR.concat_config hconfig rfl rfl (.inl rfl))
    · exact .pure (hR.concat_config hconfig rfl rfl (.inl rfl))
  next =>
    dsimp only
    split_ifs
    · exact .pure (hR.concat_config hconfig rfl rfl (.inl rfl))
    · exact .pure (hR.concat_config hconfig rfl rfl (.inr ⟨_, rfl, .inl rfl⟩))
    · exact .pure (hR.concat_config hconfig rfl rfl (.inl rfl))
    · exact .pure (hR.concat_config hconfig rfl rfl (.inl rfl))
    · exact .pure (hR.concat_config hconfig rfl rfl (.inl rfl))
  next =>
    refine .read ?_
    dsimp only
    split_ifs <;> exact .pure (hR.concat_config hconfig rfl rfl (.inl rfl))
  next => exact .read (.pure (hR.concat_config hconfig rfl rfl (.inl rfl)))

/-- The same of arguments, by the entries or the expression in them, or by what a
decorator is given. -/
lemma reports_argumentsSource_of (hR : R.PassesOn)
    (hinner : ∀ wrapper inner types s, n = .wrapped wrapper inner types s →
      Reports setting (R.arguments inner) (argumentsSource inner))
    (hobject : ∀ properties s, n = .object properties s →
      Reports setting (List.Forall₂ R.entry properties) (entries .arguments properties))
    (hfirst : ∀ callee first later types s, n = .call callee (first :: later) types s →
      Reports setting (R.arguments first) (argumentsSource first)) :
    Reports setting (R.arguments n) (argumentsSource n) := by
  unfold argumentsSource
  split
  next wrapper inner types s =>
    exact (hinner wrapper inner types s rfl).mono fun _ => hR.wrapped_arguments
  next properties s =>
    exact (hobject properties s rfl).bind fun _ hes => .pure (hR.inline_arguments hes)
  next => exact .warn_bind (.pure (hR.unknown_arguments _ rfl))
  next callee arguments types s =>
    refine .read ?_
    split_ifs
    · split
      next => exact .warn_bind (.pure (hR.unknown_arguments _ rfl))
      next => exact .warn_bind (.pure (hR.unknown_arguments _ rfl))
      next first later _ =>
        exact (hfirst callee first later types s rfl).mono fun _ => hR.decorated_arguments
    · exact .warn_bind (.pure (hR.unknown_arguments _ rfl))
  next => exact .warn_bind (.pure (hR.unknown_arguments _ rfl))

mutual

theorem reports_entries (hR : R.PassesOn) (kind : MapKind) : (ns : List Node) →
    Reports setting (List.Forall₂ R.entry ns) (entries kind ns)
  | [] => by
    rw [entries]
    exact .pure .nil
  | n :: ns => by
    rw [entries]
    exact (reports_entry hR kind n).bind fun e he =>
      (reports_entries hR kind ns).bind fun es hes => .pure (.cons he hes)
termination_by structural ns => ns

theorem reports_entry (hR : R.PassesOn) (kind : MapKind) (n : Node) :
    Reports setting (R.entry n) (entry kind n) := by
  cases n with
  | keyed key index value =>
      have hvalue := reports_fieldValue hR value
      exact reports_entry_of hR fun _ _ _ h => by cases h; exact hvalue
  | _ => exact reports_entry_of hR fun _ _ _ h => by cases h
termination_by structural n

theorem reports_fieldValue (hR : R.PassesOn) (n : Node) :
    Reports setting (R.value n) (fieldValue n) := by
  cases n with
  | wrapped wrapper inner types s =>
      have hinner := reports_fieldValue hR inner
      exact reports_fieldValue_of hR (fun _ _ _ _ h => by cases h; exact hinner)
        fun _ _ h => by cases h
  | object properties s =>
      have hobject := reports_fieldConfig hR (hR.empty_config s) properties
      exact reports_fieldValue_of hR (fun _ _ _ _ h => by cases h)
        fun _ _ h => by cases h; exact hobject
  | _ => exact reports_fieldValue_of hR (fun _ _ _ _ h => by cases h) fun _ _ h => by cases h
termination_by structural n

theorem reports_fieldConfig (hR : R.PassesOn) {s : Span} {done : List Node} {config : FieldConfig}
    (hconfig : R.config s done config) : (ns : List Node) →
    Reports setting (R.config s (done ++ ns)) (fieldConfig s config ns)
  | [] => by
    rw [fieldConfig, List.append_nil]
    exact .pure hconfig
  | n :: ns => by
    rw [fieldConfig, ← List.singleton_append, ← List.append_assoc]
    exact (reports_configProperty hR hconfig n).bind fun _ hlater =>
      reports_fieldConfig hR hlater ns
termination_by structural ns => ns

theorem reports_configProperty (hR : R.PassesOn) {s : Span} {done : List Node}
    {config : FieldConfig} (hconfig : R.config s done config) (n : Node) :
    Reports setting (R.config s (done ++ [n])) (configProperty config n) := by
  cases n with
  | keyed key index value =>
      have hvalue := reports_argumentsSource hR value
      exact reports_configProperty_of hR hconfig fun _ _ _ h => by cases h; exact hvalue
  | _ => exact reports_configProperty_of hR hconfig fun _ _ _ h => by cases h
termination_by structural n

theorem reports_argumentsSource (hR : R.PassesOn) (n : Node) :
    Reports setting (R.arguments n) (argumentsSource n) := by
  cases n with
  | wrapped wrapper inner types s =>
      have hinner := reports_argumentsSource hR inner
      exact reports_argumentsSource_of hR (fun _ _ _ _ h => by cases h; exact hinner)
        (fun _ _ h => by cases h) fun _ _ _ _ _ h => by cases h
  | object properties s =>
      have hobject := reports_entries hR .arguments properties
      exact reports_argumentsSource_of hR (fun _ _ _ _ h => by cases h)
        (fun _ _ h => by cases h; exact hobject) fun _ _ _ _ _ h => by cases h
  | call callee arguments types s =>
      cases arguments with
      | nil =>
          exact reports_argumentsSource_of hR (fun _ _ _ _ h => by cases h)
            (fun _ _ h => by cases h) fun _ _ _ _ _ h => by cases h
      | cons first later =>
          have hfirst := reports_argumentsSource hR first
          exact reports_argumentsSource_of hR (fun _ _ _ _ h => by cases h)
            (fun _ _ h => by cases h) fun _ _ _ _ _ h => by cases h; exact hfirst
  | _ =>
      exact reports_argumentsSource_of hR (fun _ _ _ _ h => by cases h)
        (fun _ _ h => by cases h) fun _ _ _ _ _ h => by cases h
termination_by structural n

end

end Steps

end Locator

/-! ### Kinds -/

/-- The arguments of a configuration are arguments, if they are known. -/
def FieldConfig.TakesArguments (config : FieldConfig) : Prop :=
  ∀ map, config.arguments.bind (·.map?) = some map → map.kind = .arguments

/-- The configuration of an entry takes arguments, if it is written inline. -/
def NamedEntry.TakesArguments (entry : NamedEntry) : Prop :=
  ∀ config, entry.value.config? = some config → config.TakesArguments

/-- A map is of a kind, and all entries in it, at any depth, take arguments. -/
structure FieldMap.IsWellKinded (kind : MapKind) (map : FieldMap) : Prop where
  kind_eq : map.kind = kind
  takesArguments : ∀ entry ∈ map.allFields, entry.TakesArguments

/-- The map that a source holds is of a kind, if it is known. -/
def FieldsSource.IsWellKinded (kind : MapKind) (source : FieldsSource) : Prop :=
  ∀ map, source.map? = some map → map.IsWellKinded kind

/-- The arguments of a configuration, and what is in them, are arguments. -/
def FieldConfig.IsWellKinded (config : FieldConfig) : Prop :=
  ∀ source, config.arguments = some source → source.IsWellKinded .arguments

/-- The configuration that a value is has such arguments. -/
def FieldValue.IsWellKinded (value : FieldValue) : Prop :=
  ∀ config, value.config? = some config → config.IsWellKinded

/-- The value of an entry has such arguments. -/
def MapEntry.IsWellKinded (entry : MapEntry) : Prop :=
  ∀ field, entry.field? = some field → field.value.IsWellKinded

section Kinds

variable {kind : MapKind}

/-- Of a source only its map counts. -/
lemma FieldsSource.forall_mem_allFields {P : NamedEntry → Prop} (source : FieldsSource) :
    (∀ f ∈ source.allFields, P f) ↔ ∀ map, source.map? = some map → ∀ f ∈ map.allFields, P f := by
  cases source <;> simp [FieldsSource.allFields, FieldsSource.map?]

/-- A configuration has such arguments if it takes arguments and all entries in
it do. -/
lemma FieldConfig.isWellKinded_iff (config : FieldConfig) : config.IsWellKinded ↔
    config.TakesArguments ∧ ∀ f ∈ config.allFields, f.TakesArguments := by
  obtain ⟨span, properties, type, arguments, resolve, deprecated⟩ := config
  cases arguments with
  | none => simp [IsWellKinded, TakesArguments, FieldConfig.arguments, FieldConfig.allFields,
      FieldsSource.allFieldsOf]
  | some source =>
      simp only [IsWellKinded, TakesArguments, FieldConfig.arguments, FieldConfig.allFields,
        FieldsSource.allFieldsOf, FieldsSource.forall_mem_allFields, Option.bind_some,
        Option.some.injEq, forall_eq', FieldsSource.IsWellKinded]
      constructor
      · exact fun h => ⟨fun map hmap => (h map hmap).kind_eq,
          fun map hmap => (h map hmap).takesArguments⟩
      · exact fun h map hmap => ⟨h.1 map hmap, h.2 map hmap⟩

lemma MapEntry.isWellKinded_iff (entry : MapEntry) :
    entry.IsWellKinded ↔ ∀ f ∈ entry.allFields, f.TakesArguments := by
  cases entry with
  | field key keySpan shorthand span value =>
      cases value with
      | config config => simp [IsWellKinded, MapEntry.field?, MapEntry.allFields,
          FieldValue.IsWellKinded, FieldValue.config?, FieldValue.allFields,
          NamedEntry.TakesArguments, FieldConfig.isWellKinded_iff]
      | _ => simp [IsWellKinded, MapEntry.field?, MapEntry.allFields, FieldValue.IsWellKinded,
          FieldValue.config?, FieldValue.allFields, NamedEntry.TakesArguments]
  | _ => simp [IsWellKinded, MapEntry.field?, MapEntry.allFields]

lemma isWellKinded_of_field?_eq_none {entry : MapEntry} (h : entry.field? = none) :
    entry.IsWellKinded := by
  intro field hfield
  rw [h] at hfield
  cases hfield

lemma isWellKinded_of_config?_eq_none {value : FieldValue} (h : value.config? = none) :
    value.IsWellKinded := by
  intro config hconfig
  rw [h] at hconfig
  cases hconfig

/-- A map of entries with such arguments is of its kind. -/
lemma isWellKinded_mk {span : Span} {entries : List MapEntry}
    (h : ∀ entry ∈ entries, entry.IsWellKinded) :
    (FieldMap.mk kind span entries).IsWellKinded kind := by
  refine ⟨rfl, fun f hf => ?_⟩
  rw [FieldMap.allFields] at hf
  induction entries with
  | nil => cases hf
  | cons e es ih =>
      rw [MapEntry.allFieldsOf, List.mem_append] at hf
      rw [List.forall_mem_cons] at h
      rcases hf with hf | hf
      · exact (MapEntry.isWellKinded_iff e).mp h.1 f hf
      · exact ih h.2 hf

lemma isWellKinded_inline {map : FieldMap} (h : map.IsWellKinded kind) :
    (FieldsSource.inline map).IsWellKinded kind := by
  rintro _ ⟨⟩
  exact h

lemma isWellKinded_deferred {map : FieldMap} (h : map.IsWellKinded kind) :
    (FieldsSource.deferred map).IsWellKinded kind := by
  rintro _ ⟨⟩
  exact h

/-- A source without a map is of any kind. -/
lemma isWellKinded_of_map?_eq_none {source : FieldsSource} (h : source.map? = none) :
    source.IsWellKinded kind := by
  intro map hmap
  rw [h] at hmap
  cases hmap

end Kinds

namespace Locator

variable {setting : Setting}

/-- Arguments, and those in them, are arguments. -/
def wellKinded : Correspondence where
  entry _ e := e.IsWellKinded
  value _ v := v.IsWellKinded
  config _ _ c := c.IsWellKinded
  arguments _ source := source.IsWellKinded .arguments

lemma isWellKinded_of_entries {kind : MapKind} {span : Span} {ns : List Node} {es : List MapEntry}
    (h : List.Forall₂ wellKinded.entry ns es) : (FieldMap.mk kind span es).IsWellKinded kind :=
  isWellKinded_mk fun _ he => (exists_of_forall₂_right h he).elim fun _ h => h.2

lemma wellKinded_passesOn : wellKinded.PassesOn where
  spread _ _ _ := isWellKinded_of_field?_eq_none rfl
  computed _ := isWellKinded_of_field?_eq_none rfl
  named _ _ _ h := by
    rintro _ ⟨⟩
    exact h
  shorthand _ _ := by
    rintro _ ⟨⟩
    exact isWellKinded_of_config?_eq_none rfl
  wrapped_value := id
  inline_value h := by
    rintro _ ⟨⟩
    exact h
  plain_value _ h _ := isWellKinded_of_config?_eq_none h
  empty_config _ := by rintro _ ⟨⟩
  concat_config h _ _ harguments := by
    intro source hsource
    rcases harguments with heq | ⟨own, heq, hown | ⟨_, _, _, _, hown⟩⟩
    · exact h source (heq ▸ hsource)
    · cases heq.symm.trans hsource
      exact isWellKinded_of_map?_eq_none hown
    · cases heq.symm.trans hsource
      exact hown
  wrapped_arguments := id
  inline_arguments h := isWellKinded_inline (isWellKinded_of_entries h)
  decorated_arguments := id
  unknown_arguments _ h := isWellKinded_of_map?_eq_none h

/-! ### Maps that are returned -/

lemma reports_fieldMap (kind : MapKind) (properties : List Node) (s : Span) :
    Reports setting (FieldMap.IsWellKinded kind) (fieldMap kind properties s) :=
  (reports_entries wellKinded_passesOn kind properties).bind fun _ hes =>
    .pure (isWellKinded_of_entries hes)

/-- A map that a function returns. -/
lemma reports_deferred (kind : MapKind) (properties : List Node) (s : Span) :
    Reports setting (FieldsSource.IsWellKinded kind)
      (do return .deferred (← fieldMap kind properties s)) :=
  (reports_fieldMap kind properties s).bind fun _ hmap => .pure (isWellKinded_deferred hmap)

lemma reports_functionSource (kind : MapKind) (body : Option Node) (s : Span) :
    Reports setting (FieldsSource.IsWellKinded kind) (functionSource kind body s) := by
  rw [functionSource]
  split
  · exact reports_deferred kind _ _
  · exact .pure (isWellKinded_of_map?_eq_none rfl)

lemma reports_arrowSource (kind : MapKind) (body : Node) (s : Span) :
    Reports setting (FieldsSource.IsWellKinded kind) (arrowSource kind body s) := by
  unfold arrowSource
  dsimp only
  split
  · exact reports_deferred kind _ _
  · exact .pure (isWellKinded_of_map?_eq_none rfl)

lemma reports_thunkSource (kind : MapKind) (n : Node) :
    Reports setting (FieldsSource.IsWellKinded kind) (thunkSource kind n) := by
  rw [thunkSource]
  split
  · exact (reports_fieldMap kind _ _).bind fun _ hmap => .pure (isWellKinded_inline hmap)
  · exact reports_arrowSource kind _ _
  · exact reports_functionSource kind _ _
  · exact .pure (isWellKinded_of_map?_eq_none rfl)
  · exact .read (.pure (isWellKinded_of_map?_eq_none rfl))
  · exact .pure (isWellKinded_of_map?_eq_none rfl)

/-- What a property is read as is of the kind that it is read for, whatever was
found before. -/
theorem reports_fieldsSource (kind : MapKind) (value : PropertyValue) :
    Reports setting (FieldsSource.IsWellKinded kind) (fieldsSource kind value) := by
  cases value with
  | expression value => exact reports_thunkSource kind value
  | name text s => exact .pure (isWellKinded_of_map?_eq_none rfl)
  | method parameters body s => exact reports_functionSource kind body s

end Locator

end GraphMigrate
