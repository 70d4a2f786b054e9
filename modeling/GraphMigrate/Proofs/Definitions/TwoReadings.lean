/-
What two spellings of a map are read as.

Maps and configurations that are written in two ways are read side by side.  Both
searches stop alike, or they answer alike and leave notes that agree.  There is one
exception: the arguments of a configuration in short leave no note, but written out
they leave a warning.  So the configurations that are read and have their arguments in
short are counted, and the count goes down by each warning that comes in between.

* `Agree`, `Matches`: two ends, and two steps of a search, that agree;
* `shortInEntries`, `shortInConfig`: how many configurations have their arguments in
  short;
* `matches_entries`, `matches_fieldConfig`: **maps and configurations in two spellings
  are read alike**.
-/
import GraphMigrate.Proofs.Definitions.Alike

namespace GraphMigrate.Locator

open Script (Node Source)

variable {sp : Spelling}

/-! ### Two searches -/

section Searches

variable {α α' β β' : Type} {A : α → α' → Prop} {B : β → β' → Prop} {m m' l l' : ℕ}

/-- Two searches end alike: both stop, or both answer.  Then `m` more of what is in short was
read by the first search and `m'` more by the second, and the difference came in between. -/
inductive Agree (sp : Spelling) (A : α → α' → Prop) (m m' k : ℕ) :
    Except LocateError (α × Definitions) → Except LocateError (α' × Definitions) → Prop
  | stop {e e' : LocateError} (h : e.anywhere = e'.anywhere) :
      Agree sp A m m' k (.error e) (.error e')
  | answer {a : α} {a' : α'} {d d' : Definitions} {k' : ℕ} (ha : A a a')
      (hk : k' + m' = k + m) (hd : d.Alike sp k' d') :
      Agree sp A m m' k (.ok (a, d)) (.ok (a', d'))

lemma Agree.weaken {k : ℕ} {r : Except LocateError (α × Definitions)}
    {r' : Except LocateError (α' × Definitions)} (h : Agree sp A m m' k r r')
    {A' : α → α' → Prop} (hA : ∀ a a', A a a' → A' a a') {j : ℕ} (hk : k + m + l' = j + l + m') :
    Agree sp A' l l' j r r' := by
  cases h with
  | stop he => exact .stop he
  | answer ha hk' hd => exact .answer (hA _ _ ha) (by omega) hd

/-- Two steps that end alike wherever they start alike. -/
structure Matches (sp : Spelling) (A : α → α' → Prop) (m m' : ℕ) (p : Search α)
    (p' : Search α') : Prop where
  agree : ∀ {k : ℕ} {d d' : Definitions}, d.Alike sp k d' →
    Agree sp A m m' k (p sp.first d) (p' sp.second d')

namespace Matches

variable {p : Search α} {p' : Search α'} {q : Search β} {q' : Search β'}
  {next : α → Search β} {next' : α' → Search β'}

protected lemma pure {a : α} {a' : α'} (h : A a a') : Matches sp A 0 0 (pure a) (pure a') :=
  ⟨fun hd => .answer h rfl hd⟩

protected lemma bind (h : Matches sp A m m' p p')
    (hnext : ∀ a a', A a a' → Matches sp B l l' (next a) (next' a')) :
    Matches sp B (m + l) (m' + l') (p >>= next) (p' >>= next') := by
  refine ⟨fun {k d d'} hd => ?_⟩
  have hfirst := h.agree hd
  rw [bind_apply, bind_apply]
  generalize p sp.first d = r at hfirst
  generalize p' sp.second d' = r' at hfirst
  cases hfirst with
  | stop he => exact .stop he
  | answer ha hk hd => exact ((hnext _ _ ha).agree hd).weaken (fun _ _ h => h) (by omega)

/-- A step whose answer is all that is needed. -/
lemma bind_pure {f : α → β} {f' : α' → β'} (h : Matches sp A m m' p p')
    (hf : ∀ a a', A a a' → B (f a) (f' a')) :
    Matches sp B m m' (do return f (← p)) (do return f' (← p')) :=
  h.bind fun a a' ha => .pure (hf a a' ha)

protected lemma read {next : Setting → Search β} {next' : Setting → Search β'}
    (h : Matches sp B m m' (next sp.first) (next' sp.second)) :
    Matches sp B m m' (read >>= next) (read >>= next') := ⟨fun hd => h.agree hd⟩

/-- The setting may be looked up by the second step only. -/
lemma read_right {next' : Setting → Search β'} (h : Matches sp B m m' q (next' sp.second)) :
    Matches sp B m m' q (read >>= next') := ⟨fun hd => h.agree hd⟩

protected lemma stop {e e' : LocateError} (h : e.anywhere = e'.anywhere) :
    Matches sp A 0 0 (stop e) (stop e') := ⟨fun _ => .stop h⟩

lemma mono {A' : α → α' → Prop} (h : Matches sp A m m' p p') (hA : ∀ a a', A a a' → A' a a') :
    Matches sp A' m m' p p' :=
  ⟨fun hd => (h.agree hd).weaken hA (by omega)⟩

/-- What both steps read in short makes no difference. -/
lemma both_more (h : Matches sp A m m' p p') (j : ℕ) : Matches sp A (m + j) (m' + j) p p' :=
  ⟨fun hd => (h.agree hd).weaken (fun _ _ h => h) (by omega)⟩

/-- A change of what was found. -/
protected lemma modify {f f' : Definitions → Definitions}
    (h : ∀ {k d d'}, Definitions.Alike sp k d d' → (f d).Alike sp k (f' d')) :
    Matches sp (fun _ _ => True) 0 0 (modify f : Search Unit) (modify f') :=
  ⟨fun hd => .answer trivial rfl (h hd)⟩

/-- Warnings that agree, before something else. -/
lemma warn_bind_of {message message' : String} {s s' : Span} (h : Matches sp B m m' q q')
    (hnote : NoteAlike sp (.warning message s) (.warning message' s')) :
    Matches sp B m m' (do warn message s; q) (do warn message' s'; q') :=
  ⟨fun hd => h.agree { hd with notes := hd.notes.concat hnote }⟩

lemma warn_bind {message : String} {s s' : Span} (h : Matches sp B m m' q q') :
    Matches sp B m m' (do warn message s; q) (do warn message s'; q') :=
  h.warn_bind_of (.same _ _ _ _)

/-- A warning that comes in between, where something was written out. -/
lemma bind_warn (h : Matches sp B m m' q q') (hallowed : sp.allowed .longhand) {s : Span} :
    Matches sp B (m + 1) m' q (do warn skippingArguments s; q') := by
  refine ⟨fun {k d d'} hd => ?_⟩
  have hmore : d.Alike sp (k + 1)
      { d' with diagnostics := d'.diagnostics ++ [.warning skippingArguments s] } :=
    { hd with notes := hd.notes.more hallowed s }
  exact (h.agree hmore).weaken (fun _ _ h => h) (by omega)

end Matches

end Searches

/-! ### Names and labels -/

section Parts

variable {n n' : Node}

lemma expressionName?_eq (h : Respelled sp n n') : expressionName? n = expressionName? n' := by
  unfold expressionName?
  have hunwrap := h.unwrap
  generalize n.unwrap = m at hunwrap
  generalize n'.unwrap = m' at hunwrap
  cases hunwrap <;> rfl

lemma labelsAlike_quote (h : Respelled sp n n') (hquote : sp.QuotesAlike n n') :
    sp.LabelsAlike (sp.before.quote n.span) (sp.after.quote n'.span) := by
  obtain ⟨hn, hn', hsame⟩ := hquote
  rcases h.size_le.eq_or_lt with hsize | hsize
  · exact .inl (hsame hsize)
  · exact .inr ⟨n, hn, n', hn', h, hsize, rfl, rfl⟩

lemma labelsAlike_calleeLabel (h : Respelled sp n n') (hquote : sp.QuotesAlike n n') :
    sp.LabelsAlike (calleeLabel sp.before n) (calleeLabel sp.after n') := by
  have hlabel := labelsAlike_quote h hquote
  cases h with
  | plain h =>
      cases h with
      | keyword => exact .inl rfl
      | _ => exact hlabel
  | wrapped _ hn =>
      cases n with
      | keyword => cases hn
      | _ => exact hlabel

/-! ### Resolvers -/

/-- A property of a pattern anywhere. -/
def patternAnywhere (property : PatternProperty) : PatternProperty :=
  { property with keySpan := default }

lemma patternProperty?_eq (h : Respelled sp n n') :
    (patternProperty? sp.before n).map patternAnywhere =
      (patternProperty? sp.after n').map patternAnywhere := by
  cases h with
  | plain h =>
      cases h with
      | patternKeyed hkey =>
          simp only [patternProperty?, hkey, Option.map_map]
          rfl
      | _ => rfl
  | wrapped _ hn =>
      cases n with
      | patternKeyed | patternName => cases hn
      | _ => rfl

lemma isPatternRest_eq (h : Respelled sp n n') : isPatternRest n = isPatternRest n' := by
  cases h with
  | plain h => cases h <;> rfl
  | wrapped _ hn =>
      cases n with
      | patternRest => cases hn
      | _ => rfl

lemma filterMap_eq_of_forall₂ {α β γ : Type} {f : Node → Option α} {f' : Node → Option β}
    {g : α → γ} {g' : β → γ} {ns ns' : List Node} (hns : List.Forall₂ (Respelled sp) ns ns')
    (h : ∀ {n n'}, Respelled sp n n' → (f n).map g = (f' n').map g') :
    (ns.filterMap f).map g = (ns'.filterMap f').map g' := by
  induction hns with
  | nil => rfl
  | @cons n n' ns ns' hn _ ih =>
      have heq := h hn
      rw [List.filterMap_cons, List.filterMap_cons]
      cases hf : f n <;> cases hf' : f' n' <;> simp_all

lemma map_eq_of_forall₂ {α : Type} {f f' : Node → α} {ns ns' : List Node}
    (hns : List.Forall₂ (Respelled sp) ns ns') (h : ∀ {n n'}, Respelled sp n n' → f n = f' n') :
    ns.map f = ns'.map f' := by
  induction hns with
  | nil => rfl
  | cons hn _ ih => rw [List.map_cons, List.map_cons, h hn, ih]

lemma parameter_anywhere (h : Respelled sp n n') :
    (parameter sp.before n).anywhere = (parameter sp.after n').anywhere := by
  induction n using Node.induction_children generalizing n' with
  | h n ih =>
      cases h with
      | plain h =>
          cases h with
          | binding _ _ _ htyping => cases htyping <;> rfl
          | objectPattern _ _ hproperties =>
              have hnamed := filterMap_eq_of_forall₂ hproperties patternProperty?_eq
              have hrests := map_eq_of_forall₂ hproperties isPatternRest_eq
              have hrest := congrArg (·.any id) hrests
              simp only [List.any_map, Function.id_comp] at hrest
              rw [parameter, parameter, Parameter.anywhere, Parameter.anywhere, hrest]
              exact congrArg (fun ps => Parameter.object ⟨default, ps, _⟩) hnamed
          | @decorated decorators _ inner inner' _ hinner =>
              have hmem : inner ∈ (Node.decorated decorators inner).children :=
                List.mem_append_right _ (List.mem_singleton_self _)
              rw [parameter, parameter]
              exact ih inner hmem hinner
          | _ => rfl
      | wrapped _ hn =>
          cases n with
          | binding | objectPattern | pattern | decorated => cases hn
          | _ => rfl

lemma blockBody_anywhere (h : Respelled sp n n') :
    (blockBody n).anywhere = (blockBody n').anywhere := by
  cases h with
  | plain h =>
      cases h with
      | block _ _ hstatements => cases hstatements <;> rfl
      | _ => rfl
  | wrapped _ hn =>
      cases n with
      | block => cases hn
      | _ => rfl

lemma map_parameter_anywhere {ns ns' : List Node} (h : List.Forall₂ (Respelled sp) ns ns') :
    (ns.map (parameter sp.before)).map Parameter.anywhere =
      (ns'.map (parameter sp.after)).map Parameter.anywhere := by
  rw [List.map_map, List.map_map]
  exact map_eq_of_forall₂ h parameter_anywhere

lemma functionResolver?_anywhere {ns ns' : List Node} {body body' : Option Node}
    (hparameters : List.Forall₂ (Respelled sp) ns ns')
    (hbody : Option.Rel (Respelled sp) body body') (s s' : Span) :
    (functionResolver? sp.before ns body s).map Resolver.anywhere =
      (functionResolver? sp.after ns' body' s').map Resolver.anywhere := by
  cases hbody with
  | none => rfl
  | some hbody =>
      simp only [functionResolver?, Option.map_some, Resolver.anywhere,
        map_parameter_anywhere hparameters, blockBody_anywhere hbody]

/-- A function is recognised in both spellings, with the same parameters. -/
lemma resolver?_anywhere (h : Respelled sp n n') :
    (resolver? sp.before n).map Resolver.anywhere =
      (resolver? sp.after n').map Resolver.anywhere := by
  unfold resolver?
  have hunwrap := h.unwrap
  generalize n.unwrap = m at hunwrap
  generalize n'.unwrap = m' at hunwrap
  cases hunwrap with
  | @arrow _ _ _ _ body _ _ _ hparameters hbody =>
      simp only [Option.map_some, Resolver.anywhere, map_parameter_anywhere hparameters]
      refine congrArg (fun inside => some (Resolver.mk default _ inside)) ?_
      have hblock := blockBody_anywhere hbody
      cases hbody with
      | plain hbody =>
          cases hbody with
          | block => exact hblock
          | _ => rfl
      | wrapped _ hn =>
          cases body with
          | block => cases hn
          | _ => rfl
  | function _ _ hparameters hbody => exact functionResolver?_anywhere hparameters hbody _ _
  | _ => rfl

/-! ### Types -/

lemma typeExpression_anywhere (h : Respelled sp n n') :
    (typeExpression sp.first n).anywhere = (typeExpression sp.second n').anywhere := by
  unfold typeExpression
  have hunwrap := h.unwrap
  generalize n.unwrap = m at hunwrap
  generalize n'.unwrap = m' at hunwrap
  cases hunwrap with
  | construct _ _ hcallee =>
      dsimp only
      rw [expressionName?_eq hcallee, Spelling.first, Spelling.second]
      split <;> rfl
  | _ => rfl

end Parts

/-! ### What is in short -/

mutual

/-- How many configurations that are read in a map have their arguments in short. -/
def shortInEntries (setting : Setting) : List Node → ℕ
  | [] => 0
  | p :: ps => shortInEntry setting p + shortInEntries setting ps

/-- How many in an entry. -/
def shortInEntry (setting : Setting) : Node → ℕ
  | .keyed key _ value =>
    if setting.source.keyName? key = none then 0 else shortInValue setting value
  | _ => 0

/-- How many in the value of an entry. -/
def shortInValue (setting : Setting) : Node → ℕ
  | .wrapped _ inner _ _ => shortInValue setting inner
  | .object properties _ => shortInConfig setting properties
  | _ => 0

/-- How many in a configuration, which may be one itself. -/
def shortInConfig (setting : Setting) : List Node → ℕ
  | [] => 0
  | p :: ps => shortInProperty setting p + shortInConfig setting ps

/-- How many in a property of a configuration. -/
def shortInProperty (setting : Setting) : Node → ℕ
  | .keyed key _ value =>
    if setting.source.keyName? key = some "args" then shortInArguments setting value else 0
  | .shorthand text _ => if text = "args" then 1 else 0
  | _ => 0

/-- How many in the arguments of a configuration. -/
def shortInArguments (setting : Setting) : Node → ℕ
  | .wrapped _ inner _ _ => shortInArguments setting inner
  | .object properties _ => shortInEntries setting properties
  | .call callee arguments _ _ =>
    if (expressionName? callee).any setting.vocabulary.argumentDecorators.contains then
      match arguments with
      | [] => 0
      | first :: _ => shortInArguments setting first
    else 0
  | _ => 0

end

/-! ### Maps and configurations -/

section Reading

variable {n n' : Node} {kind : MapKind}

/-- Entries are read alike if their values are. -/
lemma matches_entry_of (h : Respelled sp n n') (hvalue : ∀ key index value,
      n = .keyed key index value → ∀ {value'}, Respelled sp value value' →
      Matches sp (FieldValue.Alike sp) (shortInValue sp.first value)
        (shortInValue sp.second value') (fieldValue value) (fieldValue value')) :
    Matches sp (MapEntry.Alike sp) (shortInEntry sp.first n) (shortInEntry sp.second n')
      (entry kind n) (entry kind n') := by
  cases h with
  | plain h =>
      cases h with
      | longhand hallowed text s ks vs =>
          have hvalue : FieldValue.Alike sp (.reference text s) (.reference text vs) :=
            .reference _ _ _
          simp only [entry, shortInEntry, Source.keyName?, fieldValue, shortInValue]
          exact ⟨fun hd => .answer (.field _ _ _ _ _ (.inr ⟨hallowed, rfl, rfl⟩) hvalue) rfl hd⟩
      | spread dots dots' hv hquote =>
          simp only [entry, shortInEntry]
          exact .read ((Matches.pure (.spread _ _ (labelsAlike_quote hv hquote))).warn_bind_of
            (.spread _ _ (labelsAlike_quote hv hquote)))
      | @keyed key key' _ _ value value' hkey _ hv =>
          have hkey' : sp.first.source.keyName? key = sp.second.source.keyName? key' := hkey
          simp only [entry, shortInEntry]
          refine .read ?_
          rw [← hkey']
          cases sp.first.source.keyName? key with
          | none => exact (Matches.pure (.computed _ _)).warn_bind
          | some name =>
              exact (hvalue _ _ _ rfl hv).bind_pure fun _ _ ha => .field _ _ _ _ _ (.inl rfl) ha
      | shorthand text s s' =>
          simp only [entry, shortInEntry]
          exact .pure (.field _ _ _ _ _ (.inl rfl) (.reference _ _ _))
      | method =>
          simp only [entry, shortInEntry]
          exact .stop rfl
      | accessor kind =>
          cases kind <;>
          · simp only [entry, shortInEntry]
            exact .stop rfl
      | assigned =>
          simp only [entry, shortInEntry]
          exact .stop rfl
      | _ =>
          simp only [entry, shortInEntry]
          exact .pure (.computed _ _)
  | wrapped _ hn =>
      cases n with
      | spread | keyed | shorthand | method | accessor | assigned => cases hn
      | _ =>
          simp only [entry, shortInEntry]
          exact .pure (.computed _ _)

/-- What looks through one wrapper looks through all. -/
lemma apply_unwrap {α : Type} {f : Node → α}
    (hf : ∀ wrapper inner types s, f (.wrapped wrapper inner types s) = f inner) (n : Node) :
    f n.unwrap = f n := by
  fun_induction Node.unwrap n with
  | case1 wrapper inner types s ih => rw [ih, hf]
  | case2 => rfl

lemma fieldValue_unwrap (n : Node) : fieldValue n.unwrap = fieldValue n :=
  apply_unwrap (fun _ _ _ _ => by rw [fieldValue]) n

lemma shortInValue_unwrap (setting : Setting) (n : Node) :
    shortInValue setting n.unwrap = shortInValue setting n :=
  apply_unwrap (fun _ _ _ _ => by rw [shortInValue]) n

/-- Values are read alike if the expressions in them are, or the configurations that they
are. -/
lemma matches_fieldValue_of (h : Respelled sp n n')
    (hinner : ∀ wrapper inner types s, n = .wrapped wrapper inner types s →
      ∀ {inner'}, Respelled sp inner inner' → Matches sp (FieldValue.Alike sp)
        (shortInValue sp.first inner) (shortInValue sp.second inner') (fieldValue inner)
        (fieldValue inner'))
    (hobject : ∀ properties s, n = .object properties s → ∀ {properties'} (s' : Span),
      List.Forall₂ (Respelled sp) properties properties' →
      Matches sp (FieldConfig.Alike sp) (shortInConfig sp.first properties)
        (shortInConfig sp.second properties')
        (fieldConfig s (.mk s [] none none none false) properties)
        (fieldConfig s' (.mk s' [] none none none false) properties')) :
    Matches sp (FieldValue.Alike sp) (shortInValue sp.first n) (shortInValue sp.second n')
      (fieldValue n) (fieldValue n') := by
  obtain ⟨n'', hbelow, hunwrap⟩ := h.exists_below
  rw [← fieldValue_unwrap n', ← shortInValue_unwrap sp.second n', ← hunwrap, fieldValue_unwrap,
    shortInValue_unwrap]
  cases hbelow with
  | wrapped _ _ _ hin =>
      simp only [fieldValue, shortInValue]
      exact hinner _ _ _ _ rfl hin
  | object s s' hproperties =>
      simp only [fieldValue, shortInValue]
      exact (hobject _ _ rfl s' hproperties).bind_pure fun _ _ => .config
  | name =>
      simp only [fieldValue, shortInValue]
      exact .pure (.reference _ _ _)
  | call _ _ hcallee hquote =>
      simp only [fieldValue, shortInValue]
      exact .read (.pure (.call _ _ (labelsAlike_calleeLabel hcallee hquote)))
  | _ =>
      simp only [fieldValue, shortInValue]
      exact .pure (.other _ _)

/-- One more property, of the same name. -/
lemma map_name_concat {properties properties' : List ConfigProperty}
    (h : properties.map ConfigProperty.name = properties'.map ConfigProperty.name)
    {name name' : Option String} (hname : name = name') (s s' : Span) :
    (properties ++ [ConfigProperty.mk name s]).map ConfigProperty.name =
      (properties' ++ [ConfigProperty.mk name' s']).map ConfigProperty.name := by
  rw [List.map_append, List.map_append, h, hname]
  rfl

section Properties

variable {config config' : FieldConfig} (hconfig : FieldConfig.Alike sp config config')

include hconfig

/-- A property that is written out.  For arguments this leaves a warning. -/
lemma matches_longhandProperty (hallowed : sp.allowed .longhand) (text : String)
    (t ks vs : Span) :
    Matches sp (FieldConfig.Alike sp) (shortInProperty sp.first (.shorthand text t))
      (shortInProperty sp.second (.keyed ⟨.name text, ks⟩ [] (.name text vs)))
      (configProperty config (.shorthand text t))
      (configProperty config' (.keyed ⟨.name text, ks⟩ [] (.name text vs))) := by
  cases hconfig with
  | mk s s' deprecated hproperties htype harguments hresolve =>
  have hnames := map_name_concat hproperties (Eq.refl (some text)) t ⟨ks.start, vs.stop⟩
  have hkey : sp.second.source.keyName? ⟨.name text, ks⟩ = some text := rfl
  simp only [configProperty, shortInProperty, hkey, Option.some.injEq, beq_iff_eq]
  refine .read_right ?_
  simp only [hkey, Option.some.injEq]
  split_ifs with hargs htypeKey
  · exact absurd (hargs.symm.trans htypeKey) (by decide)
  · have hread : Matches sp (FieldConfig.Alike sp) 0 0 (pure _) (pure _) :=
      .pure (.mk s s' deprecated hnames htype (.some (.reference text t vs)) hresolve)
    simp only [argumentsSource, shortInArguments]
    exact ⟨fun hd => (hread.bind_warn hallowed).agree hd⟩
  · exact .pure (.mk _ _ _ hnames rfl harguments hresolve)
  · exact .pure (.mk _ _ _ hnames htype harguments rfl)
  · exact .pure (.mk _ _ _ hnames htype harguments hresolve)
  · exact .pure (.mk _ _ _ hnames htype harguments hresolve)

/-- A property that stays in short. -/
lemma matches_shorthandProperty (text : String) (t t' : Span) :
    Matches sp (FieldConfig.Alike sp) (shortInProperty sp.first (.shorthand text t))
      (shortInProperty sp.second (.shorthand text t')) (configProperty config (.shorthand text t))
      (configProperty config' (.shorthand text t')) := by
  cases hconfig with
  | mk s s' deprecated hproperties htype harguments hresolve =>
  have hnames := map_name_concat hproperties (Eq.refl (some text)) t t'
  simp only [configProperty, shortInProperty, beq_iff_eq]
  split_ifs with hargs htypeKey
  · exact absurd (hargs.symm.trans htypeKey) (by decide)
  · have hread : Matches sp (FieldConfig.Alike sp) 0 0 (pure _) (pure _) :=
      .pure (.mk s s' deprecated hnames htype (.some (.reference text t t')) hresolve)
    exact hread.both_more 1
  · exact .pure (.mk _ _ _ hnames rfl harguments hresolve)
  · exact .pure (.mk _ _ _ hnames htype harguments rfl)
  · exact .pure (.mk _ _ _ hnames htype harguments hresolve)
  · exact .pure (.mk _ _ _ hnames htype harguments hresolve)

/-- A property with a value, which may hold the arguments. -/
lemma matches_keyedProperty {key key' : Script.Key} {value value' : Node}
    (hkey : sp.before.keyName? key = sp.after.keyName? key') (hv : Respelled sp value value')
    (hvalue : Matches sp (FieldsSource.Alike sp) (shortInArguments sp.first value)
      (shortInArguments sp.second value') (argumentsSource value) (argumentsSource value'))
    (index index' : List Node) :
    Matches sp (FieldConfig.Alike sp) (shortInProperty sp.first (.keyed key index value))
      (shortInProperty sp.second (.keyed key' index' value'))
      (configProperty config (.keyed key index value))
      (configProperty config' (.keyed key' index' value')) := by
  cases hconfig with
  | mk s s' deprecated hproperties htype harguments hresolve =>
  have hnames {name : Option String} (t t' : Span) :=
    map_name_concat hproperties (Eq.refl name) t t'
  have hkey' : sp.first.source.keyName? key = sp.second.source.keyName? key' := hkey
  simp only [configProperty, shortInProperty, beq_iff_eq]
  refine .read ?_
  rw [← hkey']
  split_ifs with hargs htypeKey
  · exact absurd (hargs.symm.trans htypeKey) (by decide)
  · exact hvalue.bind_pure fun _ _ hfound =>
      .mk _ _ _ (hnames _ _) htype (.some hfound) hresolve
  · exact .pure (.mk _ _ _ (hnames _ _) (congrArg some (typeExpression_anywhere hv)) harguments
      hresolve)
  · refine .pure (.mk _ _ _ (hnames _ _) htype harguments ?_)
    exact congrArg (fun f => some (ResolverProperty.mk default f)) (resolver?_anywhere hv)
  · exact .pure (.mk _ _ _ (hnames _ _) htype harguments hresolve)
  · exact .pure (.mk _ _ _ (hnames _ _) htype harguments hresolve)

/-- A property that is a method. -/
lemma matches_methodProperty {key key' : Script.Key} {ns ns' : List Node}
    {body body' : Option Node} (hkey : sp.before.keyName? key = sp.after.keyName? key')
    (hparameters : List.Forall₂ (Respelled sp) ns ns')
    (hbody : Option.Rel (Respelled sp) body body') (index index' types types' : List Node)
    (t t' : Span) :
    Matches sp (FieldConfig.Alike sp)
      (shortInProperty sp.first (.method key index ns body types t))
      (shortInProperty sp.second (.method key' index' ns' body' types' t'))
      (configProperty config (.method key index ns body types t))
      (configProperty config' (.method key' index' ns' body' types' t')) := by
  cases hconfig with
  | mk s s' deprecated hproperties htype harguments hresolve =>
  have hnames {name : Option String} (t t' : Span) :=
    map_name_concat hproperties (Eq.refl name) t t'
  have hkey' : sp.first.source.keyName? key = sp.second.source.keyName? key' := hkey
  have hfunction := functionResolver?_anywhere hparameters hbody t t'
  simp only [configProperty, shortInProperty, beq_iff_eq]
  refine .read ?_
  rw [← hkey']
  split_ifs
  · refine .pure (.mk _ _ _ (hnames _ _) htype harguments ?_)
    exact congrArg (fun f => some (ResolverProperty.mk default f)) hfunction
  · exact .pure (.mk _ _ _ (hnames _ _) htype harguments hresolve)

/-- The properties of configurations are read alike if the arguments in them are. -/
lemma matches_configProperty_of (h : Respelled sp n n')
    (hvalue : ∀ key index value, n = .keyed key index value → ∀ {value'},
      Respelled sp value value' → Matches sp (FieldsSource.Alike sp)
        (shortInArguments sp.first value) (shortInArguments sp.second value')
        (argumentsSource value) (argumentsSource value')) :
    Matches sp (FieldConfig.Alike sp) (shortInProperty sp.first n) (shortInProperty sp.second n')
      (configProperty config n) (configProperty config' n') := by
  cases h with
  | plain h =>
      cases h with
      | longhand hallowed text t ks vs =>
          exact matches_longhandProperty hconfig hallowed text t ks vs
      | keyed hkey _ hv =>
          exact matches_keyedProperty hconfig hkey hv (hvalue _ _ _ rfl hv) _ _
      | shorthand text t t' => exact matches_shorthandProperty hconfig text t t'
      | method t t' hkey _ hparameters hbody =>
          exact matches_methodProperty hconfig hkey hparameters hbody _ _ _ _ t t'
      | accessor _ _ _ hkey =>
          cases hconfig with
          | mk _ _ _ hproperties htype harguments hresolve =>
          simp only [configProperty, shortInProperty]
          exact .read (.pure (.mk _ _ _ (map_name_concat hproperties hkey _ _) htype harguments
            hresolve))
      | _ =>
          cases hconfig with
          | mk _ _ _ hproperties htype harguments hresolve =>
          simp only [configProperty, shortInProperty]
          exact .read (.pure (.mk _ _ _ (map_name_concat hproperties rfl _ _) htype harguments
            hresolve))
  | wrapped _ hn =>
      cases n with
      | keyed | shorthand | method | accessor | assigned => cases hn
      | _ =>
          cases hconfig with
          | mk _ _ _ hproperties htype harguments hresolve =>
          simp only [configProperty, shortInProperty]
          exact .read (.pure (.mk _ _ _ (map_name_concat hproperties rfl _ _) htype harguments
            hresolve))

end Properties

lemma argumentsSource_unwrap (n : Node) : argumentsSource n.unwrap = argumentsSource n :=
  apply_unwrap (fun _ _ _ _ => by rw [argumentsSource]) n

lemma shortInArguments_unwrap (setting : Setting) (n : Node) :
    shortInArguments setting n.unwrap = shortInArguments setting n :=
  apply_unwrap (fun _ _ _ _ => by rw [shortInArguments]) n

/-- Arguments are read alike if the entries or the expression in them are, or what a
decorator is given. -/
lemma matches_argumentsSource_of (h : Respelled sp n n')
    (hinner : ∀ wrapper inner types s, n = .wrapped wrapper inner types s →
      ∀ {inner'}, Respelled sp inner inner' → Matches sp (FieldsSource.Alike sp)
        (shortInArguments sp.first inner) (shortInArguments sp.second inner')
        (argumentsSource inner) (argumentsSource inner'))
    (hobject : ∀ properties s, n = .object properties s → ∀ {properties'},
      List.Forall₂ (Respelled sp) properties properties' →
      Matches sp (List.Forall₂ (MapEntry.Alike sp)) (shortInEntries sp.first properties)
        (shortInEntries sp.second properties') (entries .arguments properties)
        (entries .arguments properties'))
    (hfirst : ∀ callee first later types s, n = .call callee (first :: later) types s →
      ∀ {first'}, Respelled sp first first' → Matches sp (FieldsSource.Alike sp)
        (shortInArguments sp.first first) (shortInArguments sp.second first')
        (argumentsSource first) (argumentsSource first')) :
    Matches sp (FieldsSource.Alike sp) (shortInArguments sp.first n)
      (shortInArguments sp.second n') (argumentsSource n) (argumentsSource n') := by
  obtain ⟨n'', hbelow, hunwrap⟩ := h.exists_below
  rw [← argumentsSource_unwrap n', ← shortInArguments_unwrap sp.second n', ← hunwrap,
    argumentsSource_unwrap, shortInArguments_unwrap]
  cases hbelow with
  | wrapped _ _ _ hin =>
      simp only [argumentsSource, shortInArguments]
      exact hinner _ _ _ _ rfl hin
  | object s s' hproperties =>
      simp only [argumentsSource, shortInArguments]
      exact (hobject _ _ rfl hproperties).bind_pure fun _ _ hes => .inline (.mk _ _ _ hes)
  | name =>
      simp only [argumentsSource, shortInArguments]
      exact (Matches.pure (.reference _ _ _)).warn_bind
  | call s s' hcallee hquote harguments =>
      unfold argumentsSource shortInArguments
      refine .read ?_
      have hvocabulary : sp.first.vocabulary = sp.second.vocabulary := rfl
      rw [expressionName?_eq hcallee, hvocabulary]
      split_ifs
      · cases harguments with
        | nil => exact (Matches.pure (.unsupported _ _)).warn_bind
        | @cons first first' _ _ hone _ =>
            have hread := hfirst _ _ _ _ _ rfl hone
            cases hone with
            | plain hone =>
                cases hone with
                | spread => exact (Matches.pure (.unsupported _ _)).warn_bind
                | _ => exact hread
            | wrapped _ hn =>
                cases first with
                | spread => cases hn
                | _ => exact hread
      · exact (Matches.pure (.call _ _ (labelsAlike_calleeLabel hcallee hquote))).warn_bind
  | _ =>
      simp only [argumentsSource, shortInArguments]
      exact (Matches.pure (.unsupported _ _)).warn_bind

end Reading

mutual

/-- **Entries in two spellings are read alike.** -/
theorem matches_entries (kind : MapKind) : (ns : List Node) → {ns' : List Node} →
    List.Forall₂ (Respelled sp) ns ns' →
    Matches sp (List.Forall₂ (MapEntry.Alike sp)) (shortInEntries sp.first ns)
      (shortInEntries sp.second ns') (entries kind ns) (entries kind ns')
  | [], _, h => by
    cases h
    simp only [entries, shortInEntries]
    exact .pure .nil
  | n :: ns, _, h => by
    cases h with
    | cons hn hns =>
        simp only [entries, shortInEntries]
        exact (matches_entry kind n hn).bind fun _ _ he =>
          (matches_entries kind ns hns).bind_pure fun _ _ hes => .cons he hes
termination_by structural ns => ns

theorem matches_entry (kind : MapKind) (n : Node) {n' : Node} (h : Respelled sp n n') :
    Matches sp (MapEntry.Alike sp) (shortInEntry sp.first n) (shortInEntry sp.second n')
      (entry kind n) (entry kind n') := by
  cases n with
  | keyed key index value =>
      have hvalue := @matches_fieldValue value
      exact matches_entry_of h fun _ _ _ heq => by cases heq; exact hvalue
  | _ => exact matches_entry_of h fun _ _ _ heq => by cases heq
termination_by structural n

theorem matches_fieldValue (n : Node) {n' : Node} (h : Respelled sp n n') :
    Matches sp (FieldValue.Alike sp) (shortInValue sp.first n) (shortInValue sp.second n')
      (fieldValue n) (fieldValue n') := by
  cases n with
  | wrapped wrapper inner types s =>
      have hinner := @matches_fieldValue inner
      exact matches_fieldValue_of h (fun _ _ _ _ heq => by cases heq; exact hinner)
        fun _ _ heq => by cases heq
  | object properties s =>
      have hobject := fun {ps'} (s' : Span) =>
        @matches_fieldConfig s s' _ _ (FieldConfig.alike_new sp s s') properties ps'
      exact matches_fieldValue_of h (fun _ _ _ _ heq => by cases heq)
        fun _ _ heq => by cases heq; exact hobject
  | _ =>
      exact matches_fieldValue_of h (fun _ _ _ _ heq => by cases heq) fun _ _ heq => by cases heq
termination_by structural n

/-- **Configurations in two spellings are read alike.** -/
theorem matches_fieldConfig {s s' : Span} {config config' : FieldConfig}
    (hconfig : FieldConfig.Alike sp config config') : (ns : List Node) → {ns' : List Node} →
    List.Forall₂ (Respelled sp) ns ns' →
    Matches sp (FieldConfig.Alike sp) (shortInConfig sp.first ns) (shortInConfig sp.second ns')
      (fieldConfig s config ns) (fieldConfig s' config' ns')
  | [], _, h => by
    cases h
    simp only [fieldConfig, shortInConfig]
    exact .pure hconfig
  | n :: ns, _, h => by
    cases h with
    | cons hn hns =>
        simp only [fieldConfig, shortInConfig]
        exact (matches_configProperty hconfig n hn).bind fun _ _ hlater =>
          matches_fieldConfig hlater ns hns
termination_by structural ns => ns

theorem matches_configProperty {config config' : FieldConfig}
    (hconfig : FieldConfig.Alike sp config config') (n : Node) {n' : Node}
    (h : Respelled sp n n') :
    Matches sp (FieldConfig.Alike sp) (shortInProperty sp.first n) (shortInProperty sp.second n')
      (configProperty config n) (configProperty config' n') := by
  cases n with
  | keyed key index value =>
      have hvalue := @matches_argumentsSource value
      exact matches_configProperty_of hconfig h fun _ _ _ heq => by cases heq; exact hvalue
  | _ => exact matches_configProperty_of hconfig h fun _ _ _ heq => by cases heq
termination_by structural n

theorem matches_argumentsSource (n : Node) {n' : Node} (h : Respelled sp n n') :
    Matches sp (FieldsSource.Alike sp) (shortInArguments sp.first n)
      (shortInArguments sp.second n') (argumentsSource n) (argumentsSource n') := by
  cases n with
  | wrapped wrapper inner types s =>
      have hinner := @matches_argumentsSource inner
      exact matches_argumentsSource_of h (fun _ _ _ _ heq => by cases heq; exact hinner)
        (fun _ _ heq => by cases heq) fun _ _ _ _ _ heq => by cases heq
  | object properties s =>
      have hobject := @matches_entries .arguments properties
      exact matches_argumentsSource_of h (fun _ _ _ _ heq => by cases heq)
        (fun _ _ heq => by cases heq; exact hobject) fun _ _ _ _ _ heq => by cases heq
  | call callee arguments types s =>
      cases arguments with
      | nil =>
          exact matches_argumentsSource_of h (fun _ _ _ _ heq => by cases heq)
            (fun _ _ heq => by cases heq) fun _ _ _ _ _ heq => by cases heq
      | cons first later =>
          have hfirst := @matches_argumentsSource first
          exact matches_argumentsSource_of h (fun _ _ _ _ heq => by cases heq)
            (fun _ _ heq => by cases heq) fun _ _ _ _ _ heq => by cases heq; exact hfirst
  | _ =>
      exact matches_argumentsSource_of h (fun _ _ _ _ heq => by cases heq)
        (fun _ _ heq => by cases heq) fun _ _ _ _ _ heq => by cases heq
termination_by structural n

end

end GraphMigrate.Locator
