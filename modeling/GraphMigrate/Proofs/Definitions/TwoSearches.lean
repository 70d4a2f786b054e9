/-
What two spellings of a script define.

Two scripts that differ in spelling are searched side by side, definition by
definition.  Their nodes are visited in the same order; what is added to a script
defines nothing.  So both searches fail alike, or they find the same definitions.

* `shortInSite`, `shortArguments`: how many configurations that are read have their
  arguments in short;
* `matches_fieldsSource`: what a property holds is read alike;
* `matches_visit`: a node is analysed alike;
* `visitsAlike_preorder`: so is everything below a node;
* `agree_locate`: **scripts in two spellings define the same**.
-/
import GraphMigrate.Proofs.Definitions.Mirrors
import GraphMigrate.Proofs.Definitions.TwoReadings

namespace GraphMigrate.Locator

open Script (Node Source)

/-! ### What is in short -/

/-- The properties of an object literal, and its place. -/
def literal? : Node → Option (List Node × Span)
  | .object properties t => some (properties, t)
  | _ => none

/-- The object literal that an expression is. -/
def objectIn? (n : Node) : Option (List Node × Span) := literal? n.unwrap

/-- The object literal that an arrow function returns. -/
def arrowObject? : Node → Option (List Node × Span)
  | .block statements s => returnedObject? (.block statements s)
  | e => objectIn? e

/-- The object literal that an expression is, or that it returns as a function. -/
def mapObject? (n : Node) : Option (List Node × Span) :=
  match n.unwrap with
  | .object properties t => some (properties, t)
  | .arrow _ body _ _ => arrowObject? body
  | .function _ body _ _ => body.bind returnedObject?
  | _ => none

/-- The object literal that a property holds as a map. -/
def heldObject? : PropertyValue → Option (List Node × Span)
  | .expression value => mapObject? value
  | .name _ _ => none
  | .method _ body _ => body.bind returnedObject?

/-- How many configurations have their arguments in short in a map that may be written out. -/
def shortInFound (setting : Setting) (found : Option (List Node × Span)) : ℕ :=
  (found.map fun object => shortInEntries setting object.1).getD 0

/-- How many in the map that is held by the property with a name. -/
def shortInNamed (setting : Setting) (name : String) (properties : List Node) : ℕ :=
  shortInFound setting
    ((findProperty? setting.source name properties).bind fun found => heldObject? found.2)

/-- How many in the maps of a mutation. -/
def shortInMutation (setting : Setting) (properties : List Node) : ℕ :=
  shortInNamed setting "inputFields" properties + shortInNamed setting "outputFields" properties

/-- The expression that is the first of some arguments. -/
def firstArgument? (arguments : List Node) : Option Node :=
  arguments.head?.map fun a => (argumentValue a).unwrap

/-- How many in what a node defines. -/
def shortInSite (setting : Setting) : Node → ℕ
  | .construct callee arguments _ _ =>
    match (expressionName? callee).bind (constructorKind? setting.vocabulary) with
    | none => 0
    | some (_, property) =>
      (((firstArgument? arguments).bind literal?).map fun object =>
        shortInNamed setting property object.1).getD 0
  | .call callee arguments _ _ =>
    if (expressionName? callee).any setting.vocabulary.mutationHelpers.contains then
      (((firstArgument? arguments).bind literal?).map fun object =>
        shortInMutation setting object.1).getD 0
    else 0
  | .declarator (.binding _ _ (some typing)) (some value) _ =>
    match annotatedKind? setting.vocabulary typing with
    | none => 0
    | some .outputFieldMap | some .inputFieldMap => shortInFound setting (mapObject? value)
    | some .argumentMap => shortInFound setting (objectIn? value)
    | some .fieldConfig =>
      ((objectIn? value).map fun object => shortInConfig setting object.1).getD 0
    | some .mutationConfig =>
      ((objectIn? value).map fun object => shortInMutation setting object.1).getD 0
  | _ => 0

/-- How many in what some nodes define. -/
def shortIn (setting : Setting) (ns : List Node) : ℕ := (ns.map (shortInSite setting)).sum

/-- How many configurations that are read in a script have their arguments in short. -/
def shortArguments (setting : Setting) : ℕ :=
  shortIn setting setting.source.script.preorder

variable {sp : Spelling} {n n' : Node} {ns ns' : List Node} {kind : MapKind}

/-! ### Maps -/

lemma matches_fieldMap (h : List.Forall₂ (Respelled sp) ns ns') (kind : MapKind) (s s' : Span) :
    Matches sp (FieldMap.Alike sp) (shortInEntries sp.first ns) (shortInEntries sp.second ns')
      (fieldMap kind ns s) (fieldMap kind ns' s') :=
  (matches_entries kind ns h).bind_pure fun _ _ => .mk kind s s'

/-- An object literal found in both spellings. -/
abbrev ObjectsAlike (sp : Spelling) :
    Option (List Node × Span) → Option (List Node × Span) → Prop :=
  Option.Rel fun found found' => List.Forall₂ (Respelled sp) found.1 found'.1

lemma rel_getLast? {α : Type} {R : α → α → Prop} {as bs : List α} (h : List.Forall₂ R as bs) :
    Option.Rel R as.getLast? bs.getLast? := by
  have hreverse := List.rel_reverse h
  rw [List.getLast?_eq_head?_reverse, List.getLast?_eq_head?_reverse]
  generalize as.reverse = as' at hreverse
  generalize bs.reverse = bs' at hreverse
  cases hreverse with
  | nil => exact .none
  | cons h _ => exact .some h

lemma returnedObject?_alike (h : Respelled sp n n') :
    ObjectsAlike sp (returnedObject? n) (returnedObject? n') := by
  cases h with
  | plain h =>
      cases h with
      | block _ _ hstatements =>
          have hlast := rel_getLast? hstatements
          unfold returnedObject?
          dsimp only
          generalize List.getLast? _ = last at hlast
          generalize List.getLast? _ = last' at hlast
          cases hlast with
          | none => exact .none
          | @some last last' hlast =>
              cases hlast with
              | plain hlast =>
                  cases hlast with
                  | ret _ _ hvalue =>
                      cases hvalue with
                      | none => exact .none
                      | @some value value' hvalue =>
                          have hunwrap := hvalue.unwrap
                          dsimp only
                          generalize value.unwrap = m at hunwrap
                          generalize value'.unwrap = m' at hunwrap
                          cases hunwrap with
                          | object _ _ hproperties => exact .some hproperties
                          | _ => exact .none
                  | _ => exact .none
              | wrapped _ hn =>
                  cases last with
                  | ret => cases hn
                  | _ => exact .none
      | _ => exact .none
  | wrapped _ hn =>
      cases n with
      | block => cases hn
      | _ => exact .none

lemma objectIn?_alike (h : Respelled sp n n') : ObjectsAlike sp (objectIn? n) (objectIn? n') := by
  unfold objectIn?
  have hunwrap := h.unwrap
  generalize n.unwrap = m at hunwrap
  generalize n'.unwrap = m' at hunwrap
  cases hunwrap with
  | object _ _ hproperties => exact .some hproperties
  | _ => exact .none

lemma arrowObject?_alike (h : Respelled sp n n') :
    ObjectsAlike sp (arrowObject? n) (arrowObject? n') := by
  have hreturned := returnedObject?_alike h
  have hobject := objectIn?_alike h
  cases h with
  | plain h =>
      cases h with
      | block => exact hreturned
      | _ => exact hobject
  | wrapped _ hn =>
      cases n with
      | block => cases hn
      | _ => exact hobject

/-- The map that a function returns. -/
def returnedSource (kind : MapKind) (found : Option (List Node × Span)) (s : Span) :
    Search FieldsSource :=
  match found with
  | some (properties, t) => do return .deferred (← fieldMap kind properties t)
  | none => return .unsupported s

lemma matches_returnedSource {found found' : Option (List Node × Span)}
    (h : ObjectsAlike sp found found') (kind : MapKind) (s s' : Span) :
    Matches sp (FieldsSource.Alike sp) (shortInFound sp.first found)
      (shortInFound sp.second found') (returnedSource kind found s)
      (returnedSource kind found' s') := by
  cases h with
  | none => exact .pure (.unsupported _ _)
  | some h => exact (matches_fieldMap h kind _ _).bind_pure fun _ _ => .deferred

lemma arrowSource_eq (kind : MapKind) (body : Node) (s : Span) :
    arrowSource kind body s = returnedSource kind (arrowObject? body) s := by
  unfold arrowSource
  cases body <;> rfl

lemma matches_functionSource {body body' : Option Node} (h : Option.Rel (Respelled sp) body body')
    (kind : MapKind) (s s' : Span) :
    Matches sp (FieldsSource.Alike sp) (shortInFound sp.first (body.bind returnedObject?))
      (shortInFound sp.second (body'.bind returnedObject?)) (functionSource kind body s)
      (functionSource kind body' s') := by
  cases h with
  | none => exact matches_returnedSource .none kind s s'
  | some h => exact matches_returnedSource (returnedObject?_alike h) kind s s'

/-- Expressions that may return a map are read alike. -/
lemma matches_thunkSource (h : Respelled sp n n') (kind : MapKind) :
    Matches sp (FieldsSource.Alike sp) (shortInFound sp.first (mapObject? n))
      (shortInFound sp.second (mapObject? n')) (thunkSource kind n) (thunkSource kind n') := by
  unfold thunkSource mapObject?
  have hunwrap := h.unwrap
  generalize n.unwrap = m at hunwrap
  generalize n'.unwrap = m' at hunwrap
  cases hunwrap with
  | object _ _ hproperties =>
      exact (matches_fieldMap hproperties kind _ _).bind_pure fun _ _ => .inline
  | arrow _ _ _ hbody =>
      simp only [arrowSource_eq]
      exact matches_returnedSource (arrowObject?_alike hbody) kind _ _
  | function _ _ _ hbody => exact matches_functionSource hbody kind _ _
  | name => exact .pure (.reference _ _ _)
  | call _ _ hcallee hquote =>
      exact .read (.pure (.call _ _ (labelsAlike_calleeLabel hcallee hquote)))
  | _ => exact .pure (.unsupported _ _)

/-! ### Properties -/

/-- What a property holds in both spellings. -/
inductive ValuesAlike (sp : Spelling) : PropertyValue → PropertyValue → Prop
  | expression {n n' : Node} (h : Respelled sp n n') :
      ValuesAlike sp (.expression n) (.expression n')
  | name (text : String) (s s' : Span) : ValuesAlike sp (.name text s) (.name text s')
  | longhand (text : String) (s s' : Span) :
      ValuesAlike sp (.name text s) (.expression (.name text s'))
  | method {parameters parameters' : List Node} {body body' : Option Node} (s s' : Span)
      (hparameters : List.Forall₂ (Respelled sp) parameters parameters')
      (hbody : Option.Rel (Respelled sp) body body') :
      ValuesAlike sp (.method parameters body s) (.method parameters' body' s')

lemma namedValue?_alike (h : Respelled sp n n') (name : String) :
    Option.Rel (ValuesAlike sp) (namedValue? sp.first.source name n)
      (namedValue? sp.second.source name n') := by
  cases h with
  | plain h =>
      cases h with
      | longhand _ text s ks vs =>
          have hkey : sp.second.source.keyName? ⟨.name text, ks⟩ = some text := rfl
          simp only [namedValue?, hkey, beq_iff_eq, Option.some.injEq]
          split_ifs
          · exact .some (.longhand _ _ _)
          · exact .none
      | @keyed key key' _ _ _ _ hkey _ hvalue =>
          have hkey' : sp.first.source.keyName? key = sp.second.source.keyName? key' := hkey
          simp only [namedValue?, hkey']
          split_ifs
          · exact .some (.expression hvalue)
          · exact .none
      | shorthand =>
          simp only [namedValue?]
          split_ifs
          · exact .some (.name _ _ _)
          · exact .none
      | @method key key' _ _ _ _ _ _ _ _ s s' hkey _ hparameters hbody =>
          have hkey' : sp.first.source.keyName? key = sp.second.source.keyName? key' := hkey
          simp only [namedValue?, hkey']
          split_ifs
          · exact .some (.method s s' hparameters hbody)
          · exact .none
      | _ => exact .none
  | wrapped _ hn =>
      cases n with
      | keyed | shorthand | method => cases hn
      | _ => exact .none

/-- A property that is looked up is found in both spellings. -/
lemma findProperty?_alike (h : List.Forall₂ (Respelled sp) ns ns') (name : String) :
    Option.Rel (fun found found' => ValuesAlike sp found.2 found'.2)
      (findProperty? sp.first.source name ns) (findProperty? sp.second.source name ns') := by
  induction h with
  | nil => exact .none
  | cons hn _ ih =>
      have hvalue := namedValue?_alike hn name
      rw [findProperty?_cons, findProperty?_cons]
      generalize namedValue? sp.first.source name _ = value at hvalue
      generalize namedValue? sp.second.source name _ = value' at hvalue
      cases hvalue with
      | none => exact ih
      | some hvalue => exact .some hvalue

/-- **What a property holds is read alike.** -/
lemma matches_fieldsSource {value value' : PropertyValue} (h : ValuesAlike sp value value')
    (kind : MapKind) :
    Matches sp (FieldsSource.Alike sp) (shortInFound sp.first (heldObject? value))
      (shortInFound sp.second (heldObject? value')) (fieldsSource kind value)
      (fieldsSource kind value') := by
  cases h with
  | expression h => exact matches_thunkSource h kind
  | name => exact .pure (.reference _ _ _)
  | longhand => exact .pure (.reference _ _ _)
  | method _ _ _ hbody => exact matches_functionSource hbody kind _ _

lemma propertyResolver?_anywhere {value value' : PropertyValue} (h : ValuesAlike sp value value') :
    (PropertyValue.resolver? sp.first.source value).map Resolver.anywhere =
      (PropertyValue.resolver? sp.second.source value').map Resolver.anywhere := by
  cases h with
  | expression h => exact resolver?_anywhere h
  | name => rfl
  | longhand => rfl
  | method s s' hparameters hbody => exact functionResolver?_anywhere hparameters hbody s s'

/-! ### Definitions -/

section Adding

variable {found found' : FieldsSource} (h : FieldsSource.Alike sp found found')

include h

/-- Output maps that agree get the same place. -/
lemma matches_addOutputMap : Matches sp Eq 0 0 (addOutputMap found) (addOutputMap found') := by
  cases h with
  | inline hmap | deferred hmap =>
      exact ⟨fun hd => .answer (congrArg some hd.outputMaps.length_eq) rfl
        { hd with outputMaps := List.rel_append hd.outputMaps (.cons hmap .nil) }⟩
  | reference | call | unsupported =>
      exact ⟨fun hd => .answer rfl rfl { hd with notes := hd.notes.concat (.same _ _ _ _) }⟩

/-- Input maps that agree get the same place. -/
lemma matches_addInputMap : Matches sp Eq 0 0 (addInputMap found) (addInputMap found') := by
  cases h with
  | inline hmap | deferred hmap =>
      exact ⟨fun hd => .answer (congrArg some hd.inputMaps.length_eq) rfl
        { hd with inputMaps := List.rel_append hd.inputMaps (.cons hmap .nil) }⟩
  | reference | call | unsupported =>
      exact ⟨fun hd => .answer rfl rfl { hd with notes := hd.notes.concat (.same _ _ _ _) }⟩

end Adding

lemma Matches.discard {α α' : Type} {A : α → α' → Prop} {m m' : ℕ} {p : Search α}
    {p' : Search α'} (h : Matches sp A m m' p p') :
    Matches sp (fun _ _ => True) m m' (discard p) (discard p') :=
  h.bind fun _ _ _ => .pure trivial

/-- What is done with what a constructor is given. -/
def addFound (kind : MapKind) (found : FieldsSource) : Search Unit :=
  match kind with
  | .enumValues => modify fun d => { d with enumValues := d.enumValues ++ [found] }
  | .input => discard (addInputMap found)
  | .output | .arguments => discard (addOutputMap found)

lemma matches_addFound {found found' : FieldsSource} (h : FieldsSource.Alike sp found found')
    (kind : MapKind) :
    Matches sp (fun _ _ => True) 0 0 (addFound kind found) (addFound kind found') := by
  cases kind with
  | enumValues =>
      exact .modify fun hd => { hd with enumValues := List.rel_append hd.enumValues (.cons h .nil) }
  | input => exact (matches_addInputMap h).discard
  | output | arguments => exact (matches_addOutputMap h).discard

lemma matches_addArgumentMap {map map' : FieldMap} (h : FieldMap.Alike sp map map') :
    Matches sp (fun _ _ => True) 0 0
      (modify fun d => { d with argumentMaps := d.argumentMaps ++ [map] } : Search Unit)
      (modify fun d => { d with argumentMaps := d.argumentMaps ++ [map'] }) :=
  .modify fun hd => { hd with argumentMaps := List.rel_append hd.argumentMaps (.cons h .nil) }

lemma matches_addFieldConfig (name : String) {config config' : FieldConfig}
    (h : FieldConfig.Alike sp config config') :
    Matches sp (fun _ _ => True) 0 0
      (modify fun d => { d with fieldConfigs := d.fieldConfigs ++ [⟨name, config⟩] } : Search Unit)
      (modify fun d => { d with fieldConfigs := d.fieldConfigs ++ [⟨name, config'⟩] }) :=
  .modify fun hd =>
    { hd with fieldConfigs := List.rel_append hd.fieldConfigs (.cons ⟨rfl, h⟩ .nil) }

protected lemma Matches.warn {message : String} {s s' : Span} :
    Matches sp (fun _ _ => True) 0 0 (warn message s) (warn message s') :=
  ⟨fun hd => .answer trivial rfl { hd with notes := hd.notes.concat (.same _ _ _ _) }⟩

lemma matches_linkMap {add : FieldsSource → Search (Option ℕ)}
    (hadd : ∀ {found found'}, FieldsSource.Alike sp found found' →
      Matches sp Eq 0 0 (add found) (add found'))
    (h : List.Forall₂ (Respelled sp) ns ns') (kind : MapKind) (name : String) :
    Matches sp Eq (shortInNamed sp.first name ns) (shortInNamed sp.second name ns')
      (linkMap add kind (findProperty? sp.first.source name ns))
      (linkMap add kind (findProperty? sp.second.source name ns')) := by
  have hfound := findProperty?_alike h name
  unfold shortInNamed
  generalize findProperty? sp.first.source name ns = found at hfound
  generalize findProperty? sp.second.source name ns' = found' at hfound
  cases hfound with
  | none => exact .pure rfl
  | some hvalue => exact (matches_fieldsSource hvalue kind).bind fun _ _ => hadd

/-- The payload of a mutation, as it is found. -/
def payload? (source : Source) (found : Option (Span × PropertyValue)) :
    Option ResolverProperty :=
  found.map fun (span, value) => ⟨span, PropertyValue.resolver? source value⟩

/-- The payload of a mutation is computed alike. -/
lemma payload?_anywhere {found found' : Option (Span × PropertyValue)}
    (h : Option.Rel (fun found found' => ValuesAlike sp found.2 found'.2) found found') :
    (payload? sp.first.source found).map ResolverProperty.anywhere =
      (payload? sp.second.source found').map ResolverProperty.anywhere := by
  cases h with
  | none => simp only [payload?, Option.map_none]
  | @some found found' hvalue =>
      obtain ⟨s, value⟩ := found
      obtain ⟨s', value'⟩ := found'
      have hresolver := propertyResolver?_anywhere hvalue
      simp only [payload?, Option.map_some, ResolverProperty.anywhere, hresolver]

/-- **Configurations of mutations are read alike.** -/
lemma matches_mutationConfig (h : List.Forall₂ (Respelled sp) ns ns') (s s' : Span) :
    Matches sp (fun _ _ => True) (shortInMutation sp.first ns) (shortInMutation sp.second ns')
      (mutationConfig ns s) (mutationConfig ns' s') := by
  refine ⟨fun hd => ?_⟩
  rw [mutationConfig_eq, mutationConfig_eq]
  have hpayload := payload?_anywhere (findProperty?_alike h "mutateAndGetPayload")
  unfold payload? at hpayload
  generalize Option.map _ (findProperty? sp.first.source "mutateAndGetPayload" ns) = payload
    at hpayload
  generalize Option.map _ (findProperty? sp.second.source "mutateAndGetPayload" ns') = payload'
    at hpayload
  refine ((matches_linkMap matches_addInputMap h .input "inputFields").bind fun input _ hinput =>
    (matches_linkMap matches_addOutputMap h .output "outputFields").bind fun output _ houtput =>
      .modify fun {k d d'} hd => ?_).agree hd
  subst hinput houtput
  have hmutation : Mutation.anywhere ⟨s, input, output, payload⟩ =
      Mutation.anywhere ⟨s', input, output, payload'⟩ :=
    congrArg (Mutation.mk default input output) hpayload
  refine { hd with mutations := ?_ }
  change (d.mutations ++ [_]).map Mutation.anywhere = (d'.mutations ++ [_]).map Mutation.anywhere
  rw [List.map_append, List.map_append, hd.mutations]
  exact congrArg (_ ++ [·]) hmutation

lemma firstArgument?_alike (h : List.Forall₂ (Respelled sp) ns ns') :
    Option.Rel (RespelledBelow sp) (firstArgument? ns) (firstArgument? ns') := by
  cases h with
  | nil => exact .none
  | @cons n n' _ _ hn _ =>
      have hargument : Respelled sp (argumentValue n) (argumentValue n') := by
        have hsame := hn
        cases hn with
        | plain hn =>
            cases hn with
            | spread _ _ hvalue => exact hvalue
            | _ => exact hsame
        | wrapped _ hn =>
            cases n with
            | spread => cases hn
            | _ => exact hsame
      exact .some hargument.unwrap

lemma annotatedKind?_eq (h : Respelled sp n n') (v : Vocabulary) :
    annotatedKind? v n = annotatedKind? v n' := by
  cases h with
  | plain h =>
      cases h with
      | type name => cases name <;> rfl
      | _ => rfl
  | wrapped _ hn =>
      cases n with
      | type => cases hn
      | _ => rfl

/-- **Constructor calls are analysed alike.** -/
lemma matches_constructorCall {callee callee' : Node} (hcallee : Respelled sp callee callee')
    (h : List.Forall₂ (Respelled sp) ns ns') (types types' : List Node) (s s' : Span) :
    Matches sp (fun _ _ => True) (shortInSite sp.first (.construct callee ns types s))
      (shortInSite sp.second (.construct callee' ns' types' s')) (constructorCall callee ns s)
      (constructorCall callee' ns' s') := by
  have hvocabulary : sp.first.vocabulary = sp.second.vocabulary := rfl
  unfold constructorCall
  simp only [shortInSite, expressionName?_eq hcallee, hvocabulary]
  refine .read ?_
  rw [hvocabulary]
  cases expressionName? callee' with
  | none => exact .pure trivial
  | some name =>
  dsimp only [Option.bind_some]
  cases constructorKind? sp.second.vocabulary name with
  | none => exact .pure trivial
  | some kind =>
  obtain ⟨kind, property⟩ := kind
  have hfirst := firstArgument?_alike h
  unfold firstArgument? at hfirst ⊢
  generalize ns.head?.map _ = first at hfirst
  generalize ns'.head?.map _ = first' at hfirst
  cases hfirst with
  | none => exact .stop rfl
  | some hbelow =>
  cases hbelow with
  | object t t' hproperties =>
      have hfound := findProperty?_alike hproperties property
      simp only [Option.bind_some, literal?, Option.map_some, Option.getD_some, shortInNamed]
      generalize findProperty? sp.first.source property _ = found at hfound
      generalize findProperty? sp.second.source property _ = found' at hfound
      cases hfound with
      | none => exact .stop rfl
      | some hvalue =>
          exact (matches_fieldsSource hvalue kind).bind fun _ _ hsource =>
            matches_addFound hsource kind
  | _ => exact .stop rfl

/-- **Calls of mutation helpers are analysed alike.** -/
lemma matches_mutationHelperCall {callee callee' : Node} (hcallee : Respelled sp callee callee')
    (h : List.Forall₂ (Respelled sp) ns ns') (types types' : List Node) (s s' : Span) :
    Matches sp (fun _ _ => True) (shortInSite sp.first (.call callee ns types s))
      (shortInSite sp.second (.call callee' ns' types' s')) (mutationHelperCall callee ns s)
      (mutationHelperCall callee' ns' s') := by
  have hvocabulary : sp.first.vocabulary = sp.second.vocabulary := rfl
  have hfirst := firstArgument?_alike h
  unfold mutationHelperCall
  simp only [shortInSite, expressionName?_eq hcallee, hvocabulary]
  refine .read ?_
  rw [hvocabulary]
  split_ifs
  · unfold firstArgument? at hfirst ⊢
    generalize ns.head?.map _ = first at hfirst
    generalize ns'.head?.map _ = first' at hfirst
    cases hfirst with
    | none => exact .warn
    | some hbelow =>
        cases hbelow with
        | object t t' hproperties => exact matches_mutationConfig hproperties t t'
        | _ => exact .warn
  · exact .pure trivial

/-- **Variables with a type are analysed alike.** -/
lemma matches_typedDeclaration {typing typing' value value' : Node}
    (htyping : Respelled sp typing typing') (hvalue : Respelled sp value value') (name : String)
    (t t' s s' : Span) :
    Matches sp (fun _ _ => True)
      (shortInSite sp.first (.declarator (.binding name t (some typing)) (some value) s))
      (shortInSite sp.second (.declarator (.binding name t' (some typing')) (some value') s'))
      (typedDeclaration name typing value) (typedDeclaration name typing' value') := by
  have hvocabulary : sp.first.vocabulary = sp.second.vocabulary := rfl
  unfold typedDeclaration
  simp only [shortInSite, annotatedKind?_eq htyping, hvocabulary]
  refine .read ?_
  rw [hvocabulary]
  have hunwrap := hvalue.unwrap
  cases annotatedKind? sp.second.vocabulary typing' with
  | none => exact .pure trivial
  | some kind =>
  cases kind with
  | outputFieldMap =>
      exact (matches_thunkSource hvalue .output).bind fun _ _ hsource =>
        (matches_addOutputMap hsource).discard
  | inputFieldMap =>
      exact (matches_thunkSource hvalue .input).bind fun _ _ hsource =>
        (matches_addInputMap hsource).discard
  | argumentMap =>
      unfold objectIn?
      generalize value.unwrap = m at hunwrap
      generalize value'.unwrap = m' at hunwrap
      cases hunwrap with
      | object _ _ hproperties =>
          exact (matches_fieldMap hproperties .arguments _ _).bind fun _ _ =>
            matches_addArgumentMap
      | _ => exact .warn
  | fieldConfig =>
      unfold objectIn?
      generalize value.unwrap = m at hunwrap
      generalize value'.unwrap = m' at hunwrap
      cases hunwrap with
      | object u u' hproperties =>
          exact (matches_fieldConfig (FieldConfig.alike_new sp u u') _ hproperties).bind
            fun _ _ => matches_addFieldConfig name
      | _ => exact .pure trivial
  | mutationConfig =>
      unfold objectIn?
      generalize value.unwrap = m at hunwrap
      generalize value'.unwrap = m' at hunwrap
      cases hunwrap with
      | object u u' hproperties => exact matches_mutationConfig hproperties u u'
      | _ => exact .warn

/-! ### Nodes -/

lemma shortInSite_of_not_isSite {setting : Setting} {n : Node}
    (h : isSite setting.vocabulary n = false) : shortInSite setting n = 0 := by
  unfold isSite at h
  split at h
  next callee arguments types s =>
    rw [Option.isSome_eq_false_iff, Option.isNone_iff_eq_none] at h
    rw [shortInSite, h]
  next callee arguments types s => rw [shortInSite, if_neg (Bool.eq_false_iff.mp h)]
  next name s typing value t =>
    rw [Option.isSome_eq_false_iff, Option.isNone_iff_eq_none] at h
    rw [shortInSite, h]
  next hconstruct hcall hdeclarator => rw [shortInSite] <;> assumption

lemma isSite_of_no_value (v : Vocabulary) (target : Node) (s : Span) :
    isSite v (.declarator target none s) = false := by
  unfold isSite
  split
  next h => cases h
  next h => cases h
  next h => cases h
  next => rfl

/-- Nodes that are no sites are visited alike. -/
lemma matches_visit_of_not_isSite (h : isSite sp.vocabulary n = false)
    (h' : isSite sp.vocabulary n' = false) :
    Matches sp (fun _ _ => True) (shortInSite sp.first n) (shortInSite sp.second n') (visit n)
      (visit n') := by
  have hfirst : isSite sp.first.vocabulary n = false := h
  have hsecond : isSite sp.second.vocabulary n' = false := h'
  rw [shortInSite_of_not_isSite hfirst, shortInSite_of_not_isSite hsecond]
  refine ⟨fun {k d d'} hd => ?_⟩
  rw [visit_of_not_isSite hfirst, visit_of_not_isSite hsecond]
  exact .answer trivial rfl hd

/-- **A node is analysed alike in both spellings.** -/
lemma matches_visit (h : RespelledBelow sp n n') :
    Matches sp (fun _ _ => True) (shortInSite sp.first n) (shortInSite sp.second n') (visit n)
      (visit n') := by
  cases h with
  | construct s s' hcallee harguments => exact matches_constructorCall hcallee harguments _ _ s s'
  | call s s' hcallee _ harguments => exact matches_mutationHelperCall hcallee harguments _ _ s s'
  | @declarator target target' value value' s s' htarget hvalue =>
      cases hvalue with
      | none =>
          exact matches_visit_of_not_isSite (isSite_of_no_value _ _ _) (isSite_of_no_value _ _ _)
      | some hvalue =>
          cases htarget with
          | plain htarget =>
              cases htarget with
              | binding name t t' htyping =>
                  cases htyping with
                  | none => exact matches_visit_of_not_isSite rfl rfl
                  | some htyping => exact matches_typedDeclaration htyping hvalue name t t' s s'
              | _ => exact matches_visit_of_not_isSite rfl rfl
          | wrapped _ hn =>
              cases target with
              | binding => cases hn
              | _ => exact matches_visit_of_not_isSite rfl rfl
  | _ => exact matches_visit_of_not_isSite rfl rfl

/-! ### Rows of nodes -/

/-- Rows of nodes are visited alike. -/
def VisitsAlike (sp : Spelling) (ns ns' : List Node) : Prop :=
  Matches sp (fun _ _ => True) (shortIn sp.first ns) (shortIn sp.second ns') (ns.forM visit)
    (ns'.forM visit)

lemma shortIn_append (setting : Setting) (ns ms : List Node) :
    shortIn setting (ns ++ ms) = shortIn setting ns + shortIn setting ms := by
  rw [shortIn, List.map_append, List.sum_append]
  rfl

/-- Only sites count. -/
lemma shortIn_filter (setting : Setting) (ns : List Node) :
    shortIn setting (ns.filter (isSite setting.vocabulary)) = shortIn setting ns := by
  induction ns with
  | nil => rfl
  | cons n ns ih =>
      cases hn : isSite setting.vocabulary n with
      | false =>
          rw [List.filter_cons_of_neg (by simp [hn]), ih, shortIn, shortIn, List.map_cons,
            List.sum_cons, shortInSite_of_not_isSite hn, Nat.zero_add]
      | true =>
          rw [List.filter_cons_of_pos hn, shortIn, List.map_cons, List.sum_cons, ← shortIn, ih]
          rfl

namespace VisitsAlike

variable {ms ms' : List Node}

protected lemma nil : VisitsAlike sp [] [] := Matches.pure trivial

protected lemma append (h : VisitsAlike sp ns ns') (h' : VisitsAlike sp ms ms') :
    VisitsAlike sp (ns ++ ms) (ns' ++ ms') := by
  unfold VisitsAlike
  simp only [shortIn_append, List.forM_eq_forM, List.forM_append]
  exact h.bind fun _ _ _ => h'

/-- Only sites are visited. -/
lemma congr (h : VisitsAlike sp ns ns')
    (hns : ms.filter (isSite sp.vocabulary) = ns.filter (isSite sp.vocabulary))
    (hns' : ms'.filter (isSite sp.vocabulary) = ns'.filter (isSite sp.vocabulary)) :
    VisitsAlike sp ms ms' := by
  have hfirst : ms.filter (isSite sp.first.vocabulary) = ns.filter (isSite sp.first.vocabulary) :=
    hns
  have hsecond : ms'.filter (isSite sp.second.vocabulary) =
    ns'.filter (isSite sp.second.vocabulary) := hns'
  unfold VisitsAlike
  rw [← shortIn_filter, ← shortIn_filter sp.second, hfirst, hsecond, shortIn_filter,
    shortIn_filter]
  refine ⟨fun {k d d'} hd => ?_⟩
  rw [visitAll_eq, visitAll_eq, hfirst, hsecond, ← visitAll_eq, ← visitAll_eq]
  exact h.agree hd

lemma flatMap (h : List.Forall₂ (Respelled sp) ns ns')
    (hns : ∀ n ∈ ns, ∀ {n'}, Respelled sp n n' → VisitsAlike sp n.preorder n'.preorder) :
    VisitsAlike sp (ns.flatMap Node.preorder) (ns'.flatMap Node.preorder) := by
  induction h with
  | nil => exact .nil
  | cons hn _ ih =>
      rw [List.forall_mem_cons] at hns
      rw [List.flatMap_cons, List.flatMap_cons]
      exact (hns.1 hn).append (ih hns.2)

end VisitsAlike

lemma visitsAlike_below (h : RespelledBelow sp n n')
    (ih : ∀ c ∈ n.children, ∀ {c'}, Respelled sp c c' → VisitsAlike sp c.preorder c'.preorder) :
    VisitsAlike sp n.preorder n'.preorder := by
  obtain hchildren | ⟨_, text, s, ks, vs, rfl, rfl⟩ := h.children
  · rw [Node.preorder_eq n, Node.preorder_eq n']
    have hone : VisitsAlike sp [n] [n'] := (matches_visit h).bind fun _ _ _ => .pure trivial
    exact hone.append (.flatMap hchildren ih)
  · exact VisitsAlike.nil.congr rfl rfl

/-- **What is below a node is visited alike in both spellings.** -/
theorem visitsAlike_preorder (h : Respelled sp n n') :
    VisitsAlike sp n.preorder n'.preorder := by
  induction n using Node.induction_children generalizing n' with
  | h n ih =>
      -- the wrappers around the node, then the node itself
      fun_induction Node.unwrap n' with
      | case1 wrapper inner types s ihInner =>
          cases h with
          | plain h => exact visitsAlike_below h ih
          | wrapped _ _ htypes _ _ h =>
              refine (ihInner h).congr rfl ?_
              have hnone : (types.flatMap Node.preorder).filter (isSite sp.vocabulary) = [] :=
                List.filter_eq_nil_iff.mpr fun m hm => Bool.eq_false_iff.mp (htypes m hm)
              rw [Node.preorder_eq, Node.children, List.flatMap_cons,
                List.filter_cons_of_neg (by simp [isSite]), List.filter_append, hnone,
                List.append_nil]
      | case2 n' hplain =>
          cases h with
          | plain h => exact visitsAlike_below h ih
          | wrapped => exact absurd rfl (hplain _ _ _ _)

/-! ### The whole search -/

/-- **Scripts in two spellings define the same.**  Both searches fail alike, or they find
definitions that agree; each configuration whose arguments were in short and are written
out leaves a warning that comes in between. -/
theorem agree_locate
    (h : List.Forall₂ (Respelled sp) sp.before.script.items sp.after.script.items) :
    (∃ e e', locate sp.vocabulary sp.before = .error e ∧
      locate sp.vocabulary sp.after = .error e' ∧ e.anywhere = e'.anywhere) ∨
    ∃ d d' k, locate sp.vocabulary sp.before = .ok d ∧ locate sp.vocabulary sp.after = .ok d' ∧
      d.Alike sp k d' ∧ k + shortArguments sp.second = shortArguments sp.first := by
  have hvisits : VisitsAlike sp sp.before.script.preorder sp.after.script.preorder := by
    rw [Script.Module.preorder, Script.Module.preorder, Node.preorderAll_eq_flatMap,
      Node.preorderAll_eq_flatMap]
    exact .flatMap h fun _ _ _ => visitsAlike_preorder
  have hends := hvisits.agree (Definitions.alike_empty sp)
  change (∃ e e', (sp.before.script.preorder.forM visit sp.first {}).map Prod.snd = .error e ∧
      (sp.after.script.preorder.forM visit sp.second {}).map Prod.snd = .error e' ∧ _) ∨
    ∃ d d' k, (sp.before.script.preorder.forM visit sp.first {}).map Prod.snd = .ok d ∧
      (sp.after.script.preorder.forM visit sp.second {}).map Prod.snd = .ok d' ∧ _
  generalize sp.before.script.preorder.forM visit sp.first {} = r at hends
  generalize sp.after.script.preorder.forM visit sp.second {} = r' at hends
  cases hends with
  | stop he => exact .inl ⟨_, _, rfl, rfl, he⟩
  | answer _ hk hd => exact .inr ⟨_, _, _, rfl, rfl, hd, hk.trans (Nat.zero_add _)⟩

end GraphMigrate.Locator
