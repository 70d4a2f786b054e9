/-
Resolvers that read the old name.

A renamed output field without a resolver gets one, behind all properties of
its configuration.  A property that stands last wins, so nothing may be
appended where the configuration can have a resolver already.  Whether it has
one is read off its summary, in which accessors, spreads and computed keys do
not count.

* `maySupply`: the properties that may come to be called something when the
  literal is evaluated;
* `infix_edits_fieldDraft`: the edits of a renamed field stand side by side in
  the draft;
* `resolver_is_appended_iff`: a resolver is appended unless a property with a
  value is called `resolve`;
* `no_resolver_is_overridden_iff`: **appending leaves the resolver of a
  configuration alone exactly if a property with a value is called `resolve`, or
  no property may supply one**;
* `getter_is_overridden`: a getter does not count.
-/
import GraphMigrate.Proofs.Arguments.RenamePlan
import GraphMigrate.Proofs.Definitions.OutputConfigs
import GraphMigrate.Proofs.Migration.ResolverRewriting

namespace GraphMigrate

open Script (Node Source)

/-! ### Suppliers -/

/-- Whether a property may come to be called something when its literal is
evaluated: it is called so in any form, its key is written with an escape, its
key is computed, or other objects are spread in its place. -/
def maySupply (source : Source) (name : String) (p : Node) : Bool :=
  match propertyName? source p with
  | some written => written == name || written.toList.contains '\\'
  | none => true

/-! ### What is appended -/

section Drafts

variable {text : List Char} {source : Source} {d : Definitions} {draft : Draft} {map : FieldMap}
  {rename : Rename} {config : FieldConfig} {properties : List Node}

/-- The edit that appends a resolver to the configuration of a renamed field. -/
def Rename.resolverEdit (text : List Char) (rename : Rename) (config : FieldConfig) : Edit :=
  appendProperty text config.span config.properties (sourceResolver rename.field.key)

/-- The key of a renamed output field and the resolver that it gets are recorded
one after the other. -/
lemma infix_edits_fieldDraft {language : Language}
    (hdraft : renameDraft text language d = .ok draft) (hmap : map ∈ d.outputMaps)
    (hrename : rename ∈ (plan map).renames) :
    rename.edit :: (resolverDraft text rename).edits <:+: draft.edits := by
  have hfield : (fieldDraft text rename).edits <:+: (outputDraft text map).edits := by
    rw [outputDraft, Draft.edits_append]
    exact (Draft.edits_infix_concat (List.mem_map_of_mem hrename)).trans
      (List.suffix_append _ _).isInfix
  refine List.IsInfix.trans hfield ?_
  rw [renameDraft] at hdraft
  obtain ⟨arguments, -, hdraft⟩ := exists_ok_of_bind hdraft
  obtain ⟨mutations, -, hdraft⟩ := exists_ok_of_bind hdraft
  cases hdraft
  refine Draft.edits_infix_concat ?_
  simp only [List.mem_append, List.mem_map]
  exact .inl (.inl (.inl (.inl (.inl (.inr ⟨map, hmap, rfl⟩)))))

/-- A resolver is appended unless a property with a value is called `resolve`. -/
lemma resolver_is_appended_iff (text : List Char) (hconfig : rename.field.value = .config config)
    (hread : config.IsReadFrom source properties) :
    (resolverDraft text rename).edits =
      if properties.any (isResolverProperty source) then []
      else [rename.resolverEdit text config] := by
  rw [resolverDraft, hconfig]
  dsimp only
  rw [← hread.resolve_isSome]
  cases config.resolve with
  | none => rfl
  | some _ => rfl

lemma eq_config_of_config? {value : FieldValue} (h : value.config? = some config) :
    value = .config config := by
  cases value with
  | config c => exact congrArg FieldValue.config (Option.some.inj h)
  | _ => cases h

end Drafts

/-- **When appending overrides no resolver.**  The configuration of a renamed
output field, if it is written inline, is the summary of an object literal of
the script.  Its key is renamed, and right behind that a resolver is appended
unless a property of the literal with a value is called `resolve`: a key with a
value, a shorthand or a method.

So nothing that may supply a resolver is overridden exactly if there is such a
property, or no property may supply one at all: none is an accessor of that
name, a spread, or written with a computed or escaped key. -/
theorem no_resolver_is_overridden_iff {context : Context} {file : SourceFile} {d : Definitions}
    {draft : Draft} (hlocated : file.definitions context.vocabulary = .ok d)
    (hdraft : renameDraft file.chars file.language d = .ok draft) {map : FieldMap}
    (hmap : map ∈ d.outputMaps) {rename : Rename} (hrename : rename ∈ (plan map).renames)
    {config : FieldConfig} (hconfig : rename.field.value = .config config) :
    renameDefinitions context file = .ok (draft.finish file.text) ∧
    ∃ source properties, file.parse = .ok source ∧
      Node.object properties config.span ∈ source.script.preorder ∧
      config.IsReadFrom source properties ∧
      (resolverDraft file.chars rename).edits =
        (if properties.any (isResolverProperty source) then []
          else [rename.resolverEdit file.chars config]) ∧
      rename.edit :: (resolverDraft file.chars rename).edits <:+: draft.edits ∧
      ((rename.resolverEdit file.chars config ∈ (resolverDraft file.chars rename).edits →
          ∀ p ∈ properties, maySupply source "resolve" p = false) ↔
        (∃ p ∈ properties, isResolverProperty source p = true) ∨
          ∀ p ∈ properties, maySupply source "resolve" p = false) := by
  obtain ⟨source, hparse, hlocate⟩ := exists_parse_of_definitions hlocated
  have hfield : rename.field ∈ map.fields :=
    (sublist_planFrom _ _ _).subset (List.mem_map_of_mem hrename)
  obtain ⟨properties, hobject, hread⟩ := configs_isReadFrom_of_locate hlocate map hmap
    rename.field hfield config (by rw [hconfig]; rfl)
  have hedits := resolver_is_appended_iff file.chars hconfig hread
  refine ⟨?_, source, properties, hparse, hobject, hread, hedits,
    infix_edits_fieldDraft hdraft hmap hrename, ?_⟩
  · exact renameDefinitions_eq_ok hlocated hdraft
  rw [hedits]
  cases hany : properties.any (isResolverProperty source) with
  | true => exact iff_of_true (fun h => by cases h) (.inl (List.any_eq_true.mp hany))
  | false =>
      have hnone : ¬ ∃ p ∈ properties, isResolverProperty source p = true := by
        rw [← List.any_eq_true, hany]
        exact Bool.false_ne_true
      rw [or_iff_right hnone]
      exact ⟨fun h => h (List.mem_singleton_self _), fun h _ => h⟩

/-- A field that is resolved by a method, behind a getter and a spread. -/
def methodField : SourceFile where
  text := "new GraphQLObjectType(\x7b fields: \x7b birth_year: \x7b get type() \x7b return Int \x7d,\n" ++
    " ...shared, resolve() \x7b return loadYear() \x7d \x7d \x7d \x7d)"
  language := .typeScript

theorem no_resolver_is_overridden_in_methodField :
    ∃ d draft, methodField.definitions {} = .ok d ∧
      renameDraft methodField.chars methodField.language d = .ok draft ∧
      ∃ map ∈ d.outputMaps, ∃ rename ∈ (plan map).renames, ∃ config,
        rename.field.value = .config config ∧ config.resolve.isSome = true ∧
        ∃ source properties, methodField.parse = .ok source ∧
          Node.object properties config.span ∈ source.script.preorder ∧
          config.IsReadFrom source properties ∧
          (resolverDraft methodField.chars rename).edits = [] := by
  have hcheck : (renameParts? methodField).any (fun p =>
      decide (∃ map ∈ p.1.outputMaps, ∃ rename ∈ (plan map).renames,
        rename.field.value.config?.any (·.resolve.isSome) = true)) = true := by
    decide +kernel
  obtain ⟨⟨d, draft⟩, hparts, hholds⟩ := Option.any_eq_true _ _ |>.mp hcheck
  obtain ⟨map, hmap, rename, hrename, hholds⟩ := of_decide_eq_true hholds
  obtain ⟨hlocated, hdraft⟩ := renameParts?_eq_some hparts
  have hvocabulary : methodField.definitions ({} : Context).vocabulary = .ok d := hlocated
  obtain ⟨config, hconfig, hsome⟩ := Option.any_eq_true _ _ |>.mp hholds
  have hvalue := eq_config_of_config? hconfig
  obtain ⟨-, source, properties, hparse, hobject, hread, hedits, -⟩ :=
    no_resolver_is_overridden_iff hvocabulary hdraft hmap hrename hvalue
  rw [← hread.resolve_isSome, hsome] at hedits
  exact ⟨d, draft, hlocated, hdraft, map, hmap, rename, hrename, config, hvalue, hsome, source,
    properties, hparse, hobject, hread, hedits⟩

/-- A field that is resolved by what a getter returns. -/
def getterField : SourceFile where
  text := "new GraphQLObjectType(\x7b fields: \x7b birth_year: \x7b type: Int,\n" ++
    " get resolve() \x7b return loadYear \x7d \x7d \x7d \x7d)"
  language := .typeScript

/-- The script with the field renamed. -/
def renamedGetterField : String :=
  "new GraphQLObjectType(\x7b fields: \x7b birthYear: \x7b type: Int,\n" ++
    " get resolve() \x7b return loadYear \x7d,\n" ++
    " resolve: (\x7b birth_year \x7d) => birth_year \x7d \x7d \x7d)"

/-- A getter does not count: the field reads the old name instead of calling
what the getter returns. -/
theorem getter_is_overridden :
    ∃ source d, getterField.parse = .ok source ∧ getterField.definitions {} = .ok d ∧
      (∃ map ∈ d.outputMaps, ∃ rename ∈ (plan map).renames, ∃ config,
        rename.field.value = .config config ∧
        rename.resolverEdit getterField.chars config ∈
          (resolverDraft getterField.chars rename).edits ∧
        ∃ properties, Node.object properties config.span ∈ source.script.preorder ∧
          ∃ p ∈ properties, propertyName? source p = some "resolve") ∧
      ∃ outcome, renameDefinitions {} getterField = .ok outcome ∧
        outcome.text = renamedGetterField := by
  have hcheck : (renameParts? getterField).any (fun p =>
      let accepted := acceptedEdits getterField.chars p.2.edits
      decide (∃ map ∈ p.1.outputMaps, ∃ rename ∈ (plan map).renames,
          rename.field.value.config?.any (fun config => config.resolve.isNone &&
            config.properties.any (·.name == some "resolve")) = true) &&
        decide (accepted.Pairwise fun a b => a.precedes b = true) &&
        decide (splice 0 getterField.chars accepted = renamedGetterField.toList)) = true := by
    decide +kernel
  obtain ⟨⟨d, draft⟩, hparts, hholds⟩ := Option.any_eq_true _ _ |>.mp hcheck
  rw [Bool.and_eq_true, Bool.and_eq_true, decide_eq_true_eq, decide_eq_true_eq,
    decide_eq_true_eq] at hholds
  obtain ⟨⟨⟨map, hmap, rename, hrename, hvalue⟩, hpairwise⟩, hsplice⟩ := hholds
  obtain ⟨config, hconfig, hchecked⟩ := Option.any_eq_true _ _ |>.mp hvalue
  rw [Bool.and_eq_true, Option.isNone_iff_eq_none] at hchecked
  obtain ⟨hlocated, hdraft⟩ := renameParts?_eq_some hparts
  obtain ⟨source, hparse, hlocate⟩ := exists_parse_of_definitions hlocated
  have hfield : rename.field ∈ map.fields :=
    (sublist_planFrom _ _ _).subset (List.mem_map_of_mem hrename)
  obtain ⟨properties, hobject, hread⟩ :=
    configs_isReadFrom_of_locate hlocate map hmap rename.field hfield config hconfig
  obtain ⟨q, hq, hname⟩ := List.any_eq_true.mp hchecked.2
  rw [hread.properties_eq] at hq
  obtain ⟨p, hp, rfl⟩ := List.mem_map.mp hq
  refine ⟨source, d, hparse, hlocated, ⟨map, hmap, rename, hrename, config,
    eq_config_of_config? hconfig, ?_, properties, hobject, p, hp, eq_of_beq hname⟩,
    draft.finish getterField.text, ?_, ?_⟩
  · rw [resolverDraft, eq_config_of_config? hconfig]
    simp only [hchecked.1, Option.isNone_none, if_true]
    exact List.mem_singleton_self _
  · exact renameDefinitions_eq_ok hlocated hdraft
  · have htext : (draft.finish getterField.text).text = _ := applyEdits_text_of_pairwise hpairwise
    rw [htext]
    exact (congrArg String.ofList hsplice).trans String.ofList_toList

end GraphMigrate
