/-
Keys that a resolver takes from a spread.

A resolver that takes arguments or inputs apart may name keys that are not in
its map, as they come in through a spread, and are renamed where they are
defined.  Its pattern is only looked at when something of the map itself is
renamed, so it depends on the other keys whether these follow.

* `Consumer`, `Unpacking`: what consumes a map, and a resolver that takes it
  apart;
* `exists_draft_of_unpacking`: what is drafted for such a resolver;
* `infix_edits_of_consumer`: what is drafted for a consumer is recorded in one
  piece;
* `spread_key_is_renamed_iff`: **a key from a spread is renamed exactly if the
  map has a key of its own to rename**, and no edit recorded before stands in
  the way;
* `spread_key_keeps_snake_case`: a pattern that does not follow.
-/
import GraphMigrate.Proofs.Arguments.RenamePlan
import GraphMigrate.Proofs.Migration.ResolverRewriting

namespace GraphMigrate

open Naming (camelize needsCamelize)

/-! ### Consumers -/

/-- What consumes a map: a field its arguments, or a mutation its inputs. -/
inductive Consumer where
  | field (config : FieldConfig)
  | mutation (mutation : Mutation)

/-- A map, and the object pattern by which a resolver takes it apart. -/
structure Unpacking where
  map : FieldMap
  pattern : ObjectParameter

/-- The pattern of a resolver that consumes a map, if it is written inline. -/
def Unpacking.ofResolver? (map : FieldMap) (consumer : Option ResolverProperty) (position : ℕ) :
    Option Unpacking := do
  let resolver ← (← consumer).function
  match resolver.parameters[position]? with
  | some (.object pattern) => some ⟨map, pattern⟩
  | _ => none

namespace Consumer

variable (d : Definitions)

/-- The map that is taken apart, if it is known. -/
def unpacking? : Consumer → Option Unpacking
  | field config => do
    Unpacking.ofResolver? (← config.arguments.bind (·.map?)) config.resolve 1
  | mutation m => do
    Unpacking.ofResolver? (← m.inputMap.bind (d.inputMaps[·]?)) m.payload 0

/-- The edits and notes for a consumer. -/
def draft (text : List Char) (language : Language) : Consumer → Except MigrationError Draft
  | field config => argumentsDraft text language config
  | mutation m => mutationDraft text language d.inputMaps m

end Consumer

/-- What consumes the maps of a script. -/
def Definitions.consumers (d : Definitions) : List Consumer :=
  d.outputFieldConfigs.map .field ++ d.mutations.map .mutation

/-- The edit that gives a property of a pattern the camel case form of its
key. -/
def camelCaseEdit (property : PatternProperty) : Edit :=
  patternEdit property (camelize property.key)

/-! ### What is drafted -/

section Drafts

variable {map : FieldMap} {u : Unpacking}

/-- A key that is not in the map is put into camel case. -/
lemma patternName?_of_notMem_keys {renames : List Rename} {key : String}
    (hrenames : ∀ r ∈ renames, r.field ∈ map.fields) (hneeds : needsCamelize key = true)
    (houtside : key ∉ map.keys) : patternName? map renames key = some (camelize key) := by
  have hmem {field : NamedEntry} (hfield : field ∈ map.fields) : ¬ (field.key == key) = true :=
    fun heq => houtside (List.mem_map.mpr ⟨field, hfield, beq_iff_eq.mp heq⟩)
  have hnone : renames.find? (·.field.key == key) = none :=
    List.find?_eq_none.mpr fun r hr => hmem (hrenames r hr)
  have hcontains : map.contains key = false := by
    rw [FieldMap.contains, FieldMap.get?, List.find?_eq_none.mpr fun field hfield => hmem hfield]
    rfl
  simp only [patternName?, hneeds, hnone, hcontains, if_true, Bool.false_eq_true, if_false]

/-- Among the edits of a pattern are those of its keys from outside. -/
lemma camelCaseEdit_mem_patternEdits {property : PatternProperty}
    (hproperty : property ∈ u.pattern.properties) (hneeds : needsCamelize property.key = true)
    (houtside : property.key ∉ u.map.keys) :
    camelCaseEdit property ∈ patternEdits u.map (plan u.map).renames u.pattern := by
  have hrenames : ∀ r ∈ (plan u.map).renames, r.field ∈ u.map.fields := fun r hr =>
    (sublist_planFrom _ _ _).subset (List.mem_map.mpr ⟨r, hr, rfl⟩)
  refine List.mem_filterMap.mpr ⟨property, hproperty, ?_⟩
  rw [patternName?_of_notMem_keys hrenames hneeds houtside]
  rfl

lemma consumerDraft_of_unpacking (text : List Char) (language : Language)
    {consumer : Option ResolverProperty} {position : ℕ}
    (h : Unpacking.ofResolver? map consumer position = some u) (renames : List Rename)
    (opaqueNote : String) :
    u.map = map ∧ consumerDraft text language map renames consumer position opaqueNote =
      .ok (.ofEdits (patternEdits map renames u.pattern)) := by
  simp only [Unpacking.ofResolver?, Option.bind_eq_bind, Option.bind_eq_some_iff] at h
  obtain ⟨⟨property, _⟩, rfl, resolver, rfl, h⟩ := h
  split at h
  · rename_i pattern hparameter
    cases h
    exact ⟨rfl, by rw [consumerDraft, resolverParameterDraft, hparameter]⟩
  · cases h

/-- The draft for a consumer whose map is taken apart holds the edits of the
pattern, unless nothing of the map is renamed, and then no edits at all. -/
lemma exists_draft_of_unpacking (text : List Char) (language : Language) {d : Definitions}
    {c : Consumer} (hu : c.unpacking? d = some u) :
    ∃ part, c.draft d text language = .ok part ∧
      ((plan u.map).renames = [] → part.edits = []) ∧
      ((plan u.map).renames ≠ [] →
        patternEdits u.map (plan u.map).renames u.pattern ⊆ part.edits) := by
  cases c with
  | field config =>
      simp only [Consumer.unpacking?, Option.bind_eq_bind, Option.bind_eq_some_iff] at hu
      obtain ⟨map, hmap, hu⟩ := hu
      rw [← Option.bind_eq_some_iff] at hmap
      obtain ⟨rfl, hconsumer⟩ := consumerDraft_of_unpacking text language hu
        (plan map).renames "Skipping renaming of args in resolver that is not defined inline"
      simp only [Consumer.draft, argumentsDraft, hmap, hconsumer, List.isEmpty_iff]
      split
      · rename_i hnone
        exact ⟨_, rfl, fun _ => rfl, fun hsome => absurd hnone hsome⟩
      · rename_i hsome
        exact ⟨_, rfl, fun hnone => absurd hnone hsome, fun _ => List.subset_append_right _ _⟩
  | mutation m =>
      simp only [Consumer.unpacking?, Option.bind_eq_bind, Option.bind_eq_some_iff] at hu
      obtain ⟨map, hmap, hu⟩ := hu
      rw [← Option.bind_eq_some_iff] at hmap
      obtain ⟨rfl, hconsumer⟩ := consumerDraft_of_unpacking text language hu
        (plan map).renames
        "Skipping renaming of inputs in mutate function that is not defined inline"
      simp only [Consumer.draft, mutationDraft, hmap, hconsumer, List.isEmpty_iff]
      split
      · rename_i hnone
        exact ⟨_, rfl, fun _ => rfl, fun hsome => absurd hnone hsome⟩
      · rename_i hsome
        exact ⟨_, rfl, fun hnone => absurd hnone hsome, fun _ => List.Subset.refl _⟩

end Drafts

/-! ### Where it is recorded -/

/-- What is drafted for a consumer is recorded in one piece. -/
lemma infix_edits_of_consumer {text : List Char} {language : Language} {d : Definitions}
    {draft part : Draft} (hdraft : renameDraft text language d = .ok draft) {c : Consumer}
    (hc : c ∈ d.consumers) (hpart : c.draft d text language = .ok part) :
    part.edits <:+: draft.edits := by
  obtain ⟨arguments, mutations, harguments, hmutations, hrecorded⟩ :=
    exists_parts_of_renameDraft hdraft
  rcases List.mem_append.mp hc with hc | hc
  · obtain ⟨config, hconfig, rfl⟩ := List.mem_map.mp hc
    obtain ⟨part', hmem, hok⟩ := exists_mem_of_mapM harguments hconfig
    cases hok.symm.trans hpart
    exact hrecorded part (List.mem_append_left _ hmem)
  · obtain ⟨m, hm, rfl⟩ := List.mem_map.mp hc
    obtain ⟨part', hmem, hok⟩ := exists_mem_of_mapM hmutations hm
    cases hok.symm.trans hpart
    exact hrecorded part (List.mem_append_right _ hmem)

/-! ### Keys from a spread -/

/-- **When a key from a spread follows its definition.**  Let a resolver take
the arguments of a field or the inputs of a mutation apart, and let a key of its
pattern that needs camel case be none of the map's.  Among the edits for this
field or mutation is the one of the key exactly if some field of the map itself
needs camel case and its new name is free.  It takes effect, from where it is
recorded, exactly if it fits and leaves alone all edits that were accepted
before, up to itself. -/
theorem spread_key_is_renamed_iff (context : Context) {file : SourceFile} {d : Definitions}
    {draft : Draft} (hlocated : file.definitions context.vocabulary = .ok d)
    (hdraft : renameDraft file.chars file.language d = .ok draft) {c : Consumer}
    (hc : c ∈ d.consumers) {u : Unpacking} (hu : c.unpacking? d = some u)
    {property : PatternProperty} (hproperty : property ∈ u.pattern.properties)
    (hneeds : needsCamelize property.key = true) (houtside : property.key ∉ u.map.keys) :
    renameDefinitions context file = .ok (draft.finish file.text) ∧
    ∃ part, c.draft d file.chars file.language = .ok part ∧ part.edits <:+: draft.edits ∧
      (camelCaseEdit property ∈ part.edits ↔
        ∃ f ∈ u.map.fields, needsCamelize f.key = true ∧ camelize f.key ∉ u.map.keys) ∧
      ∀ earlier later, draft.edits = earlier ++ camelCaseEdit property :: later →
        ((camelCaseEdit property).TakesEffect file.chars draft.edits
            (draft.finish file.text).text.toList ↔
          (camelCaseEdit property).InBounds file.chars ∧
            ∀ f ∈ acceptedEdits file.chars earlier,
              f = camelCaseEdit property ∨ f.conflictsWith (camelCaseEdit property) = false) := by
  constructor
  · exact renameDefinitions_eq_ok hlocated hdraft
  · obtain ⟨part, hpart, hnothing, hpattern⟩ :=
      exists_draft_of_unpacking file.chars file.language hu
    refine ⟨part, hpart, infix_edits_of_consumer hdraft hc hpart, ?_,
      fun earlier later hplace => ?_⟩
    · rw [← renames_ne_nil_iff]
      constructor
      · intro hmem hnone
        rw [hnothing hnone] at hmem
        cases hmem
      · exact fun hsome =>
          hpattern hsome (camelCaseEdit_mem_patternEdits hproperty hneeds houtside)
    · exact takesEffect_iff_mem.trans (mem_appliedEdits_iff_of_eq hplace)

/-- A field with a spread among its arguments, of which one is renamed. -/
def artistPages : SourceFile where
  text := "const f: GraphQLFieldConfig = \x7b args: \x7b ...pages, artist_id: x \x7d,\n" ++
    " resolve: (s, \x7b artist_id, page_size \x7d) => load(artist_id, page_size) \x7d"
  language := .typeScript

/-- Where the resolver takes a key from the spread. -/
def pageSizeProperty : PatternProperty := ⟨"page_size", ⟨93, 102⟩, .shorthand⟩

theorem spread_key_is_renamed_in_artistPages :
    ∃ d draft, artistPages.definitions {} = .ok d ∧
      renameDraft artistPages.chars artistPages.language d = .ok draft ∧
      ∃ c ∈ d.consumers, ∃ u, c.unpacking? d = some u ∧
        u.map.entries.any (·.field?.isNone) = true ∧
        pageSizeProperty ∈ u.pattern.properties ∧
        needsCamelize pageSizeProperty.key = true ∧ pageSizeProperty.key ∉ u.map.keys ∧
        (camelCaseEdit pageSizeProperty).TakesEffect artistPages.chars draft.edits
          (draft.finish artistPages.text).text.toList := by
  have hcheck : (renameParts? artistPages).any (fun p =>
      decide (∃ c ∈ p.1.consumers, (c.unpacking? p.1).any (fun u =>
        u.map.entries.any (·.field?.isNone) &&
          decide (pageSizeProperty ∈ u.pattern.properties ∧ pageSizeProperty.key ∉ u.map.keys ∧
            p.2.edits = [.replace ⟨50, 59⟩ "artistID", .insert 82 "artistID: "] ++
              camelCaseEdit pageSizeProperty :: [])) = true)) = true := by
    decide +kernel
  obtain ⟨⟨d, draft⟩, hparts, hholds⟩ := Option.any_eq_true _ _ |>.mp hcheck
  obtain ⟨c, hc, hholds⟩ := of_decide_eq_true hholds
  obtain ⟨u, hu, hholds⟩ := Option.any_eq_true _ _ |>.mp hholds
  rw [Bool.and_eq_true, decide_eq_true_eq] at hholds
  obtain ⟨hspread, hproperty, houtside, hplace⟩ := hholds
  obtain ⟨hlocated, hdraft⟩ := renameParts?_eq_some hparts
  have hneeds : needsCamelize pageSizeProperty.key = true := by decide
  obtain ⟨-, part, -, -, -, htakes⟩ :=
    spread_key_is_renamed_iff {} hlocated hdraft hc hu hproperty hneeds houtside
  refine ⟨d, draft, hlocated, hdraft, c, hc, u, hu, hspread, hproperty, hneeds, houtside,
    (htakes _ _ hplace).mpr ⟨?_, ?_⟩⟩
  · exact Edit.fits_iff_inBounds.mp (by decide +kernel)
  · decide +kernel

/-- The same field, with an argument that keeps its name. -/
def sortedPages : SourceFile where
  text := "const f: GraphQLFieldConfig = \x7b args: \x7b ...pages, sort: x \x7d,\n" ++
    " resolve: (s, \x7b sort, page_size \x7d) => load(sort, page_size) \x7d"
  language := .typeScript

/-- Where nothing of the map is renamed, a key from the spread stays in snake
case, and so does all of the script. -/
theorem spread_key_keeps_snake_case :
    ∃ d draft, sortedPages.definitions {} = .ok d ∧
      renameDraft sortedPages.chars sortedPages.language d = .ok draft ∧
      (∃ c ∈ d.consumers, ∃ u, c.unpacking? d = some u ∧
        u.map.entries.any (·.field?.isNone) = true ∧
        ∃ property ∈ u.pattern.properties, needsCamelize property.key = true ∧
          property.key ∉ u.map.keys) ∧
      ∃ outcome, renameDefinitions {} sortedPages = .ok outcome ∧
        outcome.text = sortedPages.text ∧ outcome.changed = false := by
  have hcheck : (renameParts? sortedPages).any (fun p =>
      decide (∃ c ∈ p.1.consumers, (c.unpacking? p.1).any (fun u =>
        u.map.entries.any (·.field?.isNone) &&
          decide (∃ property ∈ u.pattern.properties, needsCamelize property.key = true ∧
            property.key ∉ u.map.keys)) = true) && p.2.edits.isEmpty) = true := by
    decide +kernel
  obtain ⟨⟨d, draft⟩, hparts, hholds⟩ := Option.any_eq_true _ _ |>.mp hcheck
  rw [Bool.and_eq_true, decide_eq_true_eq] at hholds
  obtain ⟨⟨c, hc, hholds⟩, hnone⟩ := hholds
  obtain ⟨u, hu, hholds⟩ := Option.any_eq_true _ _ |>.mp hholds
  rw [Bool.and_eq_true, decide_eq_true_eq] at hholds
  obtain ⟨hlocated, hdraft⟩ := renameParts?_eq_some hparts
  refine ⟨d, draft, hlocated, hdraft, ⟨c, hc, u, hu, hholds.1, hholds.2⟩,
    draft.finish sortedPages.text, ?_, ?_, ?_⟩
  · exact renameDefinitions_eq_ok hlocated hdraft
  · rw [Draft.finish, List.isEmpty_iff.mp hnone, applyEdits_nil]
  · rw [Draft.finish, List.isEmpty_iff.mp hnone, applyEdits_nil, Applied.changed,
      bne_self_eq_false]

end GraphMigrate
