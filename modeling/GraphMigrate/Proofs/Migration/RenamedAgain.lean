/-
Renaming what has been renamed.

The keys of definitions are renamed by edits, and of two edits that overlap one
is skipped.  So a script that comes out of the migration may have keys left that
the migration wants to rename.  Given its own output, it drafts nothing exactly
if the keys of all maps that are found there are settled; and where the output
is read as it was meant, that is so exactly if every rename of the first time
took effect.

* `Definitions.renamedMaps`: the maps whose keys are renamed;
* `rename_edit_mem`, `edits_eq_nil_iff`: what is drafted for them;
* `exists_takesEffect_of_edits_ne_nil`: what is drafted changes something;
* `Definitions.IsReadBack`: the output is read as it was meant;
* `renaming_again_drafts_nothing_iff`: **what a second run drafts**;
* `skipped_rename_is_made_up_for`: a second run that changes the text.
-/
import GraphMigrate.Proofs.Arguments.SettledKeys
import GraphMigrate.Proofs.Migration.EarlyReturn
import GraphMigrate.Proofs.Migration.SourceResolvers
import GraphMigrate.Proofs.Script.Places

namespace GraphMigrate

/-! ### Maps whose keys are renamed -/

/-- The maps whose keys are renamed: the fields of outputs, their arguments, maps
of arguments on their own, and the fields of inputs. -/
def Definitions.renamedMaps (d : Definitions) : List FieldMap :=
  d.outputMaps ++ d.outputFieldConfigs.filterMap (·.argumentMap?) ++ d.argumentMaps ++ d.inputMaps

section Drafts

variable {text : List Char} {language : Language} {d : Definitions} {draft : Draft}
  {map : FieldMap}

/-- The edits of a draft for all definitions, kind by kind. -/
lemma exists_edits_of_renameDraft (hdraft : renameDraft text language d = .ok draft) :
    ∃ arguments mutations,
      d.outputFieldConfigs.mapM (argumentsDraft text language) = .ok arguments ∧
      d.mutations.mapM (mutationDraft text language d.inputMaps) = .ok mutations ∧
      draft.edits = d.outputMaps.flatMap (fun map => (outputDraft text map).edits) ++
        arguments.flatMap (·.edits) ++
        d.argumentMaps.flatMap (fun map => (argumentMapDraft map).edits) ++
        mutations.flatMap (·.edits) ++
        d.inputMaps.flatMap (fun map => (inputDraft text map).edits) := by
  rw [renameDraft] at hdraft
  obtain ⟨arguments, harguments, hdraft⟩ := exists_ok_of_bind hdraft
  obtain ⟨mutations, hmutations, hdraft⟩ := exists_ok_of_bind hdraft
  cases hdraft
  refine ⟨arguments, mutations, harguments, hmutations, ?_⟩
  simp [Draft.concat, Draft.ofNotes, List.flatMap_append, List.flatMap_map]

/-- The renames of the arguments of a field are drafted in front of what is
drafted for its resolver. -/
lemma edits_argumentsDraft {config : FieldConfig} {part : Draft}
    (hpart : argumentsDraft text language config = .ok part)
    (hmap : config.argumentMap? = some map) :
    ∃ consumer, part.edits = (plan map).renames.map (·.edit) ++ consumer ∧
      ((plan map).renames = [] → consumer = []) := by
  rw [argumentsDraft, ← FieldConfig.argumentMap?, hmap] at hpart
  dsimp only at hpart
  split at hpart
  next hempty =>
    cases hpart
    exact ⟨[], by rw [List.isEmpty_iff.mp hempty]; rfl, fun _ => rfl⟩
  next hsome =>
    obtain ⟨consumer, -, hpart⟩ := exists_ok_of_bind hpart
    cases hpart
    exact ⟨consumer.edits, rfl, fun h => absurd (List.isEmpty_iff.mpr h) hsome⟩

/-- Each planned rename of a key is drafted. -/
lemma rename_edit_mem (hdraft : renameDraft text language d = .ok draft)
    (hmap : map ∈ d.renamedMaps) {r : Rename} (hr : r ∈ (plan map).renames) :
    r.edit ∈ draft.edits := by
  have hedit : r.edit ∈ (plan map).renames.map (·.edit) := List.mem_map_of_mem hr
  obtain ⟨arguments, mutations, harguments, -, hedits⟩ := exists_edits_of_renameDraft hdraft
  rw [hedits]
  simp only [List.mem_append, List.mem_flatMap]
  simp only [Definitions.renamedMaps, List.mem_append, List.mem_filterMap] at hmap
  rcases hmap with ((hmap | ⟨config, hconfig, hmap⟩) | hmap) | hmap
  · refine .inl (.inl (.inl (.inl ⟨map, hmap, ?_⟩)))
    rw [outputDraft, Draft.edits_append]
    refine List.mem_append_right _ (List.mem_flatMap.mpr ⟨_, List.mem_map_of_mem hr, ?_⟩)
    exact List.mem_cons_self
  · obtain ⟨part, hpart, hrun⟩ := exists_mem_of_mapM harguments hconfig
    obtain ⟨consumer, hparts, -⟩ := edits_argumentsDraft hrun hmap
    exact .inl (.inl (.inl (.inr ⟨part, hpart, hparts ▸ List.mem_append_left _ hedit⟩)))
  · exact .inl (.inl (.inr ⟨map, hmap, hedit⟩))
  · exact .inr ⟨map, hmap, List.mem_append_left _ hedit⟩

/-- Nothing is drafted exactly if no rename of a key is planned. -/
lemma edits_eq_nil_iff (hdraft : renameDraft text language d = .ok draft) :
    draft.edits = [] ↔ ∀ map ∈ d.renamedMaps, AreSettled map.keys := by
  constructor
  · intro hempty map hmap
    rw [← renames_eq_nil_iff, List.eq_nil_iff_forall_not_mem]
    intro r hr
    have hmem := rename_edit_mem hdraft hmap hr
    rw [hempty] at hmem
    cases hmem
  · intro hsettled
    have hnone : ∀ map ∈ d.renamedMaps, (plan map).renames = [] := fun map hmap =>
      renames_eq_nil_iff.mpr (hsettled map hmap)
    simp only [Definitions.renamedMaps, List.mem_append, or_imp, forall_and] at hnone
    obtain ⟨⟨⟨houtputs, harguments⟩, hmaps⟩, hinputs⟩ := hnone
    obtain ⟨arguments, mutations, hrun, hrun', hedits⟩ := exists_edits_of_renameDraft hdraft
    rw [hedits]
    simp only [List.append_eq_nil_iff, List.flatMap_eq_nil_iff]
    refine ⟨⟨⟨⟨fun map hmap => ?_, fun part hpart => ?_⟩, fun map hmap => ?_⟩,
      fun part hpart => ?_⟩, fun map hmap => ?_⟩
    · simp [outputDraft, houtputs map hmap, Draft.concat, Draft.ofNotes]
    · obtain ⟨config, hconfig, hpart⟩ := exists_source_of_mapM hrun hpart
      cases hmap : config.argumentMap? with
      | none =>
          rw [argumentsDraft, ← FieldConfig.argumentMap?, hmap] at hpart
          cases hpart
          rfl
      | some map =>
          have hempty := harguments map (List.mem_filterMap.mpr ⟨config, hconfig, hmap⟩)
          obtain ⟨consumer, hparts, hconsumer⟩ := edits_argumentsDraft hpart hmap
          rw [hparts, hconsumer hempty, hempty]
          rfl
    · simp [argumentMapDraft, hmaps map hmap]
    · obtain ⟨mutation, hmutation, hpart⟩ := exists_source_of_mapM hrun' hpart
      rw [mutationDraft] at hpart
      split at hpart
      next =>
        cases hpart
        rfl
      next map hfound =>
        obtain ⟨i, -, hget⟩ := Option.bind_eq_some_iff.mp hfound
        have hempty := hinputs map (List.mem_of_getElem? hget)
        simp only [hempty, List.isEmpty_nil, if_true] at hpart
        cases hpart
        rfl
    · simp [inputDraft, hinputs map hmap]

end Drafts

/-! ### What takes effect -/

/-- The entries in the configuration of an entry of a map are in the map. -/
lemma allFields_subset_of_config {map : FieldMap} {field : NamedEntry} (hfield : field ∈ map.fields)
    {config : FieldConfig} (hconfig : field.value.config? = some config) :
    config.allFields ⊆ map.allFields := by
  obtain ⟨kind, span, entries⟩ := map
  rw [FieldMap.allFields]
  rw [FieldMap.fields, FieldMap.entries] at hfield
  induction entries with
  | nil => cases hfield
  | cons e es ih =>
      rw [MapEntry.allFieldsOf]
      rw [List.filterMap_cons] at hfield
      cases e with
      | field key keySpan shorthand span value =>
          rcases List.mem_cons.mp hfield with rfl | hfield
          · cases value with
            | config c =>
                cases hconfig
                rw [MapEntry.allFields, FieldValue.allFields]
                exact List.subset_append_of_subset_left _ (List.subset_cons_self _ _)
            | _ => cases hconfig
          · exact List.subset_append_of_subset_right _ (ih hfield)
      | spread label span => exact List.subset_append_of_subset_right _ (ih hfield)
      | computed span => exact List.subset_append_of_subset_right _ (ih hfield)

lemma allFields_argumentMap? {config : FieldConfig} {map : FieldMap}
    (h : config.argumentMap? = some map) : config.allFields = map.allFields := by
  obtain ⟨span, properties, type, arguments, resolve, deprecated⟩ := config
  obtain ⟨source, hsource, hmap⟩ := Option.bind_eq_some_iff.mp h
  cases hsource
  rw [FieldConfig.allFields, FieldsSource.allFieldsOf]
  cases source with
  | inline => cases hmap; rfl
  | deferred => cases hmap; rfl
  | _ => cases hmap

/-- The entries of the maps whose keys are renamed are among those found. -/
lemma fields_subset_of_mem_renamedMaps {d : Definitions} {map : FieldMap}
    (hmap : map ∈ d.renamedMaps) : map.fields ⊆ d.allFields := by
  refine List.Subset.trans map.fields_subset_allFields fun field hfield => ?_
  simp only [Definitions.allFields, List.mem_append, List.mem_flatMap]
  simp only [Definitions.renamedMaps, Definitions.outputFieldConfigs, List.mem_append,
    List.mem_filterMap, List.mem_map, List.mem_flatMap] at hmap
  rcases hmap with ((hmap | ⟨config, hconfig, hmap⟩) | hmap) | hmap
  · exact .inl (.inl (.inl (.inl ⟨map, hmap, hfield⟩)))
  · rw [← allFields_argumentMap? hmap] at hfield
    rcases hconfig with ⟨entry, ⟨outer, houter, hentry⟩, hconfig⟩ | ⟨named, hnamed, rfl⟩
    · exact .inl (.inl (.inl (.inl
        ⟨outer, houter, allFields_subset_of_config hentry hconfig hfield⟩)))
    · exact .inl (.inr ⟨named, hnamed, hfield⟩)
  · exact .inl (.inl (.inr ⟨map, hmap, hfield⟩))
  · exact .inl (.inl (.inl (.inr ⟨map, hmap, hfield⟩)))

lemma Rename.span_edit (r : Rename) : r.edit.span = r.field.keySpan := by
  rw [Rename.edit, renameKey]
  split <;> rfl

/-- A batch with an edit that fits applies one. -/
lemma exists_mem_appliedEdits {text : List Char} {edits : List Edit} {e : Edit} (he : e ∈ edits)
    (hfit : e.InBounds text) : ∃ f, f ∈ appliedEdits text edits := by
  obtain ⟨i, hi⟩ := List.getElem?_of_mem he
  rcases mem_selected_or hi hfit with h | ⟨f, j, hf, -, -⟩
  · exact ⟨e, mem_appliedEdits_iff.mpr ⟨i, h⟩⟩
  · exact ⟨f, mem_appliedEdits_iff.mpr ⟨j, hf⟩⟩

/-- Where a key is left to be renamed, some edit takes effect. -/
lemma exists_takesEffect_of_edits_ne_nil {vocabulary : Vocabulary} {file : SourceFile}
    {d : Definitions} {draft : Draft} (hlocated : file.definitions vocabulary = .ok d)
    (hdraft : renameDraft file.chars file.language d = .ok draft)
    (hmark : file.chars.head? ≠ some '\uFEFF') (hsome : draft.edits ≠ []) :
    ∃ e : Edit, e.TakesEffect file.chars draft.edits (draft.finish file.text).text.toList := by
  rw [Ne, edits_eq_nil_iff hdraft] at hsome
  push Not at hsome
  obtain ⟨map, hmap, hopen⟩ := hsome
  rw [← renames_eq_nil_iff] at hopen
  obtain ⟨r, hr⟩ := List.exists_mem_of_ne_nil _ hopen
  have hfield : r.field ∈ map.fields := (sublist_planFrom _ _ _).subset (List.mem_map_of_mem hr)
  obtain ⟨source, hparse, hlocate⟩ := exists_parse_of_definitions hlocated
  obtain ⟨kind, written, -, hslice, -⟩ := (places_of_parse (source_of_parse hparse) hmark).2
    vocabulary d hlocate r.field (fields_subset_of_mem_renamedMaps hmap hfield)
  have hfits : r.edit.fits file.chars = true := by
    rw [Edit.fits, r.span_edit]
    exact Option.isSome_iff_exists.mpr ⟨written, hslice⟩
  obtain ⟨e, he⟩ := exists_mem_appliedEdits (rename_edit_mem hdraft hmap hr)
    (Edit.fits_iff_inBounds.mp hfits)
  exact ⟨e, takesEffect_iff_mem.mpr he⟩

/-! ### The output of the migration -/

/-- A file after a draft for it. -/
def SourceFile.after (file : SourceFile) (draft : Draft) : SourceFile :=
  ⟨(draft.finish file.text).text, file.language⟩

/-- The renames of a map that are among the edits that were accepted. -/
def FieldMap.acceptedRenames (accepted : List Edit) (map : FieldMap) : List Rename :=
  (plan map).renames.filter fun r => accepted.contains r.edit

/-- What is found in the output is what was found in the input: the maps have the
keys that the accepted renames have left them. -/
structure Definitions.IsReadBack (accepted : List Edit) (d again : Definitions) : Prop where
  forth : ∀ map ∈ d.renamedMaps, ∃ map' ∈ again.renamedMaps,
    map'.keys = keysAfter map.fields (map.acceptedRenames accepted)
  back : ∀ map' ∈ again.renamedMaps, ∃ map ∈ d.renamedMaps,
    map'.keys = keysAfter map.fields (map.acceptedRenames accepted)

instance (accepted : List Edit) (d again : Definitions) : Decidable (d.IsReadBack accepted again) :=
  decidable_of_iff (_ ∧ _) ⟨fun h => ⟨h.1, h.2⟩, fun h => ⟨h.forth, h.back⟩⟩

/-- Maps that are read back are settled exactly if all renames were accepted. -/
lemma Definitions.IsReadBack.areSettled_iff {accepted : List Edit} {d again : Definitions}
    (h : d.IsReadBack accepted again) :
    (∀ map ∈ again.renamedMaps, AreSettled map.keys) ↔
      ∀ map ∈ d.renamedMaps, ∀ r ∈ (plan map).renames, r.edit ∈ accepted := by
  have hmap (map : FieldMap) : AreSettled (keysAfter map.fields (map.acceptedRenames accepted)) ↔
      ∀ r ∈ (plan map).renames, r.edit ∈ accepted := by
    rw [FieldMap.acceptedRenames, areSettled_keysAfter_iff List.filter_sublist]
    refine forall₂_congr fun r hr => ?_
    rw [List.mem_filter, List.contains_iff_mem]
    exact and_iff_right hr
  constructor
  · intro hsettled map hmem
    obtain ⟨map', hmem', hkeys⟩ := h.forth map hmem
    exact (hmap map).mp (hkeys ▸ hsettled map' hmem')
  · intro hall map' hmem'
    obtain ⟨map, hmem, hkeys⟩ := h.back map' hmem'
    rw [hkeys]
    exact (hmap map).mpr (hall map hmem)

/-- **What a second run drafts.**  Let the migration succeed on a file, and let its
output be searched for definitions and drafted for.  The second run drafts no edit
exactly if the keys of all maps in the output are settled, and then it returns the
text as it is.  Otherwise, in a text without a byte order mark, some edit takes
effect.

Where the output is read as it was meant, that is, where its maps have the keys that
the accepted renames have left them, the second run drafts no edit exactly if in the
first every rename took effect.  There may be repeated keys and collisions, and
definitions inside of others. -/
theorem renaming_again_drafts_nothing_iff {context : Context} {file : SourceFile}
    {d d' : Definitions} {draft draft' : Draft}
    (hlocated : file.definitions context.vocabulary = .ok d)
    (hdraft : renameDraft file.chars file.language d = .ok draft)
    (hlocated' : (file.after draft).definitions context.vocabulary = .ok d')
    (hdraft' : renameDraft (file.after draft).chars file.language d' = .ok draft') :
    renameDefinitions context file = .ok (draft.finish file.text) ∧
    renameDefinitions context (file.after draft) = .ok (draft'.finish (file.after draft).text) ∧
    (draft'.edits = [] ↔ ∀ map ∈ d'.renamedMaps, AreSettled map.keys) ∧
    (draft'.edits = [] → draft'.finish (file.after draft).text =
      ⟨(draft.finish file.text).text, draft'.notes, false⟩) ∧
    (draft'.edits ≠ [] → (file.after draft).chars.head? ≠ some '\uFEFF' →
      ∃ e : Edit, e.TakesEffect (file.after draft).chars draft'.edits
        (draft'.finish (file.after draft).text).text.toList) ∧
    (d.IsReadBack (acceptedEdits file.chars draft.edits) d' →
      (draft'.edits = [] ↔ ∀ map ∈ d.renamedMaps, ∀ r ∈ (plan map).renames,
        r.edit.TakesEffect file.chars draft.edits (draft.finish file.text).text.toList)) := by
  refine ⟨?_, ?_, edits_eq_nil_iff hdraft', fun hnone => ?_, fun hsome hmark => ?_,
    fun hread => ?_⟩
  · exact renameDefinitions_eq_ok hlocated hdraft
  · have hrun : renameDraft (file.after draft).chars (file.after draft).language d' =
        .ok draft' := hdraft'
    simp only [renameDefinitions, hlocated', hrun, bind, Except.bind, pure, Except.pure]
  · rw [Draft.finish, hnone, applyEdits_nil, Applied.changed, bne_self_eq_false]
    rfl
  · exact exists_takesEffect_of_edits_ne_nil hlocated' hdraft' hmark hsome
  · rw [edits_eq_nil_iff hdraft', hread.areSettled_iff]
    refine forall₂_congr fun map _ => forall₂_congr fun r _ => ?_
    rw [← mem_appliedEdits_iff_mem_acceptedEdits]
    exact takesEffect_iff_mem.symm

/-- Accepted edits that come in order are spliced in. -/
lemma SourceFile.chars_after (file : SourceFile) {draft : Draft}
    (hordered : (acceptedEdits file.chars draft.edits).Pairwise fun a b => a.precedes b = true) :
    (file.after draft).chars = splice 0 file.chars (acceptedEdits file.chars draft.edits) :=
  (congrArg String.toList (applyEdits_text_of_pairwise hordered)).trans String.toList_ofList

/-- A draft whose accepted edits come in order turns a file into another. -/
lemma SourceFile.after_eq (file output : SourceFile) {draft : Draft}
    (hlanguage : file.language = output.language)
    (hordered : (acceptedEdits file.chars draft.edits).Pairwise fun a b => a.precedes b = true)
    (htext : splice 0 file.chars (acceptedEdits file.chars draft.edits) = output.chars) :
    file.after draft = output := by
  have hfinish : (draft.finish file.text).text = output.text :=
    String.toList_injective ((file.chars_after hordered).trans htext)
  rw [SourceFile.after, hfinish, hlanguage]

lemma renameDefinitions_of_renameParts? {file : SourceFile} {d : Definitions} {draft : Draft}
    (h : renameParts? file = some (d, draft)) :
    renameDefinitions {} file = .ok (draft.finish file.text) := by
  obtain ⟨hlocated, hdraft⟩ := renameParts?_eq_some h
  exact renameDefinitions_eq_ok hlocated hdraft

/-- Accepted edits that change the text when spliced in do so in the migration. -/
lemma SourceFile.text_finish_ne (file : SourceFile) {draft : Draft}
    (hordered : (acceptedEdits file.chars draft.edits).Pairwise fun a b => a.precedes b = true)
    (hother : splice 0 file.chars (acceptedEdits file.chars draft.edits) ≠ file.chars) :
    (draft.finish file.text).text ≠ file.text := fun heq =>
  hother ((file.chars_after hordered).symm.trans (congrArg String.toList heq))

/-- A field with an argument whose new name is taken, and one that its resolver needs. -/
def fieldWithTakenName : SourceFile where
  text := "const f: GraphQLFieldConfig = \x7b args: \x7b a_b: x, aB: y, c_d: z \x7d,\n" ++
    " resolve: (s, o) => \x7b return o \x7d \x7d"
  language := .typeScript

/-- The field after the migration. -/
def renamedWithTakenName : SourceFile where
  text := "const f: GraphQLFieldConfig = \x7b args: \x7b a_b: x, aB: y, cD: z \x7d,\n" ++
    " resolve: (s, \x7b cD, ..._o \x7d) => \x7b const o: any = \x7b c_d: cD, ..._o \x7d;\n" ++
    "\n" ++
    " return o \x7d \x7d"
  language := .typeScript

theorem renaming_fieldWithTakenName_again_drafts_nothing :
    ∃ d draft d' draft', fieldWithTakenName.definitions {} = .ok d ∧
      renameDraft fieldWithTakenName.chars fieldWithTakenName.language d = .ok draft ∧
      draft.edits.length = 3 ∧ fieldWithTakenName.after draft = renamedWithTakenName ∧
      (fieldWithTakenName.after draft).definitions {} = .ok d' ∧
      renameDraft (fieldWithTakenName.after draft).chars fieldWithTakenName.language d' =
        .ok draft' ∧
      d.IsReadBack (acceptedEdits fieldWithTakenName.chars draft.edits) d' ∧
      (∀ map ∈ d.renamedMaps, ∀ r ∈ (plan map).renames, r.edit.TakesEffect fieldWithTakenName.chars
        draft.edits (draft.finish fieldWithTakenName.text).text.toList) ∧
      renameDefinitions {} (fieldWithTakenName.after draft) =
        .ok ⟨(draft.finish fieldWithTakenName.text).text, draft'.notes, false⟩ := by
  have hcheck : (renameParts? fieldWithTakenName).any (fun p =>
      let accepted := acceptedEdits fieldWithTakenName.chars p.2.edits
      decide (accepted.Pairwise fun a b => a.precedes b = true) &&
        decide (splice 0 fieldWithTakenName.chars accepted = renamedWithTakenName.chars) &&
        decide (p.2.edits.length = 3) &&
        (renameParts? renamedWithTakenName).any fun q =>
          decide (p.1.IsReadBack accepted q.1) && q.2.edits.isEmpty) = true := by
    decide +kernel
  obtain ⟨⟨d, draft⟩, hparts, hholds⟩ := Option.any_eq_true _ _ |>.mp hcheck
  simp only [Bool.and_eq_true, decide_eq_true_eq] at hholds
  obtain ⟨⟨⟨hordered, htext⟩, hthree⟩, hholds⟩ := hholds
  obtain ⟨⟨d', draft'⟩, hparts', hholds⟩ := Option.any_eq_true _ _ |>.mp hholds
  rw [Bool.and_eq_true, decide_eq_true_eq, List.isEmpty_iff] at hholds
  obtain ⟨hread, hnone⟩ := hholds
  obtain ⟨hlocated, hdraft⟩ := renameParts?_eq_some hparts
  obtain ⟨hlocated', hdraft'⟩ := renameParts?_eq_some hparts'
  have hafter : fieldWithTakenName.after draft = renamedWithTakenName :=
    SourceFile.after_eq _ _ rfl hordered htext
  rw [← hafter] at hlocated' hdraft'
  have hvocabulary : fieldWithTakenName.definitions ({} : Context).vocabulary = .ok d := hlocated
  obtain ⟨-, hrun, -, hsame, -, hiff⟩ :=
    renaming_again_drafts_nothing_iff hvocabulary hdraft hlocated' hdraft'
  rw [hsame hnone] at hrun
  exact ⟨d, draft, d', draft', hlocated, hdraft, hthree, hafter, hlocated', hdraft', hread,
    (hiff hread).mp hnone, hrun⟩

/-- A field with an input inside of the expression that its resolver returns. -/
def inputInExpression : SourceFile where
  text := "const f: GraphQLFieldConfig = \x7b args: \x7b a_b: x \x7d,\n" ++
    " resolve: (s, o) => g(o, new GraphQLInputObjectType(\x7b fields: \x7b c_d: y \x7d \x7d)) \x7d"
  language := .typeScript

/-- The field after the migration: the body that became a block is as it was. -/
def renamedInputInExpression : SourceFile where
  text := "const f: GraphQLFieldConfig = \x7b args: \x7b aB: x \x7d,\n" ++
    " resolve: (s, \x7b aB \x7d) => \x7b\n" ++
    "   const o: any = \x7b a_b: aB \x7d;\n" ++
    "\n" ++
    "   return g(o, new GraphQLInputObjectType(\x7b fields: \x7b c_d: y \x7d \x7d));\n" ++
    " \x7d \x7d"
  language := .typeScript

/-- The edit that makes a block of the body keeps out the rename of the input, which
the second run makes up for. -/
theorem skipped_rename_is_made_up_for :
    ∃ first second, renameDefinitions {} inputInExpression = .ok first ∧
      first.text = renamedInputInExpression.text ∧
      renameDefinitions {} ⟨first.text, .typeScript⟩ = .ok second ∧
      second.text ≠ first.text ∧ second.changed = true := by
  have hcheck : (renameParts? inputInExpression).any (fun p =>
      let accepted := acceptedEdits inputInExpression.chars p.2.edits
      decide (accepted.Pairwise fun a b => a.precedes b = true) &&
        decide (splice 0 inputInExpression.chars accepted = renamedInputInExpression.chars) &&
        (renameParts? renamedInputInExpression).any fun q =>
          let accepted := acceptedEdits renamedInputInExpression.chars q.2.edits
          decide (accepted.Pairwise fun a b => a.precedes b = true) &&
          decide (splice 0 renamedInputInExpression.chars accepted ≠
            renamedInputInExpression.chars)) = true := by
    decide +kernel
  obtain ⟨⟨d, draft⟩, hparts, hholds⟩ := Option.any_eq_true _ _ |>.mp hcheck
  simp only [Bool.and_eq_true, decide_eq_true_eq] at hholds
  obtain ⟨⟨hordered, htext⟩, hholds⟩ := hholds
  obtain ⟨⟨d', draft'⟩, hparts', hholds⟩ := Option.any_eq_true _ _ |>.mp hholds
  simp only [Bool.and_eq_true, decide_eq_true_eq] at hholds
  obtain ⟨hordered', hother⟩ := hholds
  have hafter : inputInExpression.after draft = renamedInputInExpression :=
    SourceFile.after_eq _ _ rfl hordered htext
  have hfirst : (draft.finish inputInExpression.text).text = renamedInputInExpression.text :=
    congrArg SourceFile.text hafter
  have hsecond := renamedInputInExpression.text_finish_ne hordered' hother
  have hagain := renameDefinitions_of_renameParts? hparts'
  rw [← hafter] at hagain
  refine ⟨_, _, renameDefinitions_of_renameParts? hparts, hfirst, hagain, ?_⟩
  rw [hfirst, hafter]
  exact ⟨hsecond, bne_iff_ne.mpr hsecond⟩

end GraphMigrate
