/-
What is left of the deprecated parts of a script.

Deprecated entries and configurations are pruned kind by kind: the entries
of output maps, the configurations that are variables, the values of enums.
Definitions may contain each other across kinds, so a part may be met after
one inside it, and then its edit is dropped.

* `Definitions.deprecatedTargets`: the deprecated parts in the order in
  which they are pruned, with their edits;
* `Definitions.WellNested`: entries and configurations of a text that lie
  apart or in one another;
* `Definitions.wellNested_of_locate`: what is located in a script that is laid
  out is well nested;
* `pruneDeprecated_leaves_nothing_iff`: **nothing deprecated is left exactly
  when outer parts are met before those inside them**;
* `deprecated_config_around_object_type_is_kept`: a deprecated
  configuration around a deprecated field is met too late.
-/
import GraphMigrate.Migration.Deprecation
import GraphMigrate.Proofs.Control.Ensures
import GraphMigrate.Proofs.Definitions.Separation
import GraphMigrate.Proofs.Rewriting.RemovalSpan
import GraphMigrate.Proofs.Text.Nesting

namespace GraphMigrate

/-! ### What is pruned -/

namespace Target

/-- The removal of an entry. -/
def removal (text : List Char) (entry : Span) : Target := ⟨entry, removeEntry text entry⟩

/-- The emptying of a configuration. -/
def emptying (config : Span) : Target := ⟨config, .replace config "\x7b\x7d"⟩

end Target

/-- The deprecated entries of a map, to be removed. -/
def FieldMap.deprecatedTargets (text : List Char) (map : FieldMap) : List Target :=
  (map.fields.filter (·.value.isDeprecated)).map fun f => .removal text f.span

/-- The deprecated values of an enum, to be removed where they are known. -/
def FieldsSource.deprecatedTargets (text : List Char) (source : FieldsSource) : List Target :=
  source.map?.toList.flatMap (·.deprecatedTargets text)

namespace Definitions

/-- The deprecated parts of a script in the order in which they are
pruned. -/
def deprecatedTargets (text : List Char) (d : Definitions) : List Target :=
  d.outputMaps.flatMap (·.deprecatedTargets text)
    ++ (d.fieldConfigs.filter (·.config.deprecated)).map (fun c => .emptying c.config.span)
    ++ d.enumValues.flatMap (·.deprecatedTargets text)

/-- The spans of the entries of output maps, of the configurations that are
variables and of the values of enums. -/
def partSpans (d : Definitions) : List Span :=
  d.outputMaps.flatMap (fun map => map.fields.map (·.span))
    ++ d.fieldConfigs.map (·.config.span)
    ++ d.enumValues.flatMap fun source =>
      source.map?.toList.flatMap fun map => map.fields.map (·.span)

/-- Entries and configurations begin and end with characters of their own,
and two of them lie apart or one in the other. -/
structure WellNested (text : List Char) (d : Definitions) : Prop where
  solid : ∀ s ∈ d.partSpans, s.IsSolid text
  nested : ∀ s ∈ d.partSpans, ∀ t ∈ d.partSpans,
    s.stop ≤ t.start ∨ t.stop ≤ s.start ∨ s.Within t ∨ t.Within s

instance (text : List Char) (d : Definitions) : Decidable (d.WellNested text) :=
  decidable_of_iff ((∀ s ∈ d.partSpans, s.IsSolid text) ∧ ∀ s ∈ d.partSpans, ∀ t ∈ d.partSpans,
      s.stop ≤ t.start ∨ t.stop ≤ s.start ∨ s.Within t ∨ t.Within s)
    ⟨fun h => ⟨h.1, h.2⟩, fun h => ⟨h.solid, h.nested⟩⟩

/-- Each of these spans is that of a property or a literal of the script. -/
lemma exists_part_of_mem_partSpans {vocabulary : Vocabulary} {source : Script.Source}
    {d : Definitions} (hlaid : source.script.IsLaidOut) (h : locate vocabulary source = .ok d)
    {s : Span} (hs : s ∈ d.partSpans) :
    ∃ p ∈ source.script.preorder, p.IsPart ∧ propertySpan p = s := by
  obtain ⟨hmaps, hconfigs⟩ := readOff_of_locate h
  have hfields {map : FieldMap} (hmap : map ∈ d.topMaps) (hs : s ∈ map.fields.map (·.span)) :
      ∃ p ∈ source.script.preorder, p.IsPart ∧ propertySpan p = s := by
    obtain ⟨field, hfield, rfl⟩ := List.mem_map.mp hs
    exact ReadFrom.exists_part hlaid hmaps (List.mem_append_left _ hmap) hfield
  rw [partSpans, List.mem_append, List.mem_append] at hs
  rcases hs with (hs | hs) | hs
  · obtain ⟨map, hmap, hs⟩ := List.mem_flatMap.mp hs
    exact hfields (by simp [topMaps, hmap]) hs
  · obtain ⟨c, hc, rfl⟩ := List.mem_map.mp hs
    obtain ⟨properties, hobject, -⟩ :=
      hconfigs c.config (List.mem_append_right _ (List.mem_map.mpr ⟨c, hc, rfl⟩))
    exact ⟨_, hobject, .inl trivial, rfl⟩
  · obtain ⟨values, hvalues, hs⟩ := List.mem_flatMap.mp hs
    obtain ⟨map, hmap, hs⟩ := List.mem_flatMap.mp hs
    exact hfields (List.mem_append_right _
      (List.mem_filterMap.mpr ⟨values, hvalues, Option.mem_toList.mp hmap⟩)) hs

/-- What is located in a script that is laid out is well nested, if its parts
begin and end with characters of their own. -/
theorem wellNested_of_locate {vocabulary : Vocabulary} {source : Script.Source} {d : Definitions}
    {text : List Char} (hlaid : source.script.IsLaidOut) (h : locate vocabulary source = .ok d)
    (hsolid : ∀ s ∈ d.partSpans, s.IsSolid text) : d.WellNested text := by
  refine ⟨hsolid, fun s hs t ht => ?_⟩
  obtain ⟨p, hp, hpart, rfl⟩ := exists_part_of_mem_partSpans hlaid h hs
  obtain ⟨q, hq, hpart', rfl⟩ := exists_part_of_mem_partSpans hlaid h ht
  exact or_assoc.mp (hlaid.nestedParts hp hq hpart hpart')

end Definitions

/-! ### The draft -/

lemma edits_deprecatedFields (text : List Char) (map : FieldMap) :
    (deprecatedFields text map).edits = Target.edits (map.deprecatedTargets text) := by
  simp [deprecatedFields, Draft.ofEdits, Target.edits, FieldMap.deprecatedTargets, Target.removal,
    Function.comp_def]

lemma edits_deprecatedConfigs (configs : List NamedConfig) :
    (deprecatedConfigs configs).edits = Target.edits
      ((configs.filter (·.config.deprecated)).map fun c => .emptying c.config.span) := by
  simp [deprecatedConfigs, Draft.ofEdits, Target.edits, Target.emptying, Function.comp_def]

lemma edits_deprecatedValues {text : List Char} {source : FieldsSource} {draft : Draft}
    (h : deprecatedValues text source = .ok draft) :
    draft.edits = Target.edits (source.deprecatedTargets text) := by
  have hmap : ∀ map : FieldMap, (do checkValues map; return deprecatedFields text map) =
      Except.ok draft → draft = deprecatedFields text map := by
    intro map hdo
    cases hcheck : checkValues map with
    | error e => simp [hcheck, bind, Except.bind] at hdo
    | ok _ =>
        simp only [hcheck, bind, Except.bind, pure, Except.pure, Except.ok.injEq] at hdo
        exact hdo.symm
  cases source with
  | inline map => simp [hmap map h, FieldsSource.deprecatedTargets, FieldsSource.map?,
      edits_deprecatedFields]
  | deferred map => simp [hmap map h, FieldsSource.deprecatedTargets, FieldsSource.map?,
      edits_deprecatedFields]
  | reference name span =>
      cases h
      rfl
  | call callee span =>
      cases h
      rfl
  | unsupported span =>
      cases h
      rfl

/-- What is read off each result of a run over a list is read off the
list. -/
lemma flatMap_eq_of_mapM {α β γ ε : Type} {f : α → Except ε β} {g : β → List γ} {g' : α → List γ}
    (hfg : ∀ x y, f x = .ok y → g y = g' x) {xs : List α} {ys : List β}
    (h : xs.mapM f = .ok ys) : ys.flatMap g = xs.flatMap g' := by
  induction xs generalizing ys with
  | nil =>
      cases h
      rfl
  | cons x xs ih =>
      rw [List.mapM_cons] at h
      cases hx : f x with
      | error e => simp [hx, bind, Except.bind] at h
      | ok y =>
          cases hxs : xs.mapM f with
          | error e => simp [hx, hxs, bind, Except.bind] at h
          | ok rest =>
              simp only [hx, hxs, bind, Except.bind, pure, Except.pure, Except.ok.injEq] at h
              subst h
              rw [List.flatMap_cons, List.flatMap_cons, hfg x y hx, ih hxs]

/-- The edits of the draft are those of the deprecated parts. -/
lemma edits_pruneDraft {text : List Char} {d : Definitions} {draft : Draft}
    (h : pruneDraft text d = .ok draft) :
    draft.edits = Target.edits (d.deprecatedTargets text) := by
  rw [pruneDraft] at h
  cases hvalues : d.enumValues.mapM (deprecatedValues text) with
  | error e => simp [hvalues, bind, Except.bind] at h
  | ok values =>
      have hedits : values.flatMap (·.edits) =
          d.enumValues.flatMap fun source => Target.edits (source.deprecatedTargets text) :=
        flatMap_eq_of_mapM (fun _ _ hxy => edits_deprecatedValues hxy) hvalues
      simp only [hvalues, bind, Except.bind, pure, Except.pure, Except.ok.injEq] at h
      subst h
      simp only [Draft.concat, List.flatMap_append, List.flatMap_cons, List.flatMap_nil,
        List.flatMap_map, List.append_nil, Draft.ofNotes, List.nil_append, hedits,
        edits_deprecatedFields, edits_deprecatedConfigs, Definitions.deprecatedTargets]
      simp only [Target.edits, List.map_append, List.map_flatMap]

/-! ### Deprecated parts as targets -/

lemma mem_fieldMapTargets {text : List Char} {map : FieldMap} {t : Target}
    (h : t ∈ map.deprecatedTargets text) :
    t.span ∈ map.fields.map (·.span) ∧ t.edit = removeEntry text t.span := by
  obtain ⟨f, hf, rfl⟩ := List.mem_map.mp h
  exact ⟨List.mem_map.mpr ⟨f, (List.mem_filter.mp hf).1, rfl⟩, rfl⟩

/-- Each deprecated part is an entry or a configuration, and its edit covers
it, stretched over filler at most. -/
lemma extends_of_mem_deprecatedTargets {text : List Char} {d : Definitions}
    (h : d.WellNested text) {t : Target} (ht : t ∈ d.deprecatedTargets text) :
    t.span ∈ d.partSpans ∧ Extends text t.span t.edit.span := by
  have hremoved : t.span ∈ d.partSpans → t.edit = removeEntry text t.span →
      t.span ∈ d.partSpans ∧ Extends text t.span t.edit.span := by
    intro hpart hedit
    rw [hedit]
    exact ⟨hpart, extends_removalSpan (h.solid _ hpart).isSome_slice?⟩
  rw [Definitions.deprecatedTargets, List.mem_append, List.mem_append] at ht
  rcases ht with (ht | ht) | ht
  · obtain ⟨map, hmap, ht⟩ := List.mem_flatMap.mp ht
    obtain ⟨hspan, hedit⟩ := mem_fieldMapTargets ht
    refine hremoved ?_ hedit
    exact List.mem_append_left _ (List.mem_append_left _ (List.mem_flatMap.mpr ⟨map, hmap, hspan⟩))
  · obtain ⟨c, hc, rfl⟩ := List.mem_map.mp ht
    have hpart : c.config.span ∈ d.partSpans := List.mem_append_left _
      (List.mem_append_right _ (List.mem_map.mpr ⟨c, (List.mem_filter.mp hc).1, rfl⟩))
    exact ⟨hpart, .refl (h.solid _ hpart).isSome_slice?⟩
  · obtain ⟨source, hsource, ht⟩ := List.mem_flatMap.mp ht
    obtain ⟨map, hmap, ht⟩ := List.mem_flatMap.mp ht
    obtain ⟨hspan, hedit⟩ := mem_fieldMapTargets ht
    refine hremoved ?_ hedit
    exact List.mem_append_right _ (List.mem_flatMap.mpr
      ⟨source, hsource, List.mem_flatMap.mpr ⟨map, hmap, hspan⟩⟩)

/-- The deprecated parts of well nested definitions are nested targets. -/
lemma areNested_deprecatedTargets {text : List Char} {d : Definitions} (h : d.WellNested text) :
    Target.AreNested text (d.deprecatedTargets text) := by
  have hpart := fun t ht => (extends_of_mem_deprecatedTargets h (t := t) ht).1
  have hext := fun t ht => (extends_of_mem_deprecatedTargets h (t := t) ht).2
  have hsolid := fun t ht => h.solid t.span (hpart t ht)
  have hapart : ∀ t ∈ d.deprecatedTargets text, ∀ u ∈ d.deprecatedTargets text,
      t.span.stop ≤ u.span.start → t.edit.conflictsWith u.edit = false := by
    intro t ht u hu hle
    have hends : t.edit.EndsBefore u.edit :=
      (hext t ht).stop_le_start (hext u hu) (hsolid t ht) (hsolid u hu) hle
    exact hends.conflictsWith_eq_false (slice?_isSome_iff.mp (hext t ht).isSome_slice?).1
  refine ⟨fun t ht => ?_, fun t ht => ⟨(hext t ht).start_le, (hext t ht).le_stop⟩,
    fun t ht => (hsolid t ht).start_lt_stop, fun t ht u hu heq => ?_, fun t ht u hu hconf => ?_⟩
  · rw [Edit.InBounds, ← slice?_isSome_iff]
    exact (hext t ht).isSome_slice?
  · exact (hext t ht).unique (heq ▸ hext u hu) (hsolid t ht) (hsolid u hu)
  · rcases h.nested t.span (hpart t ht) u.span (hpart u hu) with hle | hle | hin | hin
    · simp [hapart t ht u hu hle] at hconf
    · rw [Edit.conflictsWith_comm, hapart u hu t ht hle] at hconf
      cases hconf
    · exact Or.inl hin
    · exact Or.inr hin

/-- The text of a pruned script has the edits of the deprecated parts
applied. -/
lemma text_of_pruneDeprecated (context : Context) {file : SourceFile} {d : Definitions}
    {outcome : Outcome} (hlocated : file.definitions context.vocabulary = .ok d)
    (hok : pruneDeprecated context file = .ok outcome) :
    outcome.text = (applyEdits file.text (Target.edits (d.deprecatedTargets file.chars))).text := by
  rw [pruneDeprecated, hlocated] at hok
  cases hdraft : pruneDraft file.chars d with
  | error e => simp [hdraft, bind, Except.bind] at hok
  | ok draft =>
      simp only [hdraft, bind, Except.bind, pure, Except.pure, Except.ok.injEq] at hok
      subst hok
      rw [Draft.finish, edits_pruneDraft hdraft]

/-- **Pruning leaves nothing deprecated exactly when outer parts are met
before those inside them.**  Where all is pruned, each deprecated entry is
removed and each deprecated configuration that is a variable is replaced by
an empty one, save those inside another such part. -/
theorem pruneDeprecated_leaves_nothing_iff (context : Context) {file : SourceFile}
    {d : Definitions} {outcome : Outcome}
    (hlocated : file.definitions context.vocabulary = .ok d) (hnested : d.WellNested file.chars)
    (hok : pruneDeprecated context file = .ok outcome) :
    NothingLeft file.chars (d.deprecatedTargets file.chars) outcome.text.toList ↔
      OuterFirst ((d.deprecatedTargets file.chars).map (·.span)) := by
  rw [text_of_pruneDeprecated context hlocated hok]
  exact nothingLeft_iff_outerFirst (areNested_deprecatedTargets hnested)

/-- The definitions of a script and what pruning makes of it, if both are
found. -/
def pruneParts? (file : SourceFile) : Option (Definitions × Outcome) := do
  let d ← (file.definitions {}).toOption
  let outcome ← (pruneDeprecated {} file).toOption
  return (d, outcome)

lemma pruneParts?_eq_some {file : SourceFile} {d : Definitions} {outcome : Outcome}
    (h : pruneParts? file = some (d, outcome)) :
    file.definitions {} = .ok d ∧ pruneDeprecated {} file = .ok outcome := by
  simp only [pruneParts?, Option.bind_eq_bind, Option.bind_eq_some_iff, Option.pure_def,
    Option.some.injEq, Prod.mk.injEq] at h
  obtain ⟨d', hd, outcome', ho, rfl, rfl⟩ := h
  exact ⟨eq_ok_of_toOption hd, eq_ok_of_toOption ho⟩

/-- A deprecated field around a deprecated field of its type. -/
def fieldAroundField : SourceFile where
  text := "new GraphQLObjectType(\x7b\n  fields: \x7b\n    kept: \x7b type: A \x7d,\n" ++
    "    gone: \x7b\n      type: new GraphQLObjectType(\x7b\n" ++
    "        fields: \x7b inner: \x7b deprecationReason: \"b\" \x7d \x7d,\n      \x7d),\n" ++
    "      deprecationReason: \"a\",\n    \x7d,\n  \x7d,\n\x7d)\n"
  language := .typeScript

theorem pruneDeprecated_leaves_nothing_where_outer_field_is_first :
    ∃ d outcome, fieldAroundField.definitions {} = .ok d ∧ d.WellNested fieldAroundField.chars ∧
      pruneDeprecated {} fieldAroundField = .ok outcome ∧
      (d.deprecatedTargets fieldAroundField.chars).length = 2 ∧
      NothingLeft fieldAroundField.chars (d.deprecatedTargets fieldAroundField.chars)
        outcome.text.toList := by
  have hcheck : (pruneParts? fieldAroundField).any (fun p =>
      decide (p.1.WellNested fieldAroundField.chars ∧
        (p.1.deprecatedTargets fieldAroundField.chars).length = 2 ∧
        OuterFirst ((p.1.deprecatedTargets fieldAroundField.chars).map (·.span)))) = true := by
    decide +kernel
  obtain ⟨⟨d, outcome⟩, hparts, hholds⟩ := Option.any_eq_true _ _ |>.mp hcheck
  obtain ⟨hnested, htwo, hfirst⟩ := of_decide_eq_true hholds
  obtain ⟨hlocated, hok⟩ := pruneParts?_eq_some hparts
  have hiff := pruneDeprecated_leaves_nothing_iff {} hlocated hnested hok
  exact ⟨d, outcome, hlocated, hnested, hok, htwo, hiff.mpr hfirst⟩

/-- A deprecated configuration around a deprecated field of its type. -/
def configAroundField : SourceFile where
  text := "export const OldField: GraphQLFieldConfig<any, any> = \x7b\n" ++
    "  type: new GraphQLObjectType(\x7b\n    name: \"Old\",\n    fields: \x7b\n" ++
    "      gone: \x7b type: GraphQLString, deprecationReason: \"Unused\" \x7d,\n" ++
    "    \x7d,\n  \x7d),\n  deprecationReason: \"Gone\",\n\x7d\n"
  language := .typeScript

/-- A deprecated configuration is kept, reason and all, when a field inside
it is deprecated as well: fields of output maps are pruned first. -/
theorem deprecated_config_around_object_type_is_kept :
    ∃ d outcome, configAroundField.definitions {} = .ok d ∧
      d.WellNested configAroundField.chars ∧
      pruneDeprecated {} configAroundField = .ok outcome ∧
      outcome.text = "export const OldField: GraphQLFieldConfig<any, any> = \x7b\n" ++
        "  type: new GraphQLObjectType(\x7b\n    name: \"Old\",\n    fields: \x7b\n" ++
        "    \x7d,\n  \x7d),\n  deprecationReason: \"Gone\",\n\x7d\n" ∧
      ¬ NothingLeft configAroundField.chars (d.deprecatedTargets configAroundField.chars)
        outcome.text.toList := by
  have hcheck : (pruneParts? configAroundField).any (fun p =>
      decide (p.1.WellNested configAroundField.chars ∧
        p.2.text = "export const OldField: GraphQLFieldConfig<any, any> = \x7b\n" ++
          "  type: new GraphQLObjectType(\x7b\n    name: \"Old\",\n    fields: \x7b\n" ++
          "    \x7d,\n  \x7d),\n  deprecationReason: \"Gone\",\n\x7d\n" ∧
        ¬ OuterFirst ((p.1.deprecatedTargets configAroundField.chars).map (·.span)))) = true := by
    decide +kernel
  obtain ⟨⟨d, outcome⟩, hparts, hholds⟩ := Option.any_eq_true _ _ |>.mp hcheck
  obtain ⟨hnested, htext, hnot⟩ := of_decide_eq_true hholds
  obtain ⟨hlocated, hok⟩ := pruneParts?_eq_some hparts
  refine ⟨d, outcome, hlocated, hnested, hok, htext, fun hnothing => hnot ?_⟩
  rw [text_of_pruneDeprecated {} hlocated hok] at hnothing
  exact (nothingLeft_iff_outerFirst (areNested_deprecatedTargets hnested)).mp hnothing

end GraphMigrate
