/-
Resolvers that are rewritten wholly or not at all.

A resolver that takes all arguments under one name is rewritten by two
edits: its parameter is taken apart, and at the start of the body the name
is declared again.  The edits have different spans, so an edit recorded
before them may keep out one and not the other, and then the body refers to
a name that nothing declares.

* `Rewriting`, `Definitions.rewritings`: the resolvers that are rewritten in
  this way, with their two edits;
* `infix_edits_renameDraft`: the two edits stand side by side in the draft;
* `Rewriting.IsNestedWith`: edits that lie inside the parameter or the site
  of the declaration, around the whole resolver, or apart from both;
* `resolver_is_rewritten_wholly_iff`: **a resolver is rewritten wholly or
  not at all exactly when an earlier edit replaces all of it, or earlier
  edits stand inside of both its parameter and its site, or of neither**;
* `definition_in_expression_body_splits_rewriting`: a field renamed inside of
  an expression body keeps out the declaration alone.
-/
import GraphMigrate.Migration.DefinitionNames
import GraphMigrate.Proofs.Control.Ensures
import GraphMigrate.Proofs.Text.Recorded

namespace GraphMigrate

/-! ### Resolvers that are rewritten -/

/-- The span that a declaration at the start of a body is written to: a
point in a block, or the whole of an expression. -/
def Resolver.declarationSite (resolver : Resolver) : Span :=
  match resolver.body with
  | .block _ (some first) => .point first.start
  | .block span none => .point (span.start + 1)
  | .expression span => span

/-- A resolver that takes the renamed arguments or inputs of a map under one
name. -/
structure Rewriting where
  map : FieldMap
  resolver : Resolver
  name : String
  /-- Where the parameter stands. -/
  span : Span

namespace Rewriting

/-- The edit that takes the parameter apart. -/
def parameter (r : Rewriting) : Edit :=
  .replace r.span (argumentPattern r.map (plan r.map).renames r.name)

/-- The edit that declares the parameter again. -/
def declaration (r : Rewriting) (text : List Char) (language : Language) : Edit :=
  declarationEdit text r.resolver (redeclaration language r.map (plan r.map).renames r.name)

/-- The resolver that consumes a map, if it is rewritten. -/
def ofConsumer? (map : FieldMap) (consumer : Option ResolverProperty) (position : ℕ) :
    Option Rewriting := do
  let resolver ← (← consumer).function
  if (plan map).renames.isEmpty then none
  else
    match resolver.parameters[position]? with
    | some (.name name span) => some ⟨map, resolver, name, span⟩
    | _ => none

/-- Edits that are nested with a resolver.  The parameter comes before the
site of the declaration, both lie in the resolver, and each edit lies around
the resolver, in one of the two, or apart from both. -/
structure IsNestedWith (text : List Char) (r : Rewriting) (edits : List Edit) : Prop where
  parameter_fits : (r.span.slice? text).isSome
  site_fits : (r.resolver.declarationSite.slice? text).isSome
  nonempty : r.span.start < r.span.stop
  parameter_before : r.span.stop ≤ r.resolver.declarationSite.start
  starts_before : r.resolver.span.start ≤ r.span.start
  stops_behind : r.resolver.declarationSite.start < r.resolver.span.stop
  nested : ∀ f ∈ edits, r.resolver.span.Within f.span ∨ f.span.Within r.span ∨
    f.span.Within r.resolver.declarationSite ∨
    f.span.Apart r.span ∧ f.span.Apart r.resolver.declarationSite

instance (text : List Char) (r : Rewriting) (edits : List Edit) :
    Decidable (r.IsNestedWith text edits) :=
  decidable_of_iff ((r.span.slice? text).isSome ∧
      (r.resolver.declarationSite.slice? text).isSome ∧ r.span.start < r.span.stop ∧
      r.span.stop ≤ r.resolver.declarationSite.start ∧
      r.resolver.span.start ≤ r.span.start ∧
      r.resolver.declarationSite.start < r.resolver.span.stop ∧
      ∀ f ∈ edits, r.resolver.span.Within f.span ∨ f.span.Within r.span ∨
        f.span.Within r.resolver.declarationSite ∨
        f.span.Apart r.span ∧ f.span.Apart r.resolver.declarationSite)
    ⟨fun ⟨h1, h2, h3, h4, h5, h6, h7⟩ => ⟨h1, h2, h3, h4, h5, h6, h7⟩,
      fun h => ⟨h.1, h.2, h.3, h.4, h.5, h.6, h.7⟩⟩

end Rewriting

/-- The resolvers that are rewritten, those that consume arguments before
those that consume inputs. -/
def Definitions.rewritings (d : Definitions) : List Rewriting :=
  (d.outputFieldConfigs.filterMap fun config => do
    Rewriting.ofConsumer? (← config.arguments.bind (·.map?)) config.resolve 1) ++
  d.mutations.filterMap fun mutation => do
    Rewriting.ofConsumer? (← mutation.inputMap.bind (d.inputMaps[·]?)) mutation.payload 0

/-! ### Where the edits are recorded -/

section Recording

variable {text : List Char} {language : Language} {map : FieldMap} {r : Rewriting}

lemma span_declaration (r : Rewriting) (text : List Char) (language : Language) :
    (r.declaration text language).span = r.resolver.declarationSite := by
  obtain ⟨map, ⟨s, parameters, body⟩, name, span⟩ := r
  cases body with
  | block s first => cases first <;> rfl
  | expression s => rfl

/-- A resolver that is rewritten consumes a map with renames, and its draft
holds the two edits and nothing else. -/
lemma consumerDraft_of_rewriting (text : List Char) (language : Language)
    {consumer : Option ResolverProperty} {position : ℕ} (opaqueNote : String)
    (h : Rewriting.ofConsumer? map consumer position = some r) :
    (plan map).renames ≠ [] ∧
      consumerDraft text language map (plan map).renames consumer position opaqueNote =
        .ok (.ofEdits [r.parameter, r.declaration text language]) := by
  simp only [Rewriting.ofConsumer?, Option.bind_eq_bind, Option.bind_eq_some_iff] at h
  obtain ⟨⟨property, _⟩, rfl, resolver, rfl, h⟩ := h
  split at h
  · cases h
  · rename_i hplan
    split at h
    · rename_i name span hparameter
      cases h
      refine ⟨by simpa using hplan, ?_⟩
      rw [consumerDraft, resolverParameterDraft, hparameter]
      rfl
    · cases h

lemma infix_edits_argumentsDraft {config : FieldConfig} {draft : Draft}
    (h : (do Rewriting.ofConsumer? (← config.arguments.bind (·.map?)) config.resolve 1) = some r)
    (hdraft : argumentsDraft text language config = .ok draft) :
    [r.parameter, r.declaration text language] <:+: draft.edits := by
  simp only [Option.bind_eq_bind, Option.bind_eq_some_iff] at h
  obtain ⟨map, hmap, hconsumer⟩ := h
  rw [← Option.bind_eq_some_iff] at hmap
  have hparts := consumerDraft_of_rewriting text language
    "Skipping renaming of args in resolver that is not defined inline" hconsumer
  simp only [argumentsDraft, hmap, List.isEmpty_iff, hparts.1, if_false, hparts.2, bind,
    Except.bind, pure, Except.pure, Except.ok.injEq] at hdraft
  subst hdraft
  exact (List.suffix_append _ _).isInfix

lemma infix_edits_mutationDraft {mutation : Mutation} {inputMaps : List FieldMap} {draft : Draft}
    (h : (do Rewriting.ofConsumer? (← mutation.inputMap.bind (inputMaps[·]?)) mutation.payload 0)
      = some r)
    (hdraft : mutationDraft text language inputMaps mutation = .ok draft) :
    [r.parameter, r.declaration text language] <:+: draft.edits := by
  simp only [Option.bind_eq_bind, Option.bind_eq_some_iff] at h
  obtain ⟨map, hmap, hconsumer⟩ := h
  rw [← Option.bind_eq_some_iff] at hmap
  have hparts := consumerDraft_of_rewriting text language
    "Skipping renaming of inputs in mutate function that is not defined inline" hconsumer
  simp only [mutationDraft, hmap, List.isEmpty_iff, hparts.1, if_false, hparts.2,
    Except.ok.injEq] at hdraft
  subst hdraft
  exact List.infix_rfl

lemma Draft.edits_infix_concat {draft : Draft} {drafts : List Draft} (h : draft ∈ drafts) :
    draft.edits <:+: (Draft.concat drafts).edits := by
  rw [Draft.concat, List.flatMap_def]
  exact List.infix_of_mem_flatten (List.mem_map_of_mem h)

/-- The drafts that a draft for all definitions is put together from: among
them are one for each field and one for each mutation. -/
lemma exists_parts_of_renameDraft {d : Definitions} {draft : Draft}
    (hdraft : renameDraft text language d = .ok draft) :
    ∃ arguments mutations,
      d.outputFieldConfigs.mapM (argumentsDraft text language) = .ok arguments ∧
      d.mutations.mapM (mutationDraft text language d.inputMaps) = .ok mutations ∧
      ∀ part ∈ arguments ++ mutations, part.edits <:+: draft.edits := by
  rw [renameDraft] at hdraft
  cases harguments : d.outputFieldConfigs.mapM (argumentsDraft text language) with
  | error e => simp [harguments, bind, Except.bind] at hdraft
  | ok arguments =>
      cases hmutations : d.mutations.mapM (mutationDraft text language d.inputMaps) with
      | error e => simp [harguments, hmutations, bind, Except.bind] at hdraft
      | ok mutations =>
          simp only [harguments, hmutations, bind, Except.bind, pure, Except.pure,
            Except.ok.injEq] at hdraft
          subst hdraft
          refine ⟨arguments, mutations, rfl, rfl, fun part hpart => Draft.edits_infix_concat ?_⟩
          rcases List.mem_append.mp hpart with hpart | hpart <;> simp [hpart]

/-- The two edits of a resolver that is rewritten are recorded side by
side. -/
lemma infix_edits_renameDraft {d : Definitions} {draft : Draft}
    (hdraft : renameDraft text language d = .ok draft) (hr : r ∈ d.rewritings) :
    [r.parameter, r.declaration text language] <:+: draft.edits := by
  obtain ⟨arguments, mutations, harguments, hmutations, hrecorded⟩ :=
    exists_parts_of_renameDraft hdraft
  rcases List.mem_append.mp hr with hr | hr
  · obtain ⟨config, hconfig, hfound⟩ := List.mem_filterMap.mp hr
    obtain ⟨part, hpart, hok⟩ := exists_mem_of_mapM harguments hconfig
    exact (infix_edits_argumentsDraft hfound hok).trans
      (hrecorded part (List.mem_append_left _ hpart))
  · obtain ⟨mutation, hmutation, hfound⟩ := List.mem_filterMap.mp hr
    obtain ⟨part, hpart, hok⟩ := exists_mem_of_mapM hmutations hmutation
    exact (infix_edits_mutationDraft hfound hok).trans
      (hrecorded part (List.mem_append_right _ hpart))

end Recording

/-! ### Both edits or none -/

namespace Rewriting.IsNestedWith

variable {text : List Char} {language : Language} {r : Rewriting}
  {edits earlier later : List Edit} {f : Edit}

lemma declaration_start_le_stop (h : r.IsNestedWith text earlier) (language : Language) :
    (r.declaration text language).span.start ≤ (r.declaration text language).span.stop := by
  rw [span_declaration]
  exact (slice?_isSome_iff.mp h.site_fits).1

/-- The two halves leave each other alone. -/
lemma parameter_endsBefore (h : r.IsNestedWith text earlier) (language : Language) :
    r.parameter.EndsBefore (r.declaration text language) := by
  rw [Edit.EndsBefore, span_declaration]
  exact h.parameter_before

/-- An edit around the whole resolver is neither half and contradicts both. -/
lemma of_around (h : r.IsNestedWith text earlier) (language : Language)
    (hf : r.resolver.span.Within f.span) :
    (f ≠ r.parameter ∧ f.conflictsWith r.parameter = true) ∧
      f ≠ r.declaration text language ∧
        f.conflictsWith (r.declaration text language) = true := by
  obtain ⟨hstart, hstop⟩ := hf
  have hforward := h.declaration_start_le_stop language
  have hbefore := h.parameter_endsBefore language
  have hstops := h.stops_behind
  have hstarts := h.starts_before
  have hnonempty := h.nonempty
  rw [← span_declaration r text language] at hstops
  have hparameter : r.parameter.span = r.span := rfl
  rw [Edit.EndsBefore, hparameter] at hbefore
  have hwithin : r.span.Within f.span := ⟨by omega, by omega⟩
  refine ⟨⟨fun heq => ?_, conflictsWith_of_within hnonempty hwithin (.refl _)⟩,
    fun heq => ?_, conflictsWith_of_start_lt hforward (by omega) (by omega)⟩
  · rw [heq, hparameter] at hstop
    omega
  · rw [heq] at hstart
    omega

/-- An accepted edit that is not around the resolver contradicts a half
exactly when it lies in it. -/
lemma conflictsWith_iff (h : r.IsNestedWith text earlier) (language : Language)
    (hf : f ∈ acceptedEdits text earlier) (haround : ¬ r.resolver.span.Within f.span) :
    (f.conflictsWith r.parameter = true ↔ f.LiesIn r.span) ∧
      (f.conflictsWith (r.declaration text language) = true ↔
        f.LiesIn r.resolver.declarationSite) := by
  have hforward := start_le_stop_of_mem_acceptedEdits hf
  have hbefore := h.parameter_before
  have hsite := span_declaration r text language
  have hplace := (h.nested f (mem_of_mem_acceptedEdits hf)).resolve_left haround
  constructor
  · refine conflictsWith_iff_liesIn (e := r.parameter) hforward h.nonempty.le ?_
    rcases hplace with hin | hin | ⟨hapart, -⟩
    · exact Or.inl hin
    · exact Or.inr (Or.inr (hbefore.trans hin.1))
    · exact Or.inr hapart
  · rw [← hsite]
    refine conflictsWith_iff_liesIn hforward (h.declaration_start_le_stop language) ?_
    rw [hsite]
    rcases hplace with hin | hin | ⟨-, hapart⟩
    · exact Or.inr (Or.inl (hin.2.trans hbefore))
    · exact Or.inl hin
    · exact Or.inr hapart

/-- The parameter is taken apart unless an accepted edit around the resolver
or another one inside the parameter came first. -/
lemma parameter_mem_iff (h : r.IsNestedWith text earlier)
    (hplace : edits = earlier ++ r.parameter :: r.declaration text language :: later) :
    r.parameter ∈ appliedEdits text edits ↔
      ¬ ((∃ f ∈ acceptedEdits text earlier, r.resolver.span.Within f.span) ∨
        ∃ f ∈ acceptedEdits text earlier, f ≠ r.parameter ∧ f.LiesIn r.span) := by
  have hfits : (r.parameter.span.slice? text).isSome := h.parameter_fits
  rw [mem_appliedEdits_iff_of_eq hplace, Edit.InBounds, ← slice?_isSome_iff,
    and_iff_right hfits]
  exact forall_leave_alone_iff (fun f hf => (h.of_around language hf).1)
    fun f hf ha => (h.conflictsWith_iff language hf ha).1

/-- The parameter is declared again unless an accepted edit around the
resolver or another one inside the site of the declaration came first. -/
lemma declaration_mem_iff (h : r.IsNestedWith text earlier)
    (hplace : edits = earlier ++ r.parameter :: r.declaration text language :: later) :
    r.declaration text language ∈ appliedEdits text edits ↔
      ¬ ((∃ f ∈ acceptedEdits text earlier, r.resolver.span.Within f.span) ∨
        ∃ f ∈ acceptedEdits text earlier, f ≠ r.declaration text language ∧
          f.LiesIn r.resolver.declarationSite) := by
  have hplace' : edits = (earlier ++ [r.parameter]) ++ r.declaration text language :: later := by
    rw [hplace, List.append_assoc, List.singleton_append]
  have hfits : ((r.declaration text language).span.slice? text).isSome := by
    rw [span_declaration]
    exact h.site_fits
  -- the other half is no edit that could stand in the way
  have hother := (h.parameter_endsBefore language).conflictsWith_eq_false
    (show r.parameter.span.start ≤ r.parameter.span.stop from h.nonempty.le)
  have hdrop : (∀ f ∈ acceptedEdits text (earlier ++ [r.parameter]),
      f = r.declaration text language ∨ f.conflictsWith (r.declaration text language) = false) ↔
      ∀ f ∈ acceptedEdits text earlier,
        f = r.declaration text language ∨ f.conflictsWith (r.declaration text language) = false :=
    ⟨fun hall f hf => hall f (acceptedEdits_subset _ _ hf), fun hall f hf =>
      (mem_acceptedEdits_concat hf).elim (hall f) fun heq => Or.inr (heq ▸ hother)⟩
  rw [mem_appliedEdits_iff_of_eq hplace', Edit.InBounds, ← slice?_isSome_iff,
    and_iff_right hfits, hdrop]
  exact forall_leave_alone_iff (fun f hf => (h.of_around language hf).2)
    fun f hf ha => (h.conflictsWith_iff language hf ha).2

end Rewriting.IsNestedWith

/-- Where definitions are found and a draft is made for them, it is carried out. -/
lemma renameDefinitions_eq_ok {context : Context} {file : SourceFile} {d : Definitions}
    {draft : Draft} (hlocated : file.definitions context.vocabulary = .ok d)
    (hdraft : renameDraft file.chars file.language d = .ok draft) :
    renameDefinitions context file = .ok (draft.finish file.text) := by
  simp only [renameDefinitions, hlocated, hdraft, bind, Except.bind, pure, Except.pure]

/-- **When a resolver is rewritten wholly or not at all.**  The two edits of
a resolver that is rewritten stand side by side in the draft.  Where the
edits recorded before them are nested with the resolver, both take effect or
neither does exactly when an accepted one replaces the whole resolver, or
accepted ones, other than the two themselves, lie in the parameter and in
the site of the declaration, or in neither.  The site in a block is a point,
in which no edit lies. -/
theorem resolver_is_rewritten_wholly_iff (context : Context) {file : SourceFile}
    {d : Definitions} {draft : Draft} (hlocated : file.definitions context.vocabulary = .ok d)
    (hdraft : renameDraft file.chars file.language d = .ok draft) {r : Rewriting}
    (hr : r ∈ d.rewritings) :
    renameDefinitions context file = .ok (draft.finish file.text) ∧
    [r.parameter, r.declaration file.chars file.language] <:+: draft.edits ∧
    ∀ earlier later, draft.edits =
        earlier ++ r.parameter :: r.declaration file.chars file.language :: later →
      r.IsNestedWith file.chars earlier →
      ((r.parameter.TakesEffect file.chars draft.edits (draft.finish file.text).text.toList ↔
          (r.declaration file.chars file.language).TakesEffect file.chars draft.edits
            (draft.finish file.text).text.toList) ↔
        (∃ f ∈ acceptedEdits file.chars earlier, r.resolver.span.Within f.span) ∨
          ((∃ f ∈ acceptedEdits file.chars earlier, f ≠ r.parameter ∧ f.LiesIn r.span) ↔
            ∃ f ∈ acceptedEdits file.chars earlier,
              f ≠ r.declaration file.chars file.language ∧
                f.LiesIn r.resolver.declarationSite)) := by
  refine ⟨?_, infix_edits_renameDraft hdraft hr, fun earlier later hplace hnested => ?_⟩
  · exact renameDefinitions_eq_ok hlocated hdraft
  · have htakes : ∀ e : Edit, e.TakesEffect file.chars draft.edits
        (draft.finish file.text).text.toList ↔ e ∈ appliedEdits file.chars draft.edits :=
      fun _ => takesEffect_iff_mem
    rw [htakes, htakes, hnested.parameter_mem_iff hplace, hnested.declaration_mem_iff hplace,
      not_iff_not]
    by_cases haround : ∃ f ∈ acceptedEdits file.chars earlier, r.resolver.span.Within f.span
    · simp only [haround, true_or]
    · simp only [haround, false_or]

/-- The script of definitions, and how it was searched. -/
lemma exists_parse_of_definitions {file : SourceFile} {vocabulary : Vocabulary} {d : Definitions}
    (h : file.definitions vocabulary = .ok d) :
    ∃ source, file.parse = .ok source ∧ locate vocabulary source = .ok d := by
  obtain ⟨source, hparse, h⟩ := exists_ok_of_bind h
  refine ⟨source, hparse, ?_⟩
  cases hlocate : locate vocabulary source with
  | error e =>
      rw [hlocate] at h
      cases h
  | ok found =>
      rw [hlocate] at h
      cases h
      rfl

/-- The definitions of a script and the draft that renames them, if both are
found. -/
def renameParts? (file : SourceFile) : Option (Definitions × Draft) := do
  let d ← (file.definitions {}).toOption
  let draft ← (renameDraft file.chars file.language d).toOption
  return (d, draft)

lemma renameParts?_eq_some {file : SourceFile} {d : Definitions} {draft : Draft}
    (h : renameParts? file = some (d, draft)) :
    file.definitions {} = .ok d ∧ renameDraft file.chars file.language d = .ok draft := by
  simp only [renameParts?, Option.bind_eq_bind, Option.bind_eq_some_iff, Option.pure_def,
    Option.some.injEq, Prod.mk.injEq] at h
  obtain ⟨d', hd, draft', hdraft, rfl, rfl⟩ := h
  exact ⟨eq_ok_of_toOption hd, eq_ok_of_toOption hdraft⟩

/-- The edits of a draft before those of a resolver. -/
def Rewriting.recordedBefore (r : Rewriting) (draft : Draft) : List Edit :=
  draft.edits.takeWhile (· != r.parameter)

/-- A field whose resolver defines a type with a renamed field, in a block. -/
def definitionInBlock : SourceFile where
  text := "const f: GraphQLFieldConfig = \x7b args: \x7b a_b: x \x7d,\n" ++
    " resolve: (s, o) => \x7b return new GraphQLObjectType(\x7b fields: \x7b c_d: y \x7d \x7d) \x7d \x7d"
  language := .typeScript

theorem resolver_is_rewritten_wholly_around_block :
    ∃ d draft, definitionInBlock.definitions {} = .ok d ∧
      renameDraft definitionInBlock.chars definitionInBlock.language d = .ok draft ∧
      ∃ r ∈ d.rewritings, ∃ earlier later,
        draft.edits = earlier ++ r.parameter ::
          r.declaration definitionInBlock.chars definitionInBlock.language :: later ∧
        r.IsNestedWith definitionInBlock.chars earlier ∧
        (acceptedEdits definitionInBlock.chars earlier).length = 2 ∧
        r.parameter.TakesEffect definitionInBlock.chars draft.edits
          (draft.finish definitionInBlock.text).text.toList ∧
        (r.declaration definitionInBlock.chars definitionInBlock.language).TakesEffect
          definitionInBlock.chars draft.edits
          (draft.finish definitionInBlock.text).text.toList := by
  have hcheck : (renameParts? definitionInBlock).any (fun p =>
      decide (∃ r ∈ p.1.rewritings,
        let before := r.recordedBefore p.2
        p.2.edits = before ++ r.parameter ::
            r.declaration definitionInBlock.chars definitionInBlock.language ::
              p.2.edits.drop (before.length + 2) ∧
          r.IsNestedWith definitionInBlock.chars before ∧
          (acceptedEdits definitionInBlock.chars before).length = 2 ∧
          r.parameter ∈ acceptedEdits definitionInBlock.chars p.2.edits ∧
          ∀ f ∈ acceptedEdits definitionInBlock.chars before,
            ¬ f.LiesIn r.span ∧ ¬ f.LiesIn r.resolver.declarationSite)) = true := by
    decide +kernel
  obtain ⟨⟨d, draft⟩, hparts, hholds⟩ := Option.any_eq_true _ _ |>.mp hcheck
  obtain ⟨r, hr, hplace, hnested, htwo, happlied, hnone⟩ := of_decide_eq_true hholds
  obtain ⟨hlocated, hdraft⟩ := renameParts?_eq_some hparts
  have hiff := (resolver_is_rewritten_wholly_iff {} hlocated hdraft hr).2.2 _ _ hplace hnested
  have hboth := hiff.mpr (Or.inr (iff_of_false
    (fun ⟨f, hf, _, hin⟩ => (hnone f hf).1 hin) fun ⟨f, hf, _, hin⟩ => (hnone f hf).2 hin))
  have hfirst := takesEffect_iff_mem.mpr (mem_appliedEdits_iff_mem_acceptedEdits.mpr happlied)
  exact ⟨d, draft, hlocated, hdraft, r, hr, _, _, hplace, hnested, htwo, hfirst, hboth.mp hfirst⟩

/-- The same field with an expression for its body. -/
def definitionInExpression : SourceFile where
  text := "const f: GraphQLFieldConfig = \x7b args: \x7b a_b: x \x7d,\n" ++
    " resolve: (s, o) => g(o, new GraphQLObjectType(\x7b fields: \x7b c_d: y \x7d \x7d)) \x7d"
  language := .typeScript

/-- A field that is renamed inside of an expression body keeps out the
declaration but not the pattern, and the body is left with a name that
nothing declares. -/
theorem definition_in_expression_body_splits_rewriting :
    ∃ d draft, definitionInExpression.definitions {} = .ok d ∧
      renameDraft definitionInExpression.chars definitionInExpression.language d = .ok draft ∧
      ∃ r ∈ d.rewritings, r.IsNestedWith definitionInExpression.chars (r.recordedBefore draft) ∧
        r.parameter.TakesEffect definitionInExpression.chars draft.edits
          (draft.finish definitionInExpression.text).text.toList ∧
        ¬ (r.declaration definitionInExpression.chars definitionInExpression.language).TakesEffect
          definitionInExpression.chars draft.edits
          (draft.finish definitionInExpression.text).text.toList := by
  have hcheck : (renameParts? definitionInExpression).any (fun p =>
      decide (∃ r ∈ p.1.rewritings,
          r.IsNestedWith definitionInExpression.chars (r.recordedBefore p.2) ∧
          r.parameter ∈ acceptedEdits definitionInExpression.chars p.2.edits ∧
          r.declaration definitionInExpression.chars definitionInExpression.language ∉
            acceptedEdits definitionInExpression.chars p.2.edits)) = true := by
    decide +kernel
  obtain ⟨⟨d, draft⟩, hparts, hholds⟩ := Option.any_eq_true _ _ |>.mp hcheck
  obtain ⟨r, hr, hnested, hin, hout⟩ := of_decide_eq_true hholds
  obtain ⟨hlocated, hdraft⟩ := renameParts?_eq_some hparts
  refine ⟨d, draft, hlocated, hdraft, r, hr, hnested, takesEffect_iff_mem.mpr ?_, fun h => ?_⟩
  · exact mem_appliedEdits_iff_mem_acceptedEdits.mpr hin
  · exact hout (mem_appliedEdits_iff_mem_acceptedEdits.mp (takesEffect_iff_mem.mp h))

end GraphMigrate
