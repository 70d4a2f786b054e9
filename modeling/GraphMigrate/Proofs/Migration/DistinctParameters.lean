/-
Names bound by the parameters of a resolver.

Where a resolver takes renamed arguments under one name, that name gives way to
the new names and, for the arguments that keep theirs, a rest element named after
the parameter.  The names in such a pattern differ from each other, but the other
parameters stay as they are, and what they bind is not looked at.

* `Parameter.boundNames`, `Resolver.boundNames`, `Resolver.boundNamesWith`: the
  names that parameters bind, before and after one of them is taken apart;
* `properties_of_members`: the properties of a pattern as they are found again;
* `takes_takenApart`: how the text of the pattern is read;
* `taken_apart_parameters_stay_distinct_iff`: **the names differ from each other
  exactly if no other parameter binds one of the new ones**;
* `new_name_clashes_with_other_parameter`: where one does, it is bound twice.
-/
import GraphMigrate.Proofs.Arguments.RebuiltArguments
import GraphMigrate.Proofs.Migration.ResolverRewriting
import GraphMigrate.Proofs.Script.WrittenPattern

namespace GraphMigrate

open Script.Grammar

/-! ### The names that parameters bind -/

/-- The names that an object pattern binds to the values of the same keys. -/
def ObjectParameter.boundNames (pattern : ObjectParameter) : List String :=
  (pattern.properties.filter (·.binding == .shorthand)).map (·.key)

/-- The names that a parameter binds, as far as they are told. -/
def Parameter.boundNames : Parameter → List String
  | .name text _ => [text]
  | .object pattern => pattern.boundNames
  | .other _ _ => []

namespace Resolver

/-- The names that the parameters bind. -/
def boundNames (resolver : Resolver) : List String :=
  resolver.parameters.flatMap Parameter.boundNames

/-- The names that the parameters bind when the one at a position binds others. -/
def boundNamesWith (resolver : Resolver) (position : ℕ) (names : List String) : List String :=
  ((resolver.parameters.map Parameter.boundNames).set position names).flatten

/-- The names that the parameters beside the one at a position bind. -/
def otherNames (resolver : Resolver) (position : ℕ) : List String :=
  (resolver.parameters.eraseIdx position).flatMap Parameter.boundNames

variable {resolver : Resolver} {position : ℕ}

/-- The names bound in the place of a parameter come beside those of the others. -/
lemma perm_boundNamesWith (h : position < resolver.parameters.length) (names : List String) :
    (resolver.boundNamesWith position names).Perm (names ++ resolver.otherNames position) := by
  have hperm := List.set_perm_cons_eraseIdx
    (l := resolver.parameters.map Parameter.boundNames) (by simpa using h) names
  rw [boundNamesWith, otherNames, List.flatMap_def, ← List.flatten_cons, ← List.eraseIdx_map]
  exact hperm.flatten

lemma nodup_otherNames (h : resolver.boundNames.Nodup) (position : ℕ) :
    (resolver.otherNames position).Nodup := by
  refine h.sublist ?_
  exact (List.eraseIdx_sublist resolver.parameters position).flatMap _

end Resolver

/-! ### The pattern, found again -/

lemma isVariableName_dots (name : String) : isVariableName ("..." ++ name) = false := by
  have hdot : Script.isWordStart '.' = false := by decide
  have hword : isWord ("..." ++ name) = false := by simp [isWord, hdot]
  rw [isVariableName, hword, Bool.false_and]

/-- The rest binds no key under its own name. -/
lemma properties_of_rests {rests : List String} {properties : List Script.Node}
    (source : Script.Source) (h : List.Forall₂ IsMember (rests.map ("..." ++ ·)) properties) :
    properties.filterMap (Locator.patternProperty? source) = [] ∧
      properties.any Locator.isPatternRest = !rests.isEmpty := by
  rw [List.forall₂_map_left_iff] at h
  induction h with
  | nil => exact ⟨rfl, rfl⟩
  | cons hmember _ ih =>
      rcases hmember with ⟨hname, -⟩ | ⟨name, inner, span, -, rfl⟩
      · rw [isVariableName_dots] at hname
        cases hname
      · exact ⟨ih.1, rfl⟩

/-- The members of a pattern that binds variables are found again, each under its
own name. -/
lemma properties_of_members {names rests : List String} {properties : List Script.Node}
    (source : Script.Source)
    (h : List.Forall₂ IsMember (names ++ rests.map ("..." ++ ·)) properties)
    (hnames : ∀ x ∈ names, isVariableName x = true) :
    ((properties.filterMap (Locator.patternProperty? source)).filter
        (·.binding == .shorthand)).map (·.key) = names ∧
      properties.any Locator.isPatternRest = !rests.isEmpty := by
  induction names generalizing properties with
  | nil =>
      obtain ⟨hnone, hrest⟩ := properties_of_rests source h
      exact ⟨by rw [hnone]; rfl, hrest⟩
  | cons x names ih =>
      obtain ⟨hx, hnames⟩ := List.forall_mem_cons.mp hnames
      cases h with
      | cons hmember htail =>
          obtain ⟨hkeys, hrest⟩ := ih htail hnames
          rcases hmember with ⟨-, span, rfl⟩ | ⟨name, inner, span, rfl, -⟩
          · exact ⟨congrArg (x :: ·) hkeys, hrest⟩
          · rw [isVariableName_dots] at hx
            cases hx

/-- The text of a pattern that binds variables is read as a parameter, and that one
is found again with the names of the pattern. -/
lemma takes_takenApart {context : Script.Grammar.Context} {p : Destructuring} (hsome : p.names ≠ [])
    (hnames : ∀ x ∈ p.names ++ p.rest.toList, isVariableName x = true) (depth : ℕ)
    (dec : Parse Script.Node) (style : ParameterStyle) {rest : List Char}
    (hrest : EndsParameter rest) :
    Takes context (parameter (read (depth + 2)) dec style) p.written.toList rest fun n =>
      IsPattern (patternMembers p) n ∧ ∀ source, ∃ pattern,
        Locator.parameter source n = .object pattern ∧ pattern.boundNames = p.names ∧
          pattern.hasRest = p.rest.isSome := by
  have hpattern : Takes context (read (depth + 2) .pattern) p.written.toList rest _ :=
    takes_patternMembers hsome hnames depth
  have hwritten : p.written.toList =
      ['{'] ++ (spaced ((patternMembers p).map String.toList) ++ [' ', '}']) :=
    toList_inBraces (by simp [hsome])
  rw [hwritten] at hpattern ⊢
  refine takes_parameter (begins_open _) (hpattern.mono fun n hn => ?_) hrest dec style
  obtain ⟨properties, span, rfl, hmembers⟩ := hn
  refine ⟨⟨properties, span, rfl, map_of_forall₂_some (hmembers.imp fun m n => ?_)⟩,
    fun source => ⟨_, rfl, ?_⟩⟩
  · exact IsMember.boundMember?_eq
  · obtain ⟨hkeys, hany⟩ := properties_of_members source hmembers
      fun x hx => hnames x (List.mem_append_left _ hx)
    refine ⟨hkeys, hany.trans ?_⟩
    cases p.rest <;> rfl

/-! ### All parameters -/

/-- The names of a pattern are apart from those of the other parameters exactly if
those bind none of them. -/
lemma nodup_boundNamesWith_iff {resolver : Resolver} {position : ℕ} {names : List String}
    (hposition : position < resolver.parameters.length) (hdistinct : resolver.boundNames.Nodup)
    (hnames : names.Nodup) :
    (resolver.boundNamesWith position names).Nodup ↔
      ∀ x ∈ resolver.otherNames position, x ∉ names := by
  rw [(Resolver.perm_boundNamesWith hposition names).nodup_iff, List.nodup_append',
    and_iff_right hnames, and_iff_right (Resolver.nodup_otherNames hdistinct position)]
  exact List.disjoint_comm

/-- **The names bound by the parameters differ from each other exactly if no other
parameter binds a new one.**  Let a resolver take the arguments of a map, of which
some are renamed, under one name, and let the names that its parameters bind differ.
The parameter is replaced by a pattern with the new names and, if some entry of the
map keeps its name, the rest under the name with an underscore in front.  Wherever
these can be variables, the text is read as a parameter with these names.  They and
the names that the other parameters bind all differ if and only if none of those is
one of the new names, nor, if an entry keeps its name, that of the rest. -/
theorem taken_apart_parameters_stay_distinct_iff (text : List Char) (language : Language)
    {map : FieldMap} {resolver : Resolver} {position : ℕ} {name : String} {span : Span}
    (hkeys : (map.fields.map (·.key)).Nodup) (hsome : (plan map).renames ≠ [])
    (hparam : resolver.parameters[position]? = some (.name name span))
    (hdistinct : resolver.boundNames.Nodup) :
    ∃ (p : Destructuring) (declaration : Edit),
      resolverParameterDraft text language map (plan map).renames resolver position =
        .ok (.ofEdits [.replace span p.written, declaration]) ∧
      p.names = newNames (plan map).renames ∧
      (∀ x, p.rest = some x ↔
        x = "_" ++ name ∧ ∃ entry ∈ map.entries, IsKept (plan map).renames entry) ∧
      (isVariableName name = true → (∀ x ∈ p.names, isVariableName x = true) →
        ∀ context depth dec style rest, EndsParameter rest →
          Takes context (parameter (read (depth + 2)) dec style) p.written.toList rest fun n =>
            IsPattern (patternMembers p) n ∧ ∀ source, ∃ pattern,
              Locator.parameter source n = .object pattern ∧ pattern.boundNames = p.names ∧
                pattern.hasRest = p.rest.isSome) ∧
      ((resolver.boundNamesWith position (p.names ++ p.rest.toList)).Nodup ↔
        ∀ x ∈ resolver.otherNames position, x ∉ newNames (plan map).renames ∧
          ((∃ entry ∈ map.entries, IsKept (plan map).renames entry) → x ≠ "_" ++ name)) := by
  have hrest : ∀ x, (destructuring map (plan map).renames name).rest = some x ↔
      x = "_" ++ name ∧ ∃ entry ∈ map.entries, IsKept (plan map).renames entry := by
    intro x
    rw [← length_renames_lt_size_iff hkeys]
    change restName map _ name = some x ↔ _
    rw [restName, Option.ite_none_right_eq_some, Option.some.injEq, and_comm, eq_comm]
  have hdraft : resolverParameterDraft text language map (plan map).renames resolver position =
      .ok (.ofEdits [.replace span (destructuring map (plan map).renames name).written,
        declarationEdit text resolver
          (declaration language name (reconstruction map (plan map).renames name))]) :=
    resolverParameterDraft_of_name hparam
  refine ⟨destructuring map (plan map).renames name, _, hdraft, rfl, hrest,
    fun hname hnew context depth dec style rest hends => ?_, ?_⟩
  · refine takes_takenApart (by simpa [destructuring, newNames] using hsome) ?_ depth dec style hends
    exact isVariableName_of_mem_destructuring hname fun r hr => hnew _ (List.mem_map_of_mem hr)
  · have hnames : ((destructuring map (plan map).renames name).names ++
        (destructuring map (plan map).renames name).rest.toList).Nodup := nodup_variables map name
    rw [nodup_boundNamesWith_iff (List.getElem?_eq_some_iff.mp hparam).1 hdistinct hnames]
    refine forall₂_congr fun x hx => ?_
    rw [List.mem_append, not_or, Option.mem_toList, hrest x]
    exact and_congr_right' ⟨fun h hentry heq => h ⟨heq, hentry⟩, fun h hx => h hx.2 hx.1⟩

/-- The maps of arguments that are written out, with the functions that consume
them. -/
def Definitions.argumentResolvers (d : Definitions) : List (FieldMap × Resolver) :=
  d.outputFieldConfigs.filterMap fun config => do
    return (← config.arguments.bind (·.map?), ← config.resolve.bind (·.function))

/-- A resolver that takes renamed arguments beside what it loads with. -/
def loadingArtist : SourceFile where
  text := "const f: GraphQLFieldConfig = \x7b args: \x7b artist_id: x, page: y \x7d,\n" ++
    " resolve: (_source, options, \x7b loaders \x7d) => load(options, loaders) \x7d"
  language := .typeScript

/-- Its parameters bind three names before, and four that differ behind. -/
theorem loading_parameters_stay_distinct :
    ∃ d map resolver, loadingArtist.definitions {} = .ok d ∧
      (map, resolver) ∈ d.argumentResolvers ∧
      resolver.boundNames = ["_source", "options", "loaders"] ∧
      ∃ (p : Destructuring) (declaration : Edit),
        resolverParameterDraft loadingArtist.chars .typeScript map (plan map).renames resolver 1 =
          .ok (.ofEdits [.replace ⟨85, 92⟩ p.written, declaration]) ∧
        p.written = "\x7b artistID, ..._options \x7d" ∧
        resolver.boundNamesWith 1 (p.names ++ p.rest.toList) =
          ["_source", "artistID", "_options", "loaders"] ∧
        (resolver.boundNamesWith 1 (p.names ++ p.rest.toList)).Nodup := by
  have hcheck : (loadingArtist.definitions {}).toOption.any (fun d =>
      d.argumentResolvers.any fun (map, resolver) => decide (
        (map.fields.map (·.key)).Nodup ∧ newNames (plan map).renames = ["artistID"] ∧
        (plan map).renames.length < map.size ∧
        resolver.parameters[1]? = some (.name "options" ⟨85, 92⟩) ∧
        resolver.boundNames = ["_source", "options", "loaders"] ∧
        resolver.otherNames 1 = ["_source", "loaders"] ∧
        resolver.boundNamesWith 1 ["artistID", "_options"] =
          ["_source", "artistID", "_options", "loaders"])) = true := by
    decide +kernel
  obtain ⟨d, hd, hcheck⟩ := Option.any_eq_true _ _ |>.mp hcheck
  obtain ⟨⟨map, resolver⟩, hmem, hcheck⟩ := List.any_eq_true.mp hcheck
  obtain ⟨hkeys, hnew, hkept, hparam, hbound, hothers, hwith⟩ := of_decide_eq_true hcheck
  have hsome : (plan map).renames ≠ [] := by
    intro hnil
    rw [hnil] at hnew
    cases hnew
  have hentry := (length_renames_lt_size_iff hkeys).mp hkept
  obtain ⟨p, declaration, hdraft, hnames, hrest, -, hiff⟩ :=
    taken_apart_parameters_stay_distinct_iff loadingArtist.chars .typeScript hkeys hsome hparam
      (by rw [hbound]; decide)
  have hvariables : p.names ++ p.rest.toList = ["artistID", "_options"] := by
    rw [hnames, hnew, (hrest "_options").mpr ⟨rfl, hentry⟩]
    rfl
  refine ⟨d, map, resolver, eq_ok_of_toOption hd, hmem, hbound, p, declaration, hdraft, ?_,
    by rw [hvariables, hwith], hiff.mpr fun x hx => ?_⟩
  · rw [Destructuring.written, hnames, hnew, (hrest "_options").mpr ⟨rfl, hentry⟩]
    decide
  · rw [hothers] at hx
    rw [hnew]
    rcases List.mem_cons.mp hx with rfl | hx
    · exact ⟨by decide, fun _ => by decide⟩
    · rw [List.mem_singleton.mp hx]
      exact ⟨by decide, fun _ => by decide⟩

/-- A resolver that takes renamed arguments beside what one of them is called then. -/
def loadedArtist : SourceFile where
  text := "const f: GraphQLFieldConfig = \x7b args: \x7b artist_id: x \x7d,\n" ++
    " resolve: (_source, options, \x7b artistID \x7d) => load(options, artistID) \x7d"
  language := .typeScript

/-- The new name is bound by two parameters of the text that is written for it. -/
theorem new_name_clashes_with_other_parameter :
    ∃ d d' outcome, loadedArtist.definitions {} = .ok d ∧
      d.argumentResolvers.map (·.2.boundNames) = [["_source", "options", "artistID"]] ∧
      d.argumentResolvers.map (fun c => newNames (plan c.1).renames) = [["artistID"]] ∧
      renameDefinitions {} loadedArtist = .ok outcome ∧
      outcome.text = "const f: GraphQLFieldConfig = \x7b args: \x7b artistID: x \x7d,\n" ++
        " resolve: (_source, \x7b artistID \x7d, \x7b artistID \x7d) => \x7b\n" ++
        "   const options: any = \x7b artist_id: artistID \x7d;\n\n" ++
        "   return load(options, artistID);\n \x7d \x7d" ∧
      SourceFile.definitions ⟨outcome.text, .typeScript⟩ {} = .ok d' ∧
      d'.argumentResolvers.map (·.2.boundNames) = [["_source", "artistID", "artistID"]] := by
  let rewritten := "const f: GraphQLFieldConfig = \x7b args: \x7b artistID: x \x7d,\n" ++
    " resolve: (_source, \x7b artistID \x7d, \x7b artistID \x7d) => \x7b\n" ++
    "   const options: any = \x7b artist_id: artistID \x7d;\n\n" ++
    "   return load(options, artistID);\n \x7d \x7d"
  have hcheck : (renameParts? loadedArtist).any (fun p =>
      let accepted := acceptedEdits loadedArtist.chars p.2.edits
      decide (p.1.argumentResolvers.map (·.2.boundNames) = [["_source", "options", "artistID"]] ∧
        p.1.argumentResolvers.map (fun c => newNames (plan c.1).renames) = [["artistID"]] ∧
        (accepted.Pairwise fun a b => a.precedes b = true) ∧
        String.ofList (splice 0 loadedArtist.chars accepted) = rewritten)) = true := by
    decide +kernel
  have hagain : (SourceFile.definitions ⟨rewritten, .typeScript⟩ {}).toOption.any (fun d =>
      d.argumentResolvers.map (·.2.boundNames) == [["_source", "artistID", "artistID"]]) = true := by
    decide +kernel
  obtain ⟨⟨d, draft⟩, hparts, hholds⟩ := Option.any_eq_true _ _ |>.mp hcheck
  obtain ⟨hlocated, hdraft⟩ := renameParts?_eq_some hparts
  obtain ⟨hbound, hnew, hordered, hspliced⟩ := of_decide_eq_true hholds
  obtain ⟨d', hd', hbound'⟩ := Option.any_eq_true _ _ |>.mp hagain
  have htext : (draft.finish loadedArtist.text).text = rewritten :=
    (applyEdits_text_of_pairwise hordered).trans hspliced
  exact ⟨d, d', draft.finish loadedArtist.text, hlocated, hbound, hnew,
    renameDefinitions_eq_ok hlocated hdraft, htext, htext ▸ eq_ok_of_toOption hd',
    beq_iff_eq.mp hbound'⟩

end GraphMigrate
