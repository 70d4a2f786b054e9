/-
Resolvers that take their arguments under one name.

Such a parameter is taken apart by a pattern of the new names, and the
body starts with an object put together under the old names.  For the body
nothing has changed if that object reads like the one which the resolver
was given before.

* `destructuring`, `reconstruction`: what is written for the parameter and
  for the object;
* `bind?_destructuring`: the variables that the pattern binds;
* `eval?_reconstruction`, `get_rebuilt`: the object, and what it reads as;
* `rebuiltFor?`: both together, as the body of the resolver sees it;
* `rebuilt_reads_like_original_iff`: **the object reads like the original
  exactly when** the parameter does not itself have one of the new names,
  the names can be written as keys and variables, and either some entry of
  the map keeps its name or the original has no key besides the renamed
  ones;
* `decorated_argument_is_lost`: a key that comes from outside of the map
  is not there any more.
-/
import GraphMigrate.Proofs.Arguments.RuntimeObject

namespace GraphMigrate

variable {V : Type}

/-! ### What is written -/

/-- The variable for the arguments that keep their names, if there is a
rest element for them. -/
def restName (map : FieldMap) (renames : List Rename) (name : String) : Option String :=
  if renames.length < map.size then some ("_" ++ name) else none

/-- The pattern that takes renamed arguments apart. -/
def destructuring (map : FieldMap) (renames : List Rename) (name : String) : Destructuring :=
  ⟨newNames renames, restName map renames name⟩

/-- The object that has renamed arguments under their old names. -/
def reconstruction (map : FieldMap) (renames : List Rename) (name : String) : Reconstruction :=
  ⟨renames.map fun r => (r.field.key, r.newName), restName map renames name⟩

lemma restMembers_eq (map : FieldMap) (renames : List Rename) (name : String) :
    restMembers map renames ("_" ++ name) =
      (restName map renames name).toList.map ("..." ++ ·) := by
  rw [restMembers, restName]
  split <;> rfl

lemma argumentPattern_eq (map : FieldMap) (renames : List Rename) (name : String) :
    argumentPattern map renames name = (destructuring map renames name).written := by
  rw [argumentPattern, restMembers_eq]
  rfl

lemma rebuiltArguments_eq (map : FieldMap) (renames : List Rename) (name : String) :
    rebuiltArguments map renames name = (reconstruction map renames name).written := by
  rw [rebuiltArguments, restMembers_eq, Reconstruction.written, reconstruction, List.map_map]
  rfl

/-- The statement that declares the parameter under its old name. -/
def declaration (language : Language) (name : String) (l : Reconstruction) : String :=
  "const " ++ name ++ (if language.hasTypes then ": any" else "") ++ " = " ++ l.written ++ ";"

/-- A parameter with a single name is replaced by the pattern, and the body
starts with the declaration of the object. -/
lemma resolverParameterDraft_of_name {text : List Char} {language : Language} {map : FieldMap}
    {renames : List Rename} {resolver : Resolver} {position : ℕ} {name : String} {span : Span}
    (hparam : resolver.parameters[position]? = some (.name name span)) :
    resolverParameterDraft text language map renames resolver position =
      .ok (.ofEdits [.replace span (destructuring map renames name).written,
        declarationEdit text resolver
          (declaration language name (reconstruction map renames name))]) := by
  rw [resolverParameterDraft, hparam]
  simp only [parameterEdits, redeclaration, argumentPattern_eq, rebuiltArguments_eq, declaration]

/-! ### What it does -/

section Evaluation

variable {map : FieldMap} {name : String} {o : RuntimeObject V}

/-- The rest has a name with an underscore, so it is none of the others. -/
lemma nodup_variables (map : FieldMap) (name : String) :
    (newNames (plan map).renames ++ (restName map (plan map).renames name).toList).Nodup := by
  rw [restName]
  split
  · refine List.nodup_append.mpr ⟨nodup_newNames map, by simp, ?_⟩
    intro a ha b hb heq
    rw [Option.toList_some, List.mem_singleton] at hb
    subst heq hb
    exact underscore_notMem_newName ha (by simp)
  · simpa using nodup_newNames map

/-- What the variables of the pattern hold. -/
def argumentScope (map : FieldMap) (name : String) (o : RuntimeObject V) : Scope V :=
  ⟨fun x =>
    if x ∈ newNames (plan map).renames then
      some (.value ((o.renamed (plan map).renames).get x))
    else if restName map (plan map).renames name = some x then
      some (.object ((o.renamed (plan map).renames).without (newNames (plan map).renames)))
    else none⟩

/-- Renames that can be written down: the old names as keys and the new
ones as variables. -/
def IsWritable (renames : List Rename) : Prop :=
  ∀ r ∈ renames, isWord r.field.key = true ∧ isVariableName r.newName = true

instance (renames : List Rename) : Decidable (IsWritable renames) :=
  inferInstanceAs (Decidable (∀ r ∈ renames, _))

/-- The pattern names variables only if the new names can be variables. -/
lemma isVariableName_of_mem_destructuring {renames : List Rename}
    (hname : isVariableName name = true)
    (hnew : ∀ r ∈ renames, isVariableName r.newName = true) :
    ∀ x ∈ newNames renames ++ (restName map renames name).toList, isVariableName x = true := by
  intro x hx
  rcases List.mem_append.mp hx with hx | hx
  · obtain ⟨r, hr, rfl⟩ := List.mem_map.mp hx
    exact hnew r hr
  · rw [restName] at hx
    split at hx
    · rw [Option.toList_some, List.mem_singleton] at hx
      exact hx ▸ isVariableName_underscore hname
    · cases hx

/-- The pattern binds its variables to renamed arguments if their new names
can be variables. -/
lemma bind?_destructuring (hname : isVariableName name = true) (o : RuntimeObject V) :
    (destructuring map (plan map).renames name).bind? (o.renamed (plan map).renames) =
      if ∀ r ∈ (plan map).renames, isVariableName r.newName = true then
        some (argumentScope map name o)
      else none := by
  rw [Destructuring.bind?]
  refine if_congr ?_ rfl rfl
  constructor
  · rintro ⟨-, hall⟩ r hr
    exact hall r.newName (List.mem_append_left _ (List.mem_map.mpr ⟨r, hr, rfl⟩))
  · exact fun hall => ⟨nodup_variables map name, isVariableName_of_mem_destructuring hname hall⟩

lemma scope_newName (hname : name ∉ newNames (plan map).renames) :
    ∀ r ∈ (plan map).renames, ((argumentScope map name o).declaring name).read? r.newName =
      some (.value (o.get r.field.key)) := by
  intro r hr
  have hmem : r.newName ∈ newNames (plan map).renames := List.mem_map.mpr ⟨r, hr, rfl⟩
  have hne : r.newName ≠ name := fun heq => hname (heq ▸ hmem)
  simp only [Scope.declaring, argumentScope, if_neg hne, if_pos hmem, RuntimeObject.get,
    RuntimeObject.lookup?_renamed_newName (nodup_newNames map) hr]

lemma scope_restName (map : FieldMap) (name : String) (o : RuntimeObject V)
    (hrest : restName map (plan map).renames name = some ("_" ++ name)) :
    ((argumentScope map name o).declaring name).read? ("_" ++ name) =
      some (.object ((o.renamed (plan map).renames).without (newNames (plan map).renames))) := by
  have hne : "_" ++ name ≠ name := by
    intro heq
    have := congrArg String.length heq
    simp at this
  have hnot : "_" ++ name ∉ newNames (plan map).renames := fun h =>
    underscore_notMem_newName h (by simp)
  simp only [Scope.declaring, argumentScope, if_neg hne, if_neg hnot, if_pos hrest]

/-- The object put together from renamed arguments. -/
def rebuilt (map : FieldMap) (o : RuntimeObject V) : RuntimeObject V :=
  let named : RuntimeObject V :=
    ⟨fun k => if k ∈ oldNames (plan map).renames then some (o.get k) else none⟩
  if (plan map).renames.length < map.size then
    named.spread ((o.renamed (plan map).renames).without (newNames (plan map).renames))
  else named

lemma eval?_reconstruction (hname : name ∉ newNames (plan map).renames)
    (hwords : ∀ r ∈ (plan map).renames, isWord r.field.key = true) :
    (reconstruction map (plan map).renames name).eval? ((argumentScope map name o).declaring name)
      = some (rebuilt map o) := by
  rw [Reconstruction.eval?, reconstruction,
    Reconstruction.foldlM_addMember hwords (scope_newName hname), Option.bind_eq_bind,
    Option.bind_some, rebuilt]
  by_cases hlt : (plan map).renames.length < map.size
  · have hrest : restName map (plan map).renames name = some ("_" ++ name) := if_pos hlt
    simp only [hrest, scope_restName map name o hrest, if_pos hlt, RuntimeObject.lookup?_empty]
  · have hrest : restName map (plan map).renames name = none := if_neg hlt
    simp only [hrest, if_neg hlt, RuntimeObject.lookup?_empty]

/-- Nothing can be put together under an old name that is no word, or when
the parameter has one of the new names: its declaration hides the variable
that is needed. -/
lemma eval?_reconstruction_eq_none (s : Scope V)
    (h : ∃ r ∈ (plan map).renames, isWord r.field.key = false ∨ r.newName = name) :
    (reconstruction map (plan map).renames name).eval? (s.declaring name) = none := by
  obtain ⟨r, hr, hbad⟩ := h
  have hmem : (r.field.key, r.newName) ∈
      (plan map).renames.map fun r => (r.field.key, r.newName) :=
    List.mem_map.mpr ⟨r, hr, rfl⟩
  have hadd : ∀ acc, Reconstruction.addMember (s.declaring name) acc (r.field.key, r.newName) =
      none := by
    intro acc
    rw [Reconstruction.addMember]
    rcases hbad with hword | heq
    · simp [hword]
    · simp [Scope.declaring, heq]
  rw [Reconstruction.eval?, reconstruction,
    Reconstruction.foldlM_addMember_eq_none hmem hadd RuntimeObject.empty]
  rfl

/-- What the object reads as: what the original does, but without a rest
element only under the renamed keys. -/
lemma get_rebuilt (ho : ∀ new ∈ newNames (plan map).renames, o.lookup? new = none) (key : String) :
    (rebuilt map o).get key =
      if (plan map).renames.length < map.size ∨ key ∈ oldNames (plan map).renames then o.get key
      else none := by
  rw [RuntimeObject.get, rebuilt]
  by_cases hlt : (plan map).renames.length < map.size
  · simp only [hlt, true_or, if_true, RuntimeObject.lookup?_spread,
      RuntimeObject.lookup?_without]
    by_cases hnew : key ∈ newNames (plan map).renames
    · have hold := notMem_oldNames_of_mem_newNames hnew
      rw [if_pos hnew, if_neg hold, RuntimeObject.get, ho key hnew]
      rfl
    · rw [if_neg hnew, RuntimeObject.lookup?_renamed_of_notMem hnew]
      by_cases hold : key ∈ oldNames (plan map).renames
      · rw [if_pos hold, if_pos hold, Option.none_or, Option.join_some]
      · rw [if_neg hold, if_neg hold, Option.or_none, RuntimeObject.get]
  · simp only [hlt, false_or, if_false]
    by_cases hold : key ∈ oldNames (plan map).renames
    · rw [if_pos hold, if_pos hold, Option.join_some]
    · rw [if_neg hold, if_neg hold, Option.join_none]

end Evaluation

/-- The object that the body of a resolver works with, when the resolver is
called with an object whose keys are renamed as planned. -/
def rebuiltFor? (map : FieldMap) (name : String) (o : RuntimeObject V) :
    Option (RuntimeObject V) := do
  let renames := (plan map).renames
  let scope ← (destructuring map renames name).bind? (o.renamed renames)
  (reconstruction map renames name).eval? (scope.declaring name)

lemma rebuiltFor?_eq {map : FieldMap} {name : String} (hname : isVariableName name = true)
    (o : RuntimeObject V) :
    rebuiltFor? map name o =
      if name ∉ newNames (plan map).renames ∧ IsWritable (plan map).renames then
        some (rebuilt map o)
      else none := by
  simp only [rebuiltFor?, bind?_destructuring hname]
  by_cases hvars : ∀ r ∈ (plan map).renames, isVariableName r.newName = true
  · rw [if_pos hvars, Option.bind_eq_bind, Option.bind_some]
    by_cases hgood : name ∉ newNames (plan map).renames ∧ IsWritable (plan map).renames
    · rw [if_pos hgood]
      exact eval?_reconstruction hgood.1 fun r hr => (hgood.2 r hr).1
    · rw [if_neg hgood]
      refine eval?_reconstruction_eq_none _ ?_
      by_contra hnone
      push Not at hnone
      refine hgood ⟨fun hmem => ?_, fun r hr => ⟨by simpa using (hnone r hr).1, hvars r hr⟩⟩
      obtain ⟨r, hr, heq⟩ := List.mem_map.mp hmem
      exact (hnone r hr).2 heq
  · have hbad : ¬ (name ∉ newNames (plan map).renames ∧ IsWritable (plan map).renames) :=
      fun hgood => hvars fun r hr => (hgood.2 r hr).2
    rw [if_neg hvars, if_neg hbad, Option.bind_eq_bind, Option.bind_none]

/-- **When a resolver goes on to see its arguments as they were.**  Let the
keys of a map differ from each other, and let a resolver take the
arguments under one name.  Its parameter becomes a pattern, and its body
starts with the declaration of an object.  Called with an object that has
none of the new names, after its keys were renamed as planned, the
declared object has a value and reads like the original under every key
exactly when the parameter has none of the new names for its own, the names
can be written down, and either an entry of the map keeps its name or the
original has no key that is not renamed. -/
theorem rebuilt_reads_like_original_iff (text : List Char) (language : Language)
    {map : FieldMap} {resolver : Resolver} {position : ℕ} {name : String} {span : Span}
    {o : RuntimeObject V} (hkeys : (map.fields.map (·.key)).Nodup)
    (hparam : resolver.parameters[position]? = some (.name name span))
    (hname : isVariableName name = true)
    (ho : ∀ new ∈ newNames (plan map).renames, o.lookup? new = none) :
    resolverParameterDraft text language map (plan map).renames resolver position =
      .ok (.ofEdits [.replace span (destructuring map (plan map).renames name).written,
        declarationEdit text resolver
          (declaration language name (reconstruction map (plan map).renames name))]) ∧
    ((∃ object, rebuiltFor? map name o = some object ∧ ∀ key, object.get key = o.get key) ↔
      name ∉ newNames (plan map).renames ∧ IsWritable (plan map).renames ∧
        ((∃ entry ∈ map.entries, IsKept (plan map).renames entry) ∨
          ∀ key, o.get key ≠ none → key ∈ oldNames (plan map).renames)) := by
  refine ⟨resolverParameterDraft_of_name hparam, ?_⟩
  rw [← length_renames_lt_size_iff hkeys, rebuiltFor?_eq hname, ← and_assoc]
  by_cases hgood : name ∉ newNames (plan map).renames ∧ IsWritable (plan map).renames
  · rw [if_pos hgood, and_iff_right hgood]
    simp only [Option.some.injEq, exists_eq_left', get_rebuilt ho]
    constructor
    · intro h
      by_cases hlt : (plan map).renames.length < map.size
      · exact Or.inl hlt
      · refine Or.inr fun key hkey => ?_
        by_contra hold
        have hread := h key
        rw [if_neg (not_or.mpr ⟨hlt, hold⟩)] at hread
        exact hkey hread.symm
    · rintro (hlt | hcovered) key
      · rw [if_pos (Or.inl hlt)]
      · by_cases hold : key ∈ oldNames (plan map).renames
        · rw [if_pos (Or.inr hold)]
        · have hnone : o.get key = none := by
            by_contra hne
            exact hold (hcovered key hne)
          simp [hnone]
  · simp [hgood]

/-- Arguments of which the second keeps its name. -/
def artworkArguments : FieldMap :=
  .mk .arguments ⟨0, 40⟩
    [.field "artwork_id" ⟨2, 12⟩ false ⟨2, 25⟩ (.reference "ArtworkID" ⟨14, 23⟩),
      .field "other" ⟨27, 32⟩ false ⟨27, 38⟩ (.reference "Text" ⟨34, 38⟩)]

/-- A resolver that takes its arguments under one name. -/
def optionsResolver : Resolver :=
  ⟨⟨50, 90⟩, [.name "source" ⟨51, 57⟩, .name "options" ⟨59, 66⟩], .expression ⟨71, 90⟩⟩

/-- The arguments of a call, with a key that is in no map. -/
def pagedCall : RuntimeObject ℕ :=
  ((RuntimeObject.empty.set "artwork_id" (some 7)).set "other" none).set "first" (some 10)

theorem rebuilt_reads_like_original_where_one_is_kept :
    (artworkArguments.fields.map (·.key)).Nodup ∧
    optionsResolver.parameters[1]? = some (.name "options" ⟨59, 66⟩) ∧
    isVariableName "options" = true ∧
    (∀ new ∈ newNames (plan artworkArguments).renames, pagedCall.lookup? new = none) ∧
    ∃ object, rebuiltFor? artworkArguments "options" pagedCall = some object ∧
      ∀ key, object.get key = pagedCall.get key := by
  have hkeys : (artworkArguments.fields.map (·.key)).Nodup := by decide
  have hparam : optionsResolver.parameters[1]? = some (.name "options" ⟨59, 66⟩) := rfl
  have hnew : ∀ new ∈ newNames (plan artworkArguments).renames, pagedCall.lookup? new = none := by
    decide
  have hkept : ∃ entry ∈ artworkArguments.entries, IsKept (plan artworkArguments).renames entry :=
    ⟨_, List.mem_cons_of_mem _ List.mem_cons_self, fun field hfield => by
      cases hfield
      decide⟩
  have hname : isVariableName "options" = true := by decide
  have hiff := (rebuilt_reads_like_original_iff [] .typeScript hkeys hparam hname hnew).2
  exact ⟨hkeys, hparam, hname, hnew, hiff.mpr ⟨by decide, by decide, Or.inl hkept⟩⟩

/-- A field whose only argument is renamed, under a decorator that adds
arguments of its own. -/
def pagedField : SourceFile where
  text := "export const Field: GraphQLFieldConfig<any, any> = \x7b\n" ++
    "  args: pageable(\x7b size_x: \x7b type: GraphQLInt \x7d \x7d),\n" ++
    "  resolve: (_source, options) => load(options.size_x, options.first),\n\x7d\n"
  language := .typeScript

/-- The argument maps of the fields of a script. -/
def argumentMapsOf (file : SourceFile) : List FieldMap :=
  match file.definitions {} with
  | .ok definitions => definitions.outputFieldConfigs.filterMap (·.arguments.bind (·.map?))
  | .error _ => []

/-- The arguments of a call of the field. -/
def sizedCall : RuntimeObject ℕ :=
  (RuntimeObject.empty.set "size_x" (some 3)).set "first" (some 10)

/-- An argument that the decorator adds is lost to the resolver: all
entries of the map are renamed, so there is no rest element. -/
theorem decorated_argument_is_lost :
    ∃ map ∈ argumentMapsOf pagedField, (map.fields.map (·.key)).Nodup ∧
      newNames (plan map).renames = ["sizeX"] ∧ sizedCall.lookup? "sizeX" = none ∧
      argumentPattern map (plan map).renames "options" = "\x7b sizeX \x7d" ∧
      rebuiltArguments map (plan map).renames "options" = "\x7b size_x: sizeX \x7d" ∧
      (rebuiltFor? map "options" sizedCall).map (·.get "first") = some none ∧
      sizedCall.get "first" = some 10 := by
  decide +kernel

end GraphMigrate
