/-
Names of connections that take over from lists.

A paginated list is removed for the sake of the connection beside it, and
the connections of a map are renamed in the order of its fields, removed
ones included: each takes the name of its list unless that name is a key that
stays, or was taken by an earlier connection.

* `connectionRenames_cons`: what the renaming does at a field;
* `find?_freeRenames`: a free name goes to the first connection of it;
* `unifiedKey`, `unifiedFields`: the fields of a map afterwards;
* `unified_keys_stay_distinct`: **keys stay distinct, and a connection keeps
  its name only with a warning**;
* `takesEffect_paginationDraft`: **lists are removed and connections that stay
  are renamed**, where the fields stand one behind the other;
* `replaced_name_is_kept_iff`: **the name of a removed list is kept exactly
  if the first connection of it is not removed as well**;
* `removed_connection_takes_name_along`: a map in which it is.
-/
import GraphMigrate.Proofs.Migration.ConnectionNames
import GraphMigrate.Proofs.Rewriting.RemovalSpan
import GraphMigrate.Proofs.Text.Recorded

namespace GraphMigrate

open Naming (stripConnectionSuffix?)

/-! ### Renaming connections -/

section Renames

variable {taken : List String} {f : NamedEntry} {fs : List NamedEntry} {bare : String}
  {r : ConnectionRename}

/-- What the renaming does at a field.  A field that is no connection is passed
over, one whose list has a name that is taken is noted, and any other is
renamed. -/
lemma connectionRenames_cons (taken : List String) (f : NamedEntry) (fs : List NamedEntry) :
    (stripConnectionSuffix? f.key = none ∧
      connectionRenames taken (f :: fs) = connectionRenames taken fs) ∨
    (∃ bare, stripConnectionSuffix? f.key = some bare ∧ bare ∈ taken ∧
      connectionRenames taken (f :: fs) = ⟨f, bare, false⟩ :: connectionRenames taken fs) ∨
    (∃ bare, stripConnectionSuffix? f.key = some bare ∧ bare ∉ taken ∧
      connectionRenames taken (f :: fs) =
        ⟨f, bare, true⟩ :: connectionRenames (bare :: taken) fs) := by
  cases hbare : stripConnectionSuffix? f.key with
  | none => exact .inl ⟨rfl, by rw [connectionRenames, hbare]⟩
  | some bare =>
      by_cases htaken : bare ∈ taken
      · exact .inr (.inl ⟨bare, rfl, htaken, by simp [connectionRenames, hbare, htaken]⟩)
      · exact .inr (.inr ⟨bare, rfl, htaken, by simp [connectionRenames, hbare, htaken]⟩)

/-- The renames come in the order of the fields, one for each at most. -/
lemma sublist_connectionRenames (taken : List String) (fs : List NamedEntry) :
    ((connectionRenames taken fs).map (·.field)).Sublist fs := by
  induction fs generalizing taken with
  | nil => exact .slnil
  | cons f fs ih =>
      rcases connectionRenames_cons taken f fs with
        ⟨-, h⟩ | ⟨bare, -, -, h⟩ | ⟨bare, -, -, h⟩ <;> rw [h]
      · exact (ih taken).cons f
      · exact (ih taken).cons_cons f
      · exact (ih (bare :: taken)).cons_cons f

/-- A rename is that of a connection, and a name that is given was free. -/
lemma of_mem_connectionRenames (hr : r ∈ connectionRenames taken fs) :
    stripConnectionSuffix? r.field.key = some r.bare ∧ (r.isFree = true → r.bare ∉ taken) := by
  induction fs generalizing taken with
  | nil => cases hr
  | cons f fs ih =>
      rcases connectionRenames_cons taken f fs with
        ⟨-, h⟩ | ⟨bare, hbare, -, h⟩ | ⟨bare, hbare, hfree, h⟩ <;> rw [h] at hr
      · exact ih hr
      · rcases List.mem_cons.mp hr with rfl | hr
        · exact ⟨hbare, fun h => absurd h Bool.false_ne_true⟩
        · exact ih hr
      · rcases List.mem_cons.mp hr with rfl | hr
        · exact ⟨hbare, fun _ => hfree⟩
        · exact ⟨(ih hr).1, fun hgiven htaken =>
            (ih hr).2 hgiven (List.mem_cons_of_mem _ htaken)⟩

/-- Every connection is renamed or noted. -/
lemma exists_mem_connectionRenames (hf : f ∈ fs)
    (hbare : stripConnectionSuffix? f.key = some bare) :
    ∃ r ∈ connectionRenames taken fs, r.field = f ∧ r.bare = bare := by
  induction fs generalizing taken with
  | nil => cases hf
  | cons g fs ih =>
      rcases connectionRenames_cons taken g fs with
        ⟨hg, h⟩ | ⟨_, hg, -, h⟩ | ⟨_, hg, -, h⟩ <;> rw [h]
      · rcases List.mem_cons.mp hf with rfl | hf
        · rw [hbare] at hg
          cases hg
        · exact ih hf
      · rcases List.mem_cons.mp hf with rfl | hf
        · cases hbare.symm.trans hg
          exact ⟨_, List.mem_cons_self, rfl, rfl⟩
        · obtain ⟨r, hr, hrf⟩ := @ih taken hf
          exact ⟨r, List.mem_cons_of_mem _ hr, hrf⟩
      · rcases List.mem_cons.mp hf with rfl | hf
        · cases hbare.symm.trans hg
          exact ⟨_, List.mem_cons_self, rfl, rfl⟩
        · obtain ⟨r, hr, hrf⟩ := ih hf
          exact ⟨r, List.mem_cons_of_mem _ hr, hrf⟩

/-- The renames of connections whose names are free. -/
def freeRenames (taken : List String) (fs : List NamedEntry) : List ConnectionRename :=
  (connectionRenames taken fs).filter (·.isFree)

lemma of_mem_freeRenames (hr : r ∈ freeRenames taken fs) :
    r.field ∈ fs ∧ stripConnectionSuffix? r.field.key = some r.bare ∧ r.bare ∉ taken := by
  obtain ⟨hr, hfree⟩ := List.mem_filter.mp hr
  obtain ⟨hbare, hgiven⟩ := of_mem_connectionRenames hr
  exact ⟨(sublist_connectionRenames taken fs).subset (List.mem_map_of_mem hr), hbare, hgiven hfree⟩

/-- No name is given twice. -/
lemma nodup_bare_freeRenames (taken : List String) (fs : List NamedEntry) :
    ((freeRenames taken fs).map (·.bare)).Nodup := by
  induction fs generalizing taken with
  | nil => exact .nil
  | cons f fs ih =>
      rcases connectionRenames_cons taken f fs with
        ⟨-, h⟩ | ⟨bare, -, -, h⟩ | ⟨bare, -, -, h⟩ <;> rw [freeRenames, h]
      · exact ih taken
      · rw [List.filter_cons_of_neg (by simp)]
        exact ih taken
      · rw [List.filter_cons_of_pos rfl, List.map_cons, List.nodup_cons]
        refine ⟨fun hmem => ?_, ih _⟩
        obtain ⟨r, hr, rfl⟩ := List.mem_map.mp hmem
        exact (of_mem_freeRenames hr).2.2 List.mem_cons_self

/-- A free name goes to the first connection of it. -/
lemma find?_freeRenames (hfree : bare ∉ taken) :
    ((freeRenames taken fs).find? (·.bare == bare)).map (·.field) =
      fs.find? fun f => stripConnectionSuffix? f.key == some bare := by
  induction fs generalizing taken with
  | nil => rfl
  | cons f fs ih =>
      rcases connectionRenames_cons taken f fs with
        ⟨hnone, h⟩ | ⟨other, hother, htaken, h⟩ | ⟨other, hother, -, h⟩ <;> rw [freeRenames, h]
      · rw [List.find?_cons_of_neg (by simp [hnone])]
        exact ih hfree
      · have hne : other ≠ bare := fun heq => hfree (heq ▸ htaken)
        rw [List.filter_cons_of_neg (by simp), List.find?_cons_of_neg (by simp [hother, hne])]
        exact ih hfree
      · rw [List.filter_cons_of_pos rfl]
        by_cases heq : other = bare
        · rw [List.find?_cons_of_pos (by simp [heq]),
            List.find?_cons_of_pos (by simp [hother, heq])]
          rfl
        · rw [List.find?_cons_of_neg (by simp [heq]),
            List.find?_cons_of_neg (by simp [hother, heq])]
          exact ih (by simp [hfree, Ne.symm heq])

end Renames

/-! ### The fields afterwards -/

/-- Whether a field is removed for the connection beside it. -/
def isReplaced (map : FieldMap) (f : NamedEntry) : Bool := judgeList map f == .replaced

/-- The renames of the connections of a map. -/
def FieldMap.renames (map : FieldMap) : List ConnectionRename :=
  freeRenames (survivingKeys map) map.fields

/-- The key of a field when the connections of its map are renamed. -/
def unifiedKey (map : FieldMap) (f : NamedEntry) : String :=
  match map.renames.find? (·.field.key == f.key) with
  | some rename => rename.bare
  | none => f.key

/-- A field under a key; in another place its own key stands for its value no
more. -/
def NamedEntry.called (f : NamedEntry) (key : String) : NamedEntry :=
  { f with key, shorthand := f.shorthand && key == f.key }

/-- The named entries of a map without the removed lists, under the names that
they have then. -/
def unifiedFields (map : FieldMap) : List NamedEntry :=
  (map.fields.filter (!isReplaced map ·)).map fun f => f.called (unifiedKey map f)

/-- A field that is called a connection of a list. -/
def NamedEntry.isConnectionOf (list : String) (f : NamedEntry) : Bool :=
  f.key == list ++ "_connection" || f.key == list ++ "Connection"

@[simp] lemma NamedEntry.called_key (f : NamedEntry) : f.called f.key = f := by
  simp [called]

section Fields

variable {map : FieldMap} {f g : NamedEntry}

/-- Fields with one key are one field. -/
lemma eq_of_key_eq (hkeys : (map.fields.map (·.key)).Nodup) (hf : f ∈ map.fields)
    (hg : g ∈ map.fields) (h : f.key = g.key) : f = g :=
  List.inj_on_of_nodup_map hkeys hf hg h

lemma mem_survivingKeys_iff (hkeys : (map.fields.map (·.key)).Nodup) (hf : f ∈ map.fields) :
    f.key ∈ survivingKeys map ↔ isReplaced map f = false := by
  have hreplaced : f.key ∈ replacedKeys map ↔ isReplaced map f = true := by
    constructor
    · intro hmem
      obtain ⟨g, hg, heq⟩ := List.mem_map.mp hmem
      obtain ⟨hg, hjudged⟩ := List.mem_filter.mp hg
      exact eq_of_key_eq hkeys hg hf heq ▸ hjudged
    · exact fun h => List.mem_map.mpr ⟨f, List.mem_filter.mpr ⟨hf, h⟩, rfl⟩
  rw [survivingKeys, List.mem_filter, and_iff_right (List.mem_map_of_mem hf), Bool.not_eq_true',
    ← Bool.not_eq_true, ← Bool.not_eq_true, List.contains_iff_mem, hreplaced]

/-- A field is renamed, or keeps its key. -/
lemma unifiedKey_eq (map : FieldMap) (f : NamedEntry) :
    (∃ r ∈ map.renames, r.field.key = f.key ∧ unifiedKey map f = r.bare) ∨
    ((∀ r ∈ map.renames, r.field.key ≠ f.key) ∧ unifiedKey map f = f.key) := by
  cases hfind : map.renames.find? (·.field.key == f.key) with
  | none =>
      refine .inr ⟨fun r hr heq => ?_, by rw [unifiedKey, hfind]⟩
      exact List.find?_eq_none.mp hfind r hr (beq_iff_eq.mpr heq)
  | some r =>
      refine .inl ⟨r, List.mem_of_find?_eq_some hfind, ?_, by rw [unifiedKey, hfind]⟩
      simpa using List.find?_some hfind

/-- The field of a rename gets its name. -/
lemma unifiedKey_of_mem_renames {r : ConnectionRename} (hr : r ∈ map.renames) :
    unifiedKey map r.field = r.bare := by
  rcases unifiedKey_eq map r.field with ⟨s, hs, hkey, h⟩ | ⟨hnone, -⟩
  · -- the field gives one name only, by its key
    have hbare := (of_mem_freeRenames hs).2.1
    rw [hkey, (of_mem_freeRenames hr).2.1, Option.some.injEq] at hbare
    rw [h, hbare]
  · exact absurd rfl (hnone r hr)

/-- Fields that stay and have one key afterwards are one field. -/
lemma unifiedKey_injOn (hkeys : (map.fields.map (·.key)).Nodup) (hf : f ∈ map.fields)
    (hg : g ∈ map.fields) (hfstays : isReplaced map f = false) (hgstays : isReplaced map g = false)
    (heq : unifiedKey map f = unifiedKey map g) : f = g := by
  have hstays := (mem_survivingKeys_iff hkeys hf).mpr hfstays
  have hstays' := (mem_survivingKeys_iff hkeys hg).mpr hgstays
  rcases unifiedKey_eq map f with ⟨r, hr, hrkey, hrbare⟩ | ⟨-, hfkey⟩
  · rcases unifiedKey_eq map g with ⟨s, hs, hskey, hsbare⟩ | ⟨-, hgkey⟩
    · have hrs : r = s := List.inj_on_of_nodup_map (nodup_bare_freeRenames _ _) hr hs
        (by rw [← hrbare, ← hsbare, heq])
      exact eq_of_key_eq hkeys hf hg (by rw [← hrkey, ← hskey, hrs])
    · -- a name that is given is the key of no field that stays
      rw [hrbare, hgkey] at heq
      exact absurd (heq ▸ hstays') (of_mem_freeRenames hr).2.2
  · rcases unifiedKey_eq map g with ⟨s, hs, -, hsbare⟩ | ⟨-, hgkey⟩
    · rw [hfkey, hsbare] at heq
      exact absurd (heq ▸ hstays) (of_mem_freeRenames hs).2.2
    · exact eq_of_key_eq hkeys hf hg (by rw [← hfkey, ← hgkey, heq])

end Fields

/-! ### What is drafted -/

/-- For the fields of a map the removals are recorded, then the renames. -/
lemma edits_paginationDraft (text : List Char) (map : FieldMap) :
    (paginationDraft text map).edits =
      (map.fields.filter (isReplaced map)).map (fun f => removeEntry text f.span) ++
        map.renames.map fun r => renameKey r.field r.bare := by
  have hlists : (removeLists text map).edits =
      (map.fields.filter (isReplaced map)).map fun f => removeEntry text f.span := by
    rw [removeLists, Draft.concat]
    dsimp only
    induction map.fields with
    | nil => rfl
    | cons f fs ih =>
        rw [List.map_cons, List.flatMap_cons, ih, List.filter_cons, isReplaced]
        cases h : judgeList map f <;> rfl
  have hrenames : (renameConnections map).edits =
      map.renames.map fun r => renameKey r.field r.bare := by
    rw [renameConnections, Draft.concat, FieldMap.renames, freeRenames]
    dsimp only
    induction connectionRenames (survivingKeys map) map.fields with
    | nil => rfl
    | cons r rs ih =>
        rw [List.map_cons, List.flatMap_cons, ih, List.filter_cons, ConnectionRename.draft]
        cases h : r.isFree <;> rfl
  rw [paginationDraft, Draft.edits_append, Draft.edits_append, hlists, hrenames]
  rfl

/-- What is drafted for the definitions of a script. -/
def Definitions.unificationDraft (text : List Char) (d : Definitions) : Draft :=
  .concat (.ofNotes d.diagnostics :: d.outputMaps.map (paginationDraft text))

lemma unifyPagination_of_definitions (context : Context) {file : SourceFile} {d : Definitions}
    (h : file.definitions context.vocabulary = .ok d) :
    unifyPagination context file = .ok ((d.unificationDraft file.chars).finish file.text) := by
  rw [unifyPagination, h]
  rfl

/-- The warning about a connection whose list has a name that is taken. -/
def takenNote (f : NamedEntry) : Diagnostic :=
  .warning "Skipping renaming of connection as a field with the new name exists" f.span

/-- A connection that is not renamed is noted. -/
lemma takenNote_mem {text : List Char} {map : FieldMap} {f : NamedEntry} {bare : String}
    (hf : f ∈ map.fields) (hbare : Naming.stripConnectionSuffix? f.key = some bare)
    (hkept : ∀ r ∈ map.renames, r.field.key ≠ f.key) :
    takenNote f ∈ (paginationDraft text map).notes := by
  obtain ⟨r, hr, rfl, -⟩ : ∃ r ∈ connectionRenames (survivingKeys map) map.fields,
      r.field = f ∧ r.bare = bare := exists_mem_connectionRenames hf hbare
  have hfree : r.isFree = false := by
    rw [Bool.eq_false_iff]
    exact fun hfree => hkept r (List.mem_filter.mpr ⟨hr, hfree⟩) rfl
  have hnote : takenNote r.field ∈ r.draft.notes := by
    rw [ConnectionRename.draft, hfree]
    exact List.mem_singleton.mpr rfl
  rw [paginationDraft, Draft.notes_append]
  exact List.mem_append_right _
    (List.mem_flatMap.mpr ⟨r.draft, List.mem_map_of_mem hr, hnote⟩)

/-- **Keys stay distinct, and a connection keeps its name only with a
warning.**  Let the keys of the fields of a map differ from each other.  The
edits for the map remove some of its fields and rename some; without the
removed ones, and under their new names, the fields have keys that differ from
each other.  Each field that stays is renamed by one of the edits, or it has the
key that it had, and if that is the name of a connection, a warning says so. -/
theorem unified_keys_stay_distinct (text : List Char) (map : FieldMap)
    (hkeys : (map.fields.map (·.key)).Nodup) :
    ((unifiedFields map).map (·.key)).Nodup ∧
    (paginationDraft text map).edits =
      (map.fields.filter (isReplaced map)).map (fun f => removeEntry text f.span) ++
        map.renames.map (fun r => renameKey r.field r.bare) ∧
    ∀ f ∈ map.fields, isReplaced map f = false →
      (∃ r ∈ map.renames, r.field = f ∧ f.called r.bare ∈ unifiedFields map) ∨
      (∀ r ∈ map.renames, r.field ≠ f) ∧ f ∈ unifiedFields map ∧
        (stripConnectionSuffix? f.key ≠ none →
          takenNote f ∈ (paginationDraft text map).notes) := by
  refine ⟨?_, edits_paginationDraft text map, fun f hf hstays => ?_⟩
  · rw [unifiedFields, List.map_map]
    refine List.Nodup.map_on (fun f hf g hg heq => ?_) (hkeys.of_map.filter _)
    obtain ⟨hf, hfstays⟩ := List.mem_filter.mp hf
    obtain ⟨hg, hgstays⟩ := List.mem_filter.mp hg
    exact unifiedKey_injOn hkeys hf hg (Bool.not_eq_true' _ |>.mp hfstays)
      (Bool.not_eq_true' _ |>.mp hgstays) heq
  · have hmem : f.called (unifiedKey map f) ∈ unifiedFields map :=
      List.mem_map.mpr ⟨f, List.mem_filter.mpr ⟨hf, by rw [hstays]; rfl⟩, rfl⟩
    rcases unifiedKey_eq map f with ⟨r, hr, hkey, hbare⟩ | ⟨hkept, hkey⟩
    · have hfield := eq_of_key_eq hkeys (of_mem_freeRenames hr).1 hf hkey
      exact .inl ⟨r, hr, hfield, hbare ▸ hmem⟩
    · rw [hkey, NamedEntry.called_key] at hmem
      refine .inr ⟨fun r hr heq => hkept r hr (heq ▸ rfl), hmem, fun hconnection => ?_⟩
      obtain ⟨bare, hbare⟩ := Option.ne_none_iff_exists'.mp hconnection
      exact takenNote_mem hf hbare hkept

/-- A list that gives way to its connection, and a field that is no list. -/
def artistLists : SourceFile where
  text := "new GraphQLObjectType(\x7b fields: \x7b\n" ++
    " shows: \x7b type: new GraphQLList(S), args: \x7b size: x \x7d \x7d,\n" ++
    " showsConnection: shows, sale, sale_connection: sales \x7d \x7d)"
  language := .typeScript

theorem unified_keys_of_artistLists : ∃ d outcome, artistLists.definitions {} = .ok d ∧
    unifyPagination {} artistLists = .ok outcome ∧
    outcome.text = "new GraphQLObjectType(\x7b fields: \x7b\n" ++
      " shows: shows, sale, sale_connection: sales \x7d \x7d)" ∧
    ∃ map ∈ d.outputMaps, (map.fields.map (·.key)).Nodup ∧
      (unifiedFields map).map (·.key) = ["shows", "sale", "sale_connection"] ∧
      ((unifiedFields map).map (·.key)).Nodup := by
  have hcheck : (artistLists.definitions {}).toOption.any (fun d =>
      let accepted := acceptedEdits artistLists.chars (d.unificationDraft artistLists.chars).edits
      decide (accepted.Pairwise (fun a b => a.precedes b = true) ∧
        String.ofList (splice 0 artistLists.chars accepted) =
          "new GraphQLObjectType(\x7b fields: \x7b\n" ++
            " shows: shows, sale, sale_connection: sales \x7d \x7d)" ∧
        ∃ map ∈ d.outputMaps, (map.fields.map (·.key)).Nodup ∧
          (unifiedFields map).map (·.key) = ["shows", "sale", "sale_connection"])) = true := by
    decide +kernel
  obtain ⟨d, hd, hholds⟩ := Option.any_eq_true _ _ |>.mp hcheck
  obtain ⟨hordered, htext, map, hmap, hkeys, hnames⟩ := of_decide_eq_true hholds
  have hlocated := eq_ok_of_toOption hd
  exact ⟨d, _, hlocated, unifyPagination_of_definitions {} hlocated,
    (applyEdits_text_of_pairwise hordered).trans htext, map, hmap, hkeys, hnames,
    (unified_keys_stay_distinct artistLists.chars map hkeys).1⟩

/-! ### Where it takes effect -/

/-- The fields of a map stand in a text one behind the other, each around its
key. -/
structure FieldMap.StandsIn (text : List Char) (map : FieldMap) : Prop where
  solid : ∀ f ∈ map.fields, f.span.IsSolid text
  ordered : map.fields.Pairwise fun f g => f.span.stop ≤ g.span.start
  key_solid : ∀ f ∈ map.fields, f.keySpan.IsSolid text
  key_within : ∀ f ∈ map.fields, f.keySpan.Within f.span

instance (text : List Char) (map : FieldMap) : Decidable (map.StandsIn text) :=
  decidable_of_iff ((∀ f ∈ map.fields, f.span.IsSolid text) ∧
      (map.fields.Pairwise fun f g => f.span.stop ≤ g.span.start) ∧
      (∀ f ∈ map.fields, f.keySpan.IsSolid text) ∧ ∀ f ∈ map.fields, f.keySpan.Within f.span)
    ⟨fun h => ⟨h.1, h.2.1, h.2.2.1, h.2.2.2⟩,
      fun h => ⟨h.solid, h.ordered, h.key_solid, h.key_within⟩⟩

/-- An edit for a field replaces text of it, or what stands around it up to
the next one. -/
structure Edit.IsFor (text : List Char) (f : NamedEntry) (e : Edit) : Prop where
  inBounds : e.InBounds text
  exists_extends : ∃ r, Extends text f.span r ∧ e.span.Within r

lemma span_renameKey (f : NamedEntry) (bare : String) : (renameKey f bare).span = f.keySpan := by
  rw [renameKey]
  split <;> rfl

lemma text_renameKey_ne (f : NamedEntry) {bare : String} (h : bare ≠ "") :
    (renameKey f bare).text ≠ "" := by
  rw [renameKey]
  split
  · exact fun heq => h (String.append_eq_empty_iff.mp (String.append_eq_empty_iff.mp heq).1).1
  · exact h

section TakesEffect

variable {text : List Char} {map : FieldMap} {f g : NamedEntry} {e : Edit}

lemma isFor_removeEntry (h : map.StandsIn text) (hf : f ∈ map.fields) :
    (removeEntry text f.span).IsFor text f := by
  have hextends := extends_removalSpan (h.solid f hf).isSome_slice?
  exact ⟨slice?_isSome_iff.mp hextends.isSome_slice?, _, hextends, Span.Within.refl _⟩

lemma isFor_renameKey (h : map.StandsIn text) (hf : f ∈ map.fields) (bare : String) :
    (renameKey f bare).IsFor text f := by
  refine ⟨?_, f.span, Extends.refl (h.solid f hf).isSome_slice?, ?_⟩
  · rw [Edit.InBounds, span_renameKey]
    exact slice?_isSome_iff.mp (h.key_solid f hf).isSome_slice?
  · rw [span_renameKey]
    exact h.key_within f hf

/-- Edits for fields that lie apart leave each other alone. -/
lemma conflictsWith_of_isFor {e' : Edit} (h : map.StandsIn text) (hf : f ∈ map.fields)
    (hg : g ∈ map.fields) (hne : f ≠ g) (he : e.IsFor text f) (he' : e'.IsFor text g) :
    e.conflictsWith e' = false := by
  obtain ⟨r, hr, hin⟩ := he.exists_extends
  obtain ⟨u, hu, hin'⟩ := he'.exists_extends
  have hsolid := h.solid f hf
  have hsolid' := h.solid g hg
  have hpairs : map.fields.Pairwise fun a b => a.span.Apart b.span := h.ordered.imp Or.inl
  have : Std.Symm fun a b : NamedEntry => a.span.Apart b.span := ⟨fun _ _ => Or.symm⟩
  rcases hpairs.forall hf hg hne with hle | hle
  · have hends : e.EndsBefore e' :=
      hin.2.trans ((hr.stop_le_start hu hsolid hsolid' hle).trans hin'.1)
    exact hends.conflictsWith_eq_false he.inBounds.1
  · have hends : e'.EndsBefore e :=
      hin'.2.trans ((hu.stop_le_start hr hsolid' hsolid hle).trans hin.1)
    rw [Edit.conflictsWith_comm]
    exact hends.conflictsWith_eq_false he'.inBounds.1

/-- The key of a field that is removed cannot be replaced as well. -/
lemma removeEntry_conflictsWith (h : map.StandsIn text) (hf : f ∈ map.fields) (bare : String) :
    (removeEntry text f.span).conflictsWith (renameKey f bare) = true := by
  have hextends := extends_removalSpan (h.solid f hf).isSome_slice?
  refine conflictsWith_of_within (h.key_solid f hf).start_lt_stop
    ((h.key_within f hf).trans ⟨hextends.start_le, hextends.le_stop⟩) ?_
  rw [span_renameKey]
  exact Span.Within.refl _

/-- An edit is accepted if it fits and those before it leave it alone. -/
lemma mem_acceptedEdits_of_alone {earlier later : List Edit} (hin : e.InBounds text)
    (halone : ∀ e' ∈ earlier, e' = e ∨ e'.conflictsWith e = false) :
    e ∈ acceptedEdits text (earlier ++ e :: later) :=
  mem_appliedEdits_iff_mem_acceptedEdits.mp <| (mem_appliedEdits_iff_of_eq rfl).mpr
    ⟨hin, fun e' he' => halone e' (mem_of_mem_acceptedEdits he')⟩

/-- Removals of fields are accepted when they come first. -/
lemma removeEntry_mem_acceptedEdits (h : map.StandsIn text) {removed : List NamedEntry}
    (hremoved : removed ⊆ map.fields) (later : List Edit) (hf : f ∈ removed) :
    removeEntry text f.span ∈
      acceptedEdits text (removed.map (fun g => removeEntry text g.span) ++ later) := by
  obtain ⟨before, behind, rfl⟩ := List.append_of_mem hf
  rw [List.map_append, List.map_cons, List.append_assoc, List.cons_append]
  have hfield := hremoved hf
  refine mem_acceptedEdits_of_alone (isFor_removeEntry h hfield).inBounds fun e' he' => ?_
  obtain ⟨g, hg, rfl⟩ := List.mem_map.mp he'
  by_cases heq : g = f
  · exact .inl (heq ▸ rfl)
  · have hgfield := hremoved (List.mem_append_left _ hg)
    exact .inr (conflictsWith_of_isFor h hgfield hfield heq (isFor_removeEntry h hgfield)
      (isFor_removeEntry h hfield))

end TakesEffect

/-- **Fields are removed, and the others renamed.**  Let the fields of a map
stand in a text.  The removal of each list takes effect, and so does the
renaming of each connection that is not removed itself; the renaming of one that
is removed is dropped, though no other connection gets the name. -/
theorem takesEffect_paginationDraft {text : String} {map : FieldMap}
    (h : map.StandsIn text.toList) :
    let edits := (paginationDraft text.toList map).edits
    let result := (applyEdits text edits).text.toList
    (∀ f ∈ map.fields, isReplaced map f = true →
      (removeEntry text.toList f.span).TakesEffect text.toList edits result) ∧
    ∀ r ∈ map.renames, (renameKey r.field r.bare).TakesEffect text.toList edits result ↔
      isReplaced map r.field = false := by
  have hsub : map.fields.filter (isReplaced map) ⊆ map.fields := List.filter_sublist.subset
  simp only [takesEffect_iff_mem, edits_paginationDraft]
  refine ⟨fun f hf hgone => mem_appliedEdits_iff_mem_acceptedEdits.mpr
    (removeEntry_mem_acceptedEdits h hsub _ (List.mem_filter.mpr ⟨hf, hgone⟩)), fun r hr => ?_⟩
  obtain ⟨before, behind, hrenames⟩ := List.append_of_mem hr
  have hfield := (of_mem_freeRenames hr).1
  rw [hrenames, List.map_append, List.map_cons, ← List.append_assoc,
    mem_appliedEdits_iff_of_eq rfl]
  constructor
  · rintro ⟨-, halone⟩
    by_contra hgone
    rw [Bool.not_eq_false] at hgone
    -- its removal was accepted before
    rcases halone _ (removeEntry_mem_acceptedEdits h hsub _
      (List.mem_filter.mpr ⟨hfield, hgone⟩)) with heq | halone
    · have hbare := (Naming.stripConnectionSuffix?_eq_some_iff.mp (of_mem_freeRenames hr).2.1).1
      exact text_renameKey_ne r.field hbare (by rw [← heq]; rfl)
    · rw [removeEntry_conflictsWith h hfield] at halone
      cases halone
  · intro hstays
    have hfor := isFor_renameKey h hfield r.bare
    refine ⟨hfor.inBounds, fun e' he' => ?_⟩
    rcases List.mem_append.mp (mem_of_mem_acceptedEdits he') with he' | he'
    · obtain ⟨g, hg, rfl⟩ := List.mem_map.mp he'
      obtain ⟨hg, hgone⟩ := List.mem_filter.mp hg
      have hne : g ≠ r.field := fun heq => by
        rw [heq, hstays] at hgone
        cases hgone
      exact .inr (conflictsWith_of_isFor h hg hfield hne (isFor_removeEntry h hg) hfor)
    · obtain ⟨s, hs, rfl⟩ := List.mem_map.mp he'
      have hs : s ∈ map.renames := hrenames ▸ List.mem_append_left _ hs
      by_cases heq : s.field = r.field
      · -- a field has one new name only
        have hbare : s.bare = r.bare := by
          rw [← unifiedKey_of_mem_renames hs, heq, unifiedKey_of_mem_renames hr]
        exact .inl (by rw [heq, hbare])
      · have hsfield := (of_mem_freeRenames hs).1
        exact .inr (conflictsWith_of_isFor h hsfield hfield heq
          (isFor_renameKey h hsfield s.bare) hfor)

/-! ### The name of a removed list -/

section Lists

variable {map : FieldMap} {list first : NamedEntry}

/-- A connection of a list is one that loses its ending to the list's name. -/
lemma isConnectionOf_eq {k : String} (hk : k ≠ "") (f : NamedEntry) :
    f.isConnectionOf k = (stripConnectionSuffix? f.key == some k) := by
  rw [Bool.eq_iff_iff, beq_iff_eq, Naming.stripConnectionSuffix?_eq_some_iff,
    and_iff_right hk, NamedEntry.isConnectionOf, Bool.or_eq_true, beq_iff_eq, beq_iff_eq]

/-- A list is removed only if there is a connection of it. -/
lemma exists_first_of_isReplaced (hreplaced : isReplaced map list = true) :
    ∃ first, map.fields.find? (·.isConnectionOf list.key) = some first := by
  have hconnection : (connection? map list.key).isSome = true := by
    by_contra hnone
    rw [isReplaced, beq_iff_eq, judgeList, if_neg hnone] at hreplaced
    split at hreplaced
    · split_ifs at hreplaced
      split at hreplaced <;> cases hreplaced
    · cases hreplaced
  obtain ⟨name, hfound⟩ := Option.isSome_iff_exists.mp hconnection
  obtain ⟨hcontains, hname, -⟩ := connection?_eq_some_iff.mp hfound
  obtain ⟨f, hf⟩ := Option.isSome_iff_exists.mp hcontains
  refine Option.isSome_iff_exists.mp (List.find?_isSome.mpr ⟨f, List.mem_of_find?_eq_some hf, ?_⟩)
  rw [NamedEntry.isConnectionOf, FieldMap.key_of_get? hf]
  simpa using hname

/-- The name of a removed list is given to its first connection only. -/
lemma unifiedKey_eq_iff (hkeys : (map.fields.map (·.key)).Nodup) (hlist : list ∈ map.fields)
    (hreplaced : isReplaced map list = true) (hne : list.key ≠ "")
    (hfirst : map.fields.find? (·.isConnectionOf list.key) = some first) {f : NamedEntry}
    (hf : f ∈ map.fields) (hstays : isReplaced map f = false) :
    unifiedKey map f = list.key ↔ f = first := by
  have hfree : list.key ∉ survivingKeys map := fun hmem => by
    rw [mem_survivingKeys_iff hkeys hlist, hreplaced] at hmem
    cases hmem
  have hgiven : ((freeRenames (survivingKeys map) map.fields).find? (·.bare == list.key)).map
      (·.field) = some first := by
    rw [find?_freeRenames hfree, ← funext (isConnectionOf_eq hne), hfirst]
  rw [Option.map_eq_some_iff] at hgiven
  obtain ⟨r, hr, rfl⟩ := hgiven
  have hbare : r.bare = list.key := by simpa using List.find?_some hr
  have hmem : r ∈ map.renames := List.mem_of_find?_eq_some hr
  constructor
  · intro hkey
    rcases unifiedKey_eq map f with ⟨s, hs, hskey, hsbare⟩ | ⟨-, hfkey⟩
    · have hrs : s = r := List.inj_on_of_nodup_map (nodup_bare_freeRenames _ _) hs hmem
        (by rw [← hsbare, hkey, hbare])
      exact eq_of_key_eq hkeys hf (of_mem_freeRenames hmem).1 (by rw [← hskey, hrs])
    · -- the list itself does not stay
      rw [eq_of_key_eq hkeys hf hlist (by rw [← hfkey, hkey]), hreplaced] at hstays
      cases hstays
  · rintro rfl
    rw [unifiedKey_of_mem_renames hmem, hbare]

/-- No connection is called after a list without a name. -/
lemma unifiedKey_ne_empty (hkeys : (map.fields.map (·.key)).Nodup) (hlist : list ∈ map.fields)
    (hreplaced : isReplaced map list = true) (hempty : list.key = "") {f : NamedEntry}
    (hf : f ∈ map.fields) (hstays : isReplaced map f = false) : unifiedKey map f ≠ list.key := by
  intro hkey
  rcases unifiedKey_eq map f with ⟨r, hr, -, hbare⟩ | ⟨-, hfkey⟩
  · have hname := (Naming.stripConnectionSuffix?_eq_some_iff.mp (of_mem_freeRenames hr).2.1).1
    exact hname (by rw [← hbare, hkey, hempty])
  · rw [eq_of_key_eq hkeys hf hlist (by rw [← hfkey, hkey]), hreplaced] at hstays
    cases hstays

/-- The fields that have the name of a removed list afterwards: its first
connection, if that stays. -/
lemma filter_unifiedFields (hkeys : (map.fields.map (·.key)).Nodup) (hlist : list ∈ map.fields)
    (hreplaced : isReplaced map list = true) (hne : list.key ≠ "")
    (hfirst : map.fields.find? (·.isConnectionOf list.key) = some first) :
    (unifiedFields map).filter (·.key == list.key) =
      if isReplaced map first then [] else [first.called list.key] := by
  have hmem := List.mem_of_find?_eq_some hfirst
  have hiff : ∀ f ∈ map.fields.filter (!isReplaced map ·),
      (unifiedKey map f == list.key) = true ↔ f = first := fun f hf => by
    obtain ⟨hf, hstays⟩ := List.mem_filter.mp hf
    rw [Bool.not_eq_true'] at hstays
    rw [beq_iff_eq, unifiedKey_eq_iff hkeys hlist hreplaced hne hfirst hf hstays]
  rw [unifiedFields, List.filter_map]
  split_ifs with hgone
  · rw [List.map_eq_nil_iff, List.filter_eq_nil_iff]
    intro f hf hkey
    rw [(hiff f hf).mp hkey] at hf
    simpa [hgone] using (List.mem_filter.mp hf).2
  · have hstays : first ∈ map.fields.filter (!isReplaced map ·) :=
      List.mem_filter.mpr ⟨hmem, by simpa using hgone⟩
    have hperm : ((map.fields.filter (!isReplaced map ·)).filter
        (unifiedKey map · == list.key)).Perm [first] := by
      refine (List.perm_ext_iff_of_nodup ((hkeys.of_map.filter _).filter _)
        (List.nodup_singleton first)).mpr fun f => ?_
      rw [List.mem_filter, List.mem_singleton]
      exact ⟨fun h => (hiff f h.1).mp h.2, fun h => h ▸ ⟨hstays, (hiff first hstays).mpr rfl⟩⟩
    have hkey : unifiedKey map first = list.key := by simpa using (hiff first hstays).mpr rfl
    change List.map _ ((map.fields.filter (!isReplaced map ·)).filter
      (unifiedKey map · == list.key)) = _
    rw [List.perm_singleton.mp hperm, List.map_singleton, hkey]

end Lists

/-- **The name of a removed list is kept exactly if its first connection is not
removed as well.**  Let the keys of the fields of a map differ from each other,
and let a list be removed.  Exactly one field has its name afterwards, and this
is a connection of the list, if and only if the list has a name at all and the
first of its connections in the map stays.  Otherwise no field has the name. -/
theorem replaced_name_is_kept_iff {map : FieldMap} (hkeys : (map.fields.map (·.key)).Nodup)
    {list : NamedEntry} (hlist : list ∈ map.fields) (hreplaced : isReplaced map list = true) :
    ((∃ f ∈ map.fields, f.isConnectionOf list.key = true ∧ isReplaced map f = false ∧
        (unifiedFields map).filter (·.key == list.key) = [f.called list.key]) ↔
      list.key ≠ "" ∧ ∃ first, map.fields.find? (·.isConnectionOf list.key) = some first ∧
        isReplaced map first = false) ∧
    (¬ (list.key ≠ "" ∧ ∃ first, map.fields.find? (·.isConnectionOf list.key) = some first ∧
        isReplaced map first = false) → ∀ f ∈ unifiedFields map, f.key ≠ list.key) := by
  obtain ⟨first, hfirst⟩ := exists_first_of_isReplaced hreplaced
  by_cases hempty : list.key = ""
  · have hnone : ∀ f ∈ unifiedFields map, f.key ≠ list.key := fun f hf => by
      obtain ⟨g, hg, rfl⟩ := List.mem_map.mp hf
      obtain ⟨hg, hstays⟩ := List.mem_filter.mp hg
      exact unifiedKey_ne_empty hkeys hlist hreplaced hempty hg (by simpa using hstays)
    refine ⟨iff_of_false ?_ fun h => h.1 hempty, fun _ => hnone⟩
    rintro ⟨f, -, -, -, hfilter⟩
    obtain ⟨hf, hkey⟩ := List.mem_filter.mp (hfilter ▸ List.mem_singleton.mpr rfl)
    exact hnone _ hf (beq_iff_eq.mp hkey)
  · have hfilter := filter_unifiedFields hkeys hlist hreplaced hempty hfirst
    simp only [ne_eq, hempty, not_false_eq_true, true_and, hfirst, Option.some.injEq,
      exists_eq_left']
    cases hgone : isReplaced map first with
    | false =>
        rw [hgone, if_neg Bool.false_ne_true] at hfilter
        exact ⟨iff_of_true ⟨first, List.mem_of_find?_eq_some hfirst,
          by simpa using List.find?_some hfirst, hgone, hfilter⟩ rfl, fun h => absurd rfl h⟩
    | true =>
        rw [hgone, if_pos rfl] at hfilter
        refine ⟨iff_of_false ?_ Bool.true_eq_false.mp, fun _ f hf hkey => ?_⟩
        · rintro ⟨f, -, -, -, hone⟩
          rw [hfilter] at hone
          cases hone
        · exact List.filter_eq_nil_iff.mp hfilter f hf (beq_iff_eq.mpr hkey)

theorem replaced_name_is_kept_in_artistLists : ∃ d, artistLists.definitions {} = .ok d ∧
    ∃ map ∈ d.outputMaps, (map.fields.map (·.key)).Nodup ∧
      ∃ list ∈ map.fields, list.key = "shows" ∧ isReplaced map list = true ∧
        ∃ f ∈ map.fields, f.isConnectionOf list.key = true ∧ isReplaced map f = false ∧
          (unifiedFields map).filter (·.key == list.key) = [f.called list.key] := by
  have hcheck : (artistLists.definitions {}).toOption.any (fun d => decide (
      ∃ map ∈ d.outputMaps, (map.fields.map (·.key)).Nodup ∧
        ∃ list ∈ map.fields, list.key = "shows" ∧ isReplaced map list = true ∧
          (map.fields.find? (·.isConnectionOf list.key)).any (!isReplaced map ·) = true)) =
        true := by
    decide +kernel
  obtain ⟨d, hd, hholds⟩ := Option.any_eq_true _ _ |>.mp hcheck
  obtain ⟨map, hmap, hkeys, list, hlist, hname, hreplaced, hstays⟩ := of_decide_eq_true hholds
  obtain ⟨first, hfirst, hstays⟩ := Option.any_eq_true _ _ |>.mp hstays
  rw [Bool.not_eq_true'] at hstays
  have hne : list.key ≠ "" := by
    rw [hname]
    decide
  exact ⟨d, eq_ok_of_toOption hd, map, hmap, hkeys, list, hlist, hname, hreplaced,
    (replaced_name_is_kept_iff hkeys hlist hreplaced).1.mpr ⟨hne, first, hfirst, hstays⟩⟩

/-- A list whose connection is a list with a connection of its own. -/
def nestedLists : SourceFile where
  text := "new GraphQLObjectType(\x7b fields: \x7b\n" ++
    " shows: \x7b type: new GraphQLList(S), args: \x7b size: x \x7d \x7d,\n" ++
    " showsConnection: \x7b type: new GraphQLList(S), args: \x7b size: x \x7d \x7d,\n" ++
    " showsConnectionConnection: shows, shows_connection: past \x7d \x7d)"
  language := .typeScript

/-- A connection that is removed takes the name of its list along, and the one
that stays keeps its own, on the ground that the name is in use. -/
theorem removed_connection_takes_name_along : ∃ d outcome, nestedLists.definitions {} = .ok d ∧
    unifyPagination {} nestedLists = .ok outcome ∧
    outcome.text = "new GraphQLObjectType(\x7b fields: \x7b\n" ++
      " showsConnection: shows, shows_connection: past \x7d \x7d)" ∧
    ∃ map ∈ d.outputMaps, (map.fields.map (·.key)).Nodup ∧
      ∃ list ∈ map.fields, list.key = "shows" ∧ isReplaced map list = true ∧
        (∃ f ∈ map.fields, f.isConnectionOf list.key = true ∧ isReplaced map f = false ∧
          unifiedKey map f = f.key ∧ takenNote f ∈ outcome.diagnostics) ∧
        ¬ ∃ f ∈ unifiedFields map, f.key = list.key := by
  have hcheck : (nestedLists.definitions {}).toOption.any (fun d =>
      let draft := d.unificationDraft nestedLists.chars
      let accepted := acceptedEdits nestedLists.chars draft.edits
      decide (accepted.Pairwise (fun a b => a.precedes b = true) ∧
        String.ofList (splice 0 nestedLists.chars accepted) =
          "new GraphQLObjectType(\x7b fields: \x7b\n" ++
            " showsConnection: shows, shows_connection: past \x7d \x7d)" ∧
        ∃ map ∈ d.outputMaps, (map.fields.map (·.key)).Nodup ∧
          ∃ list ∈ map.fields, list.key = "shows" ∧ isReplaced map list = true ∧
            (∃ f ∈ map.fields, f.isConnectionOf list.key = true ∧ isReplaced map f = false ∧
              unifiedKey map f = f.key ∧ takenNote f ∈ draft.notes) ∧
            ¬ ∃ f ∈ unifiedFields map, f.key = list.key)) = true := by
    decide +kernel
  obtain ⟨d, hd, hholds⟩ := Option.any_eq_true _ _ |>.mp hcheck
  obtain ⟨hordered, htext, hnames⟩ := of_decide_eq_true hholds
  have hlocated := eq_ok_of_toOption hd
  exact ⟨d, _, hlocated, unifyPagination_of_definitions {} hlocated,
    (applyEdits_text_of_pairwise hordered).trans htext, hnames⟩

end GraphMigrate
