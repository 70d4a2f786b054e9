/-
What a plan of renames promises.

A plan is made field by field, and every step adds the new name to those
that are taken.  So the renamed fields are some of the map's, in its
order, and their new names differ from each other; and since a new name is
in camel case it is none of the names that are replaced.

* `mem_planFrom`, `sublist_planFrom`, `nodup_newNames`: what each step of
  the planning keeps;
* `notMem_oldNames_of_mem_newNames`: no new name is a replaced one;
* `renames_ne_nil_iff`: when something is renamed at all;
* `IsKept`, `length_renames_lt_size_iff`: counting renames and entries
  tells whether an entry of the map keeps its name.
-/
import GraphMigrate.Migration.DefinitionNames
import GraphMigrate.Proofs.CamelCase

namespace GraphMigrate

open Naming (camelize needsCamelize)

/-- The names that renames replace. -/
def oldNames (renames : List Rename) : List String := renames.map (·.field.key)

/-- The names that renames give. -/
def newNames (renames : List Rename) : List String := renames.map (·.newName)

/-- The names of the fields of a map. -/
def FieldMap.keys (map : FieldMap) : List String := map.fields.map (·.key)

@[simp] lemma Plan.renames_rename (r : Rename) (p : Plan) :
    (p.rename r).renames = r :: p.renames := rfl

/-- A planned field needs camel case, gets it, and its new name was free. -/
lemma mem_planFrom {kind : MapKind} {taken : List String} {fs : List NamedEntry} {r : Rename}
    (h : r ∈ (planFrom kind taken fs).renames) :
    needsCamelize r.field.key = true ∧ r.newName = camelize r.field.key ∧ r.newName ∉ taken := by
  induction fs generalizing taken with
  | nil => simp [planFrom] at h
  | cons f fs ih =>
      rw [planFrom] at h
      split at h
      · exact ih h
      · split at h
        · exact ih h
        · rename_i hneeds
          rw [Bool.not_eq_true, Bool.not_eq_false'] at hneeds
          dsimp only at h
          split at h
          · exact ih h
          · rename_i hfree
            rw [Plan.renames_rename, List.mem_cons] at h
            rcases h with rfl | h
            · exact ⟨hneeds, rfl, fun hmem => hfree (List.contains_iff_mem.mpr hmem)⟩
            · obtain ⟨hr, hnew, hnot⟩ := ih h
              refine ⟨hr, hnew, fun hmem => hnot (List.mem_cons_of_mem _ ?_)⟩
              -- the name of the field just renamed is free again, but it is not in camel case
              rw [List.mem_filter, bne_iff_ne, hnew]
              exact ⟨hnew ▸ hmem, Naming.camelize_ne_of_needsCamelize hr hneeds⟩

/-- The renamed fields are some of the fields, in their order. -/
lemma sublist_planFrom (kind : MapKind) (taken : List String) (fs : List NamedEntry) :
    ((planFrom kind taken fs).renames.map (·.field)).Sublist fs := by
  induction fs generalizing taken with
  | nil => simp [planFrom]
  | cons f fs ih =>
      rw [planFrom]
      split
      · exact (ih taken).cons f
      · split
        · exact (ih taken).cons f
        · dsimp only
          split
          · exact (ih taken).cons f
          · exact (ih _).cons_cons f

/-- The new names differ from each other: each is taken once it is given. -/
lemma nodup_newNames_planFrom (kind : MapKind) (taken : List String) (fs : List NamedEntry) :
    (newNames (planFrom kind taken fs).renames).Nodup := by
  induction fs generalizing taken with
  | nil => simp [planFrom, newNames]
  | cons f fs ih =>
      rw [planFrom]
      split
      · exact ih taken
      · split
        · exact ih taken
        · dsimp only
          split
          · exact ih taken
          · refine List.nodup_cons.mpr ⟨?_, ih _⟩
            intro hmem
            obtain ⟨r, hr, heq⟩ := List.mem_map.mp hmem
            exact (mem_planFrom hr).2.2 (heq ▸ List.mem_cons_self)

lemma nodup_newNames (map : FieldMap) : (newNames (plan map).renames).Nodup :=
  nodup_newNames_planFrom _ _ _

/-- A new name has no underscore. -/
lemma underscore_notMem_newName {map : FieldMap} {name : String}
    (h : name ∈ newNames (plan map).renames) : '_' ∉ name.toList := by
  obtain ⟨r, hr, rfl⟩ := List.mem_map.mp h
  obtain ⟨hneeds, hnew, -⟩ := mem_planFrom hr
  rw [hnew]
  exact Naming.underscore_notMem_camelize hneeds

/-- No new name is one that is replaced. -/
lemma notMem_oldNames_of_mem_newNames {map : FieldMap} {name : String}
    (h : name ∈ newNames (plan map).renames) : name ∉ oldNames (plan map).renames := by
  intro hold
  obtain ⟨r, hr, heq⟩ := List.mem_map.mp hold
  exact underscore_notMem_newName h
    (heq ▸ Naming.underscore_mem_of_needsCamelize (mem_planFrom hr).1)

/-- A new name is no key of the map. -/
lemma notMem_keys_of_mem_newNames {map : FieldMap} {name : String}
    (h : name ∈ newNames (plan map).renames) : name ∉ map.keys := by
  obtain ⟨r, hr, rfl⟩ := List.mem_map.mp h
  exact (mem_planFrom hr).2.2

/-! ### Maps of which nothing is renamed -/

/-- Nothing is renamed if each name in snake case is taken in camel case. -/
lemma renames_planFrom_eq_nil_iff {kind : MapKind} {taken : List String} {fs : List NamedEntry} :
    (planFrom kind taken fs).renames = [] ↔
      ∀ f ∈ fs, needsCamelize f.key = true → camelize f.key ∈ taken := by
  induction fs with
  | nil => simp [planFrom]
  | cons f fs ih =>
      rw [planFrom, List.forall_mem_cons]
      split
      · rename_i hreserved
        rw [Bool.and_eq_true, beq_iff_eq, beq_iff_eq] at hreserved
        have hkept : needsCamelize f.key = false := by
          rw [hreserved.2]
          decide
        exact ih.trans (and_iff_right fun hneeds => by simp [hkept] at hneeds).symm
      · split
        · rename_i hkept
          rw [Bool.not_eq_true'] at hkept
          exact ih.trans (and_iff_right fun hneeds => by simp [hkept] at hneeds).symm
        · rename_i hneeds
          rw [Bool.not_eq_true, Bool.not_eq_false'] at hneeds
          dsimp only
          split
          · rename_i htaken
            exact ih.trans (and_iff_right fun _ => List.contains_iff_mem.mp htaken).symm
          · rename_i hfree
            refine iff_of_false (by simp) fun hall => hfree ?_
            exact List.contains_iff_mem.mpr (hall.1 hneeds)

/-- Something is renamed if a name in snake case is free in camel case. -/
lemma renames_ne_nil_iff {map : FieldMap} :
    (plan map).renames ≠ [] ↔
      ∃ f ∈ map.fields, needsCamelize f.key = true ∧ camelize f.key ∉ map.keys := by
  rw [plan, Ne, renames_planFrom_eq_nil_iff]
  push Not
  rfl

/-! ### Entries that keep their names -/

/-- An entry that renames leave alone: a spread, an entry with a computed
key, or a field whose key is not replaced. -/
def IsKept (renames : List Rename) (entry : MapEntry) : Prop :=
  ∀ field, entry.field? = some field → field.key ∉ oldNames renames

lemma length_fields_le (map : FieldMap) : map.fields.length ≤ map.size :=
  List.length_filterMap_le _ _

lemma not_isKept_iff {renames : List Rename} {entry : MapEntry} :
    ¬ IsKept renames entry ↔ ∃ f, entry.field? = some f ∧ f.key ∈ oldNames renames := by
  rw [IsKept]
  push Not
  rfl

/-- If every entry is a field whose key is replaced, and the keys differ, then
there are as many renames. -/
lemma size_le_length_renames {map : FieldMap} (hkeys : (map.fields.map (·.key)).Nodup)
    (h : ∀ entry ∈ map.entries, ¬ IsKept (plan map).renames entry) :
    map.size ≤ (plan map).renames.length := by
  have hfields : map.fields.length = map.size := by
    rw [FieldMap.fields, FieldMap.size, List.length_filterMap_eq_countP, List.countP_eq_length]
    intro entry hentry
    obtain ⟨f, hf, -⟩ := not_isKept_iff.mp (h entry hentry)
    simp [hf]
  have hincl : map.fields.map (·.key) ⊆ oldNames (plan map).renames := by
    intro key hkey
    obtain ⟨f, hf, rfl⟩ := List.mem_map.mp hkey
    obtain ⟨entry, hentry, hfield⟩ := List.mem_filterMap.mp hf
    obtain ⟨g, hg, hmem⟩ := not_isKept_iff.mp (h entry hentry)
    rw [hfield, Option.some.injEq] at hg
    exact hg ▸ hmem
  have hle := (hkeys.subperm hincl).length_le
  rw [List.length_map, oldNames, List.length_map] at hle
  omega

/-- If there are as many renames as entries, then the renamed fields are all
the entries. -/
lemma not_isKept_of_size_le {map : FieldMap} (h : map.size ≤ (plan map).renames.length)
    {entry : MapEntry} (hentry : entry ∈ map.entries) : ¬ IsKept (plan map).renames entry := by
  have hsub := sublist_planFrom map.kind (map.fields.map (·.key)) map.fields
  rw [← plan] at hsub
  have hle := hsub.length_le
  rw [List.length_map] at hle
  have hfields := length_fields_le map
  have hall : ∀ e ∈ map.entries, (MapEntry.field? e).isSome = true := by
    rw [← List.countP_eq_length, ← List.length_filterMap_eq_countP]
    change map.fields.length = map.size
    omega
  have heq : (plan map).renames.map (·.field) = map.fields :=
    hsub.eq_of_length_le (by rw [List.length_map]; omega)
  obtain ⟨f, hf⟩ := Option.isSome_iff_exists.mp (hall entry hentry)
  have hmem : f ∈ (plan map).renames.map (·.field) := by
    rw [heq]
    exact List.mem_filterMap.mpr ⟨entry, hentry, hf⟩
  obtain ⟨r, hr, rfl⟩ := List.mem_map.mp hmem
  exact not_isKept_iff.mpr ⟨r.field, hf, List.mem_map.mpr ⟨r, hr, rfl⟩⟩

/-- In a map whose keys differ, there are fewer renames than entries
exactly when some entry keeps its name. -/
lemma length_renames_lt_size_iff {map : FieldMap} (hkeys : (map.fields.map (·.key)).Nodup) :
    (plan map).renames.length < map.size ↔
      ∃ entry ∈ map.entries, IsKept (plan map).renames entry := by
  rw [← not_iff_not]
  push Not
  exact ⟨fun h _ => not_isKept_of_size_le h, size_le_length_renames hkeys⟩

end GraphMigrate
