/-
Planning the renames of a map a second time.

A field is renamed only if its new name is free, and a new name in camel case,
once it is taken, stays taken: what becomes free in its place are names in snake
case.  So when the renames of a map are carried out, the keys that are still in
snake case are those that were passed over, each of them has its form in camel
case beside it, and planning once more passes over the same fields.  This does not
need the keys to differ: of several fields with one key, the first alone can be
renamed.

* `FieldMap.renamed`: a map when renames of some of its fields are carried out;
* `fields_renamed`, `keys_renamed`: its fields and their keys;
* `collisions_planFrom_eq`: the fields that planning warns about are those that
  are in snake case when the renames are carried out;
* `collisions_planFrom_of_taken`: where all names are taken, these are all fields
  in snake case;
* `planning_again_finds_nothing`: **a second plan is empty, and gives the warnings
  of the first**.
-/
import GraphMigrate.Proofs.Arguments.SettledKeys

namespace GraphMigrate

open Naming (camelize needsCamelize)

/-! ### Renames carried out -/

/-- A field under another key.  A shorthand is written out for it. -/
def NamedEntry.withKey (field : NamedEntry) (key : String) : NamedEntry :=
  { field with key, shorthand := false }

/-- An entry under another key, if it is named. -/
def MapEntry.withKey (key : String) : MapEntry → MapEntry
  | .field _ keySpan _ span value => .field key keySpan false span value
  | .spread label span => .spread label span
  | .computed span => .computed span

/-- Fields when renames of some of them, in the order of the fields, are carried
out. -/
def renamedFields : List NamedEntry → List Rename → List NamedEntry
  | [], _ => []
  | f :: fs, [] => f :: fs
  | f :: fs, r :: rs =>
    if r.isOf f then f.withKey r.newName :: renamedFields fs rs
    else f :: renamedFields fs (r :: rs)

/-- Entries when renames of some of the fields among them, in their order, are
carried out. -/
def renamedEntries : List MapEntry → List Rename → List MapEntry
  | [], _ => []
  | e :: es, [] => e :: es
  | e :: es, r :: rs =>
    if e.field?.any r.isOf then e.withKey r.newName :: renamedEntries es rs
    else e :: renamedEntries es (r :: rs)

/-- A map when renames of some of its fields are carried out.  Spreads and entries
with computed keys stay in their places. -/
def FieldMap.renamed (map : FieldMap) (renames : List Rename) : FieldMap :=
  .mk map.kind map.span (renamedEntries map.entries renames)

section Renamed

variable {fs : List NamedEntry} {rs : List Rename}

@[simp] lemma renamedFields_nil (fs : List NamedEntry) : renamedFields fs [] = fs := by
  cases fs <;> rfl

@[simp] lemma renamedEntries_nil (es : List MapEntry) : renamedEntries es [] = es := by
  cases es <;> rfl

lemma MapEntry.field?_withKey {e : MapEntry} {f : NamedEntry} (h : e.field? = some f)
    (key : String) : (e.withKey key).field? = some (f.withKey key) := by
  cases e <;> cases h
  rfl

/-- The fields among renamed entries are the renamed fields. -/
lemma filterMap_field?_renamedEntries (es : List MapEntry) (rs : List Rename) :
    (renamedEntries es rs).filterMap MapEntry.field? =
      renamedFields (es.filterMap MapEntry.field?) rs := by
  induction es generalizing rs with
  | nil => cases rs <;> rfl
  | cons e es ih =>
      cases rs with
      | nil => rw [renamedEntries_nil, renamedFields_nil]
      | cons r rs =>
          rw [renamedEntries]
          cases he : e.field? with
          | none =>
              rw [Option.any_none, if_neg Bool.false_ne_true, List.filterMap_cons_none he,
                List.filterMap_cons_none he, ih]
          | some f =>
              rw [Option.any_some, List.filterMap_cons_some he, renamedFields]
              split
              · rw [List.filterMap_cons_some (MapEntry.field?_withKey he _), ih]
              · rw [List.filterMap_cons_some he, ih]

lemma fields_renamed (map : FieldMap) (renames : List Rename) :
    (map.renamed renames).fields = renamedFields map.fields renames :=
  filterMap_field?_renamedEntries map.entries renames

lemma map_key_renamedFields (fs : List NamedEntry) (rs : List Rename) :
    (renamedFields fs rs).map (·.key) = keysAfter fs rs := by
  induction fs generalizing rs with
  | nil => rfl
  | cons f fs ih =>
      cases rs with
      | nil => rw [renamedFields, List.map_cons, keysAfter, ← ih, renamedFields_nil]
      | cons r rs =>
          rw [renamedFields, keysAfter]
          split
          · rw [List.map_cons, ih]
            rfl
          · rw [List.map_cons, ih]

lemma keys_renamed (map : FieldMap) (renames : List Rename) :
    (map.renamed renames).keys = keysAfter map.fields renames := by
  rw [FieldMap.keys, fields_renamed, map_key_renamedFields]

/-- A field stays if no rename is one of it. -/
lemma renamedFields_cons_of_not_isOf {f : NamedEntry} (h : ∀ r ∈ rs, r.isOf f = false) :
    renamedFields (f :: fs) rs = f :: renamedFields fs rs := by
  cases rs with
  | nil => rw [renamedFields_nil, renamedFields_nil]
  | cons r rs => rw [renamedFields, h r List.mem_cons_self, if_neg Bool.false_ne_true]

/-- The first field is renamed by a rename of it. -/
lemma renamedFields_cons_camelRename (f : NamedEntry) :
    renamedFields (f :: fs) (camelRename f :: rs) =
      f.withKey (camelize f.key) :: renamedFields fs rs := by
  rw [renamedFields, if_pos (by simp [Rename.isOf, camelRename])]
  rfl

/-- Each field stays as it is or gets its form in camel case. -/
lemma forall₂_renamedFields (h : ∀ r ∈ rs, r.newName = camelize r.field.key) :
    List.Forall₂ (fun f g => g = f ∨ g = f.withKey (camelize f.key)) fs
      (renamedFields fs rs) := by
  induction fs generalizing rs with
  | nil => exact .nil
  | cons f fs ih =>
      cases rs with
      | nil =>
          rw [renamedFields_nil]
          exact List.forall₂_same.mpr fun g _ => .inl rfl
      | cons r rs =>
          obtain ⟨hfirst, hlater⟩ := List.forall_mem_cons.mp h
          rw [renamedFields]
          split
          next hof =>
            rw [Rename.isOf, Bool.and_eq_true, beq_iff_eq] at hof
            exact .cons (.inr (by rw [hfirst, hof.1])) (ih hlater)
          next => exact .cons (.inl rfl) (ih h)

end Renamed

/-! ### Warnings -/

/-- The warnings about fields that keep their keys in snake case. -/
def snakeNotes (kind : MapKind) (fields : List NamedEntry) : List Diagnostic :=
  (snakeFields fields).map fun f => collisionNote kind f (camelize f.key)

section Notes

variable {kind : MapKind} {taken : List String} {f : NamedEntry} {fs : List NamedEntry}

lemma snakeNotes_cons_of_pos (h : needsCamelize f.key = true) :
    snakeNotes kind (f :: fs) = collisionNote kind f (camelize f.key) :: snakeNotes kind fs := by
  rw [snakeNotes, snakeFields_cons_of_pos h, List.map_cons, snakeNotes]

lemma snakeNotes_cons_of_neg (h : needsCamelize f.key = false) :
    snakeNotes kind (f :: fs) = snakeNotes kind fs := by
  rw [snakeNotes, snakeFields_cons_of_neg h, snakeNotes]

/-- Where all names in camel case are taken, planning warns about every field in
snake case. -/
lemma collisions_planFrom_of_taken
    (h : ∀ f ∈ fs, needsCamelize f.key = true → camelize f.key ∈ taken) :
    (planFrom kind taken fs).collisions = snakeNotes kind fs := by
  induction fs with
  | nil => rfl
  | cons f fs ih =>
      obtain ⟨hfirst, hlater⟩ := List.forall_mem_cons.mp h
      rcases planFrom_cons kind taken f fs with
        ⟨hneeds, -, hnotes⟩ | ⟨hneeds, -, -, hnotes⟩ | ⟨hneeds, hfree, -⟩
      · rw [hnotes, snakeNotes_cons_of_neg hneeds, ih hlater]
      · rw [hnotes, snakeNotes_cons_of_pos hneeds, ih hlater]
      · exact absurd (hfirst hneeds) hfree

/-- Planning warns about the fields that are in snake case when its renames are
carried out. -/
lemma collisions_planFrom_eq :
    (planFrom kind taken fs).collisions =
      snakeNotes kind (renamedFields fs (planFrom kind taken fs).renames) := by
  induction fs generalizing taken with
  | nil => rfl
  | cons f fs ih =>
      rcases planFrom_cons kind taken f fs with
        ⟨hneeds, hrenames, hnotes⟩ | ⟨hneeds, htaken, hrenames, hnotes⟩ | ⟨hneeds, -, hplan⟩
      · -- a field that is renamed later needs camel case, so it has another key
        have hnone : ∀ r ∈ (planFrom kind taken fs).renames, r.isOf f = false := by
          intro r hr
          rw [Bool.eq_false_iff, ne_eq, Rename.isOf, Bool.and_eq_true, beq_iff_eq]
          rintro ⟨hkey, -⟩
          rw [← hkey, (mem_planFrom hr).1] at hneeds
          cases hneeds
        rw [hrenames, hnotes, renamedFields_cons_of_not_isOf hnone, snakeNotes_cons_of_neg hneeds,
          ih]
      · -- the new name of a field that is renamed later was not taken here
        have hnone : ∀ r ∈ (planFrom kind taken fs).renames, r.isOf f = false := by
          intro r hr
          rw [Bool.eq_false_iff, ne_eq, Rename.isOf, Bool.and_eq_true, beq_iff_eq]
          rintro ⟨hkey, -⟩
          obtain ⟨-, hnew, hfree⟩ := mem_planFrom hr
          rw [hnew, hkey] at hfree
          exact hfree htaken
        rw [hrenames, hnotes, renamedFields_cons_of_not_isOf hnone, snakeNotes_cons_of_pos hneeds,
          ih]
      · have hcamel : needsCamelize (f.withKey (camelize f.key)).key = false :=
          Naming.needsCamelize_camelize hneeds
        rw [hplan, Plan.renames_rename, renamedFields_cons_camelRename,
          snakeNotes_cons_of_neg hcamel]
        exact ih

end Notes

/-- **A plan that is carried out leaves nothing to be planned.**  In a map with
entries of any kind, repeated keys among them, let the planned renames be carried
out: each field stays as it is or gets its key in camel case.  Planning once more
renames nothing.  The first plan warns about the fields that are still in snake
case, in their order, and the second one about the same fields in the same words. -/
theorem planning_again_finds_nothing (map : FieldMap) :
    List.Forall₂ (fun f g => g = f ∨ g = f.withKey (camelize f.key)) map.fields
      (map.renamed (plan map).renames).fields ∧
    (plan (map.renamed (plan map).renames)).renames = [] ∧
    (plan map).collisions = snakeNotes map.kind (map.renamed (plan map).renames).fields ∧
    (plan (map.renamed (plan map).renames)).collisions = (plan map).collisions := by
  have hsettled : AreSettled (map.renamed (plan map).renames).keys := by
    rw [keys_renamed]
    exact areSettled_keysAfter_plan map
  have hfirst : (plan map).collisions =
      snakeNotes map.kind (map.renamed (plan map).renames).fields := by
    rw [fields_renamed]
    exact collisions_planFrom_eq
  refine ⟨?_, renames_eq_nil_iff.mpr hsettled, hfirst, ?_⟩
  · rw [fields_renamed]
    exact forall₂_renamedFields fun r hr => (mem_planFrom hr).2.1
  · rw [hfirst]
    exact collisions_planFrom_of_taken fun f hf hneeds =>
      hsettled f.key (List.mem_map_of_mem hf) hneeds

/-- A map with a repeated key in snake case, of which only the first field is
renamed. -/
example :
    let map : FieldMap := .mk .arguments ⟨0, 40⟩
      [.field "a_b" ⟨2, 5⟩ true ⟨2, 5⟩ (.reference "a_b" ⟨2, 5⟩), .spread "more" ⟨7, 14⟩,
        .field "a_b" ⟨16, 19⟩ false ⟨16, 22⟩ (.reference "x" ⟨21, 22⟩)]
    (map.renamed (plan map).renames).keys = ["aB", "a_b"] ∧
    (plan map).collisions.map (·.span) = [⟨16, 22⟩] := by
  decide

end GraphMigrate
