/-
Keys of which nothing is renamed any more.

A map is settled if every key in snake case has its form in camel case beside
it, so that no rename of it can be planned.  Renames settle a map, repeated
keys or not, as long as all of them are carried out.  If one is left out, its key
is still there and its new name is not: the map is renamed once more.

* `AreSettled`, `renames_eq_nil_iff`: keys of which nothing is renamed;
* `keysAfter`: the keys of a map when some renames are carried out;
* `newNames_subset_keysAfter`, `mem_keysAfter_of_kept`, `mem_or_of_mem_keysAfter`:
  which keys these are;
* `areSettled_keysAfter_iff`: **the keys are settled exactly if all planned
  renames are carried out**.
-/
import GraphMigrate.Proofs.Arguments.DistinctKeys

namespace GraphMigrate

open Naming (camelize needsCamelize)

/-- Of each key in snake case the form in camel case is a key as well. -/
def AreSettled (keys : List String) : Prop :=
  ∀ key ∈ keys, needsCamelize key = true → camelize key ∈ keys

instance (keys : List String) : Decidable (AreSettled keys) :=
  inferInstanceAs (Decidable (∀ key ∈ keys, needsCamelize key = true → camelize key ∈ keys))

/-- Nothing is planned for a map exactly if its keys are settled. -/
lemma renames_eq_nil_iff {map : FieldMap} : (plan map).renames = [] ↔ AreSettled map.keys := by
  rw [plan, renames_planFrom_eq_nil_iff, AreSettled, FieldMap.keys, List.forall_mem_map]

/-- A rename is one of a field. -/
def Rename.isOf (rename : Rename) (field : NamedEntry) : Bool :=
  rename.field.key == field.key && rename.field.keySpan == field.keySpan

/-- The keys of fields when renames of some of them, in the order of the fields,
are carried out. -/
def keysAfter : List NamedEntry → List Rename → List String
  | [], _ => []
  | f :: fs, [] => f.key :: keysAfter fs []
  | f :: fs, r :: rs =>
    if r.isOf f then r.newName :: keysAfter fs rs else f.key :: keysAfter fs (r :: rs)

section Keys

variable {fs : List NamedEntry} {rs : List Rename} {key : String}

/-- Carried out, a rename gives its new name. -/
lemma newNames_subset_keysAfter (h : (rs.map (·.field)).Sublist fs) :
    newNames rs ⊆ keysAfter fs rs := by
  induction fs generalizing rs with
  | nil =>
      rw [List.sublist_nil, List.map_eq_nil_iff] at h
      rw [h]
      exact List.Subset.refl _
  | cons f fs ih =>
      cases rs with
      | nil => exact List.nil_subset _
      | cons r rs =>
          rw [List.map_cons, List.cons_sublist_cons'] at h
          rw [keysAfter]
          split
          next =>
            refine List.cons_subset_cons _ (ih ?_)
            rcases h with h | ⟨-, h⟩
            · exact (List.sublist_cons_self _ _).trans h
            · exact h
          next hother =>
            refine List.subset_cons_of_subset _ (ih ?_)
            rcases h with h | ⟨heq, -⟩
            · exact h
            · exact absurd (by simp [Rename.isOf, heq]) hother

/-- A key that no rename replaces stays. -/
lemma mem_keysAfter_of_kept {f : NamedEntry} (hf : f ∈ fs) (hkept : f.key ∉ oldNames rs) :
    f.key ∈ keysAfter fs rs := by
  induction fs generalizing rs with
  | nil => cases hf
  | cons g fs ih =>
      cases rs with
      | nil =>
          rw [keysAfter]
          rcases List.mem_cons.mp hf with rfl | hf
          · exact List.mem_cons_self
          · exact List.mem_cons_of_mem _ (ih hf hkept)
      | cons r rs =>
          rw [oldNames, List.map_cons, List.mem_cons, not_or] at hkept
          rw [keysAfter]
          split
          next hof =>
            rcases List.mem_cons.mp hf with rfl | hf
            · rw [Rename.isOf, Bool.and_eq_true, beq_iff_eq] at hof
              exact absurd hof.1.symm hkept.1
            · exact List.mem_cons_of_mem _ (ih hf hkept.2)
          next =>
            rcases List.mem_cons.mp hf with rfl | hf
            · exact List.mem_cons_self
            · refine List.mem_cons_of_mem _ (ih hf ?_)
              rw [oldNames, List.map_cons, List.mem_cons, not_or]
              exact hkept

/-- No other keys come up. -/
lemma mem_or_of_mem_keysAfter (h : key ∈ keysAfter fs rs) :
    key ∈ newNames rs ∨ key ∈ fs.map (·.key) := by
  induction fs generalizing rs with
  | nil => cases h
  | cons f fs ih =>
      rw [List.map_cons, List.mem_cons]
      cases rs with
      | nil =>
          rw [keysAfter] at h
          rcases List.mem_cons.mp h with heq | h
          · exact .inr (.inl heq)
          · exact (ih h).imp_right .inr
      | cons r rs =>
          rw [keysAfter] at h
          split at h
          next =>
            rw [newNames, List.map_cons, List.mem_cons]
            rcases List.mem_cons.mp h with heq | h
            · exact .inl (.inl heq)
            · exact (ih h).imp .inr .inr
          next =>
            rcases List.mem_cons.mp h with heq | h
            · exact .inr (.inl heq)
            · exact (ih h).imp_right .inr

end Keys

section Maps

variable {map : FieldMap} {carried : List Rename}

/-- If all renames are carried out, nothing is left to be renamed. -/
lemma areSettled_keysAfter_plan (map : FieldMap) :
    AreSettled (keysAfter map.fields (plan map).renames) := by
  have hnew := newNames_subset_keysAfter (sublist_planFrom map.kind map.keys map.fields)
  intro key hkey hneeds
  rcases mem_or_of_mem_keysAfter hkey with hgiven | hown
  · exact absurd (Naming.underscore_mem_of_needsCamelize hneeds) (underscore_notMem_newName hgiven)
  · obtain ⟨f, hf, rfl⟩ := List.mem_map.mp hown
    by_cases hrenamed : f.key ∈ oldNames (plan map).renames
    · exact hnew (keyAfter_of_renamed hrenamed).2.1
    · rcases mem_or_mem_newNames (mem_snakeFields.mpr ⟨hf, hneeds⟩) hrenamed with htaken | hgiven
      · obtain ⟨g, hg, hkey⟩ := List.mem_map.mp htaken
        -- what is in camel case is not replaced
        rw [← hkey]
        refine mem_keysAfter_of_kept hg fun hmem => ?_
        obtain ⟨r, hr, hrkey⟩ := List.mem_map.mp hmem
        exact Naming.camelize_ne_of_needsCamelize hneeds (mem_planFrom hr).1 (by rw [hrkey, hkey])
      · exact hnew hgiven

/-- A planned rename with the new name of another is that. -/
lemma eq_of_newName_eq {r s : Rename} (hr : r ∈ (plan map).renames) (hs : s ∈ (plan map).renames)
    (h : r.newName = s.newName) : r = s :=
  List.inj_on_of_nodup_map (nodup_newNames map) hr hs h

/-- A rename that is left out is planned again: its key stays, and nothing else
gets its new name. -/
lemma not_areSettled_keysAfter (h : carried.Sublist (plan map).renames) {r : Rename}
    (hr : r ∈ (plan map).renames) (hleft : r ∉ carried) :
    ¬ AreSettled (keysAfter map.fields carried) := by
  obtain ⟨hneeds, hnew, hfree⟩ := mem_planFrom hr
  have hgiven : r.newName ∉ newNames carried := by
    intro hmem
    obtain ⟨s, hs, heq⟩ := List.mem_map.mp hmem
    exact hleft (eq_of_newName_eq (h.subset hs) hr heq ▸ hs)
  have hkept : r.field.key ∉ oldNames carried := by
    intro hmem
    obtain ⟨s, hs, heq⟩ := List.mem_map.mp hmem
    refine hgiven (List.mem_map.mpr ⟨s, hs, ?_⟩)
    rw [(mem_planFrom (h.subset hs)).2.1, hnew, heq]
  have hfield : r.field ∈ map.fields :=
    (sublist_planFrom _ _ _).subset (List.mem_map_of_mem hr)
  intro hsettled
  have htaken := hsettled _ (mem_keysAfter_of_kept hfield hkept) hneeds
  rw [← hnew] at htaken
  exact (mem_or_of_mem_keysAfter htaken).elim hgiven hfree

/-- **Renames settle the keys of a map exactly if all of them are carried out.**
The map may have repeated keys, and entries of any kind. -/
theorem areSettled_keysAfter_iff (h : carried.Sublist (plan map).renames) :
    AreSettled (keysAfter map.fields carried) ↔ ∀ r ∈ (plan map).renames, r ∈ carried := by
  constructor
  · intro hsettled r hr
    by_contra hleft
    exact not_areSettled_keysAfter h hr hleft hsettled
  · intro hall
    have hnodup : (plan map).renames.Nodup := (nodup_newNames map).of_map _
    have hperm : (plan map).renames.Subperm carried := hnodup.subperm hall
    rw [h.eq_of_length_le hperm.length_le]
    exact areSettled_keysAfter_plan map

end Maps

end GraphMigrate
