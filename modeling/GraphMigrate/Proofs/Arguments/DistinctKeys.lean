/-
Renames that keep the keys of a map apart.

A plan goes through the fields of a map in their order and gives up a
rename only where the new name is taken.  A name in camel case that is
taken once stays taken: only names that are replaced become free, and those
are in snake case.  So whatever takes a new name away from a field still
has it when all renames are made, and of several fields that would get one
name only the first can.

* `planFrom_cons`: what the planning does at a field;
* `renames_planFrom`, `collisions_planFrom`: each field in snake case is
  renamed or noted, once;
* `mem_or_mem_newNames`: a name that was taken at some step is taken from
  the start or given by the plan;
* `keyAfter`: the key of a field when the renames are made;
* `plan_keeps_keys_distinct`: **renames keep the keys of a map distinct, and
  a rename is given up only where another entry has the new name**.
-/
import GraphMigrate.Proofs.Arguments.RenamePlan

namespace GraphMigrate

open Naming (camelize needsCamelize)

/-- The fields whose keys are in snake case. -/
def snakeFields (fields : List NamedEntry) : List NamedEntry :=
  fields.filter fun f => needsCamelize f.key

/-- Whether renames replace the key of a field. -/
def isRenamed (renames : List Rename) (field : NamedEntry) : Bool :=
  (oldNames renames).contains field.key

/-- The warnings about names that are taken. -/
def Plan.collisions (plan : Plan) : List Diagnostic :=
  plan.notes.filter (·.severity == .warning)

/-- The rename of a field. -/
def camelRename (field : NamedEntry) : Rename := ⟨field, camelize field.key⟩

lemma isRenamed_iff {renames : List Rename} {field : NamedEntry} :
    isRenamed renames field = true ↔ field.key ∈ oldNames renames :=
  List.contains_iff_mem

lemma mem_snakeFields {fields : List NamedEntry} {f : NamedEntry} :
    f ∈ snakeFields fields ↔ f ∈ fields ∧ needsCamelize f.key = true :=
  List.mem_filter

section Cons

variable {f : NamedEntry} {fs : List NamedEntry}

lemma snakeFields_cons_of_pos (h : needsCamelize f.key = true) :
    snakeFields (f :: fs) = f :: snakeFields fs := by
  rw [snakeFields, List.filter_cons, if_pos h, snakeFields]

lemma snakeFields_cons_of_neg (h : needsCamelize f.key = false) :
    snakeFields (f :: fs) = snakeFields fs := by
  rw [snakeFields, List.filter_cons, if_neg (ne_true_of_eq_false h), snakeFields]

end Cons

/-! ### One field -/

section Step

variable (kind : MapKind) (taken : List String) (f : NamedEntry) (fs : List NamedEntry)

/-- What the planning does at a field.  A field that is not in snake case is
passed over, a field whose new name is taken is noted, and any other is
renamed. -/
lemma planFrom_cons :
    (needsCamelize f.key = false ∧
      (planFrom kind taken (f :: fs)).renames = (planFrom kind taken fs).renames ∧
      (planFrom kind taken (f :: fs)).collisions = (planFrom kind taken fs).collisions) ∨
    (needsCamelize f.key = true ∧ camelize f.key ∈ taken ∧
      (planFrom kind taken (f :: fs)).renames = (planFrom kind taken fs).renames ∧
      (planFrom kind taken (f :: fs)).collisions =
        collisionNote kind f (camelize f.key) :: (planFrom kind taken fs).collisions) ∨
    (needsCamelize f.key = true ∧ camelize f.key ∉ taken ∧
      planFrom kind taken (f :: fs) =
        (planFrom kind (camelize f.key :: taken.filter (· != f.key)) fs).rename
          (camelRename f)) := by
  by_cases hid : kind == .output && f.key == "__id"
  · -- the reserved name starts with two underscores
    have hkey : f.key = "__id" := by
      rw [Bool.and_eq_true, beq_iff_eq, beq_iff_eq] at hid
      exact hid.2
    refine .inl ⟨by rw [hkey]; decide, ?_, ?_⟩
    · rw [planFrom, if_pos hid]
      rfl
    · rw [planFrom, if_pos hid]
      rfl
  · cases hneeds : needsCamelize f.key with
    | false => exact .inl ⟨rfl, by simp [planFrom, hid, hneeds], by simp [planFrom, hid, hneeds]⟩
    | true =>
        by_cases htaken : camelize f.key ∈ taken
        · refine .inr (.inl ⟨rfl, htaken, ?_, ?_⟩)
          · simp [planFrom, hid, hneeds, htaken, Plan.note]
          · simp [planFrom, hid, hneeds, htaken, Plan.note, Plan.collisions, collisionNote,
              Diagnostic.warning]
        · exact .inr (.inr ⟨rfl, htaken, by simp [planFrom, hid, hneeds, htaken, camelRename]⟩)

end Step

/-! ### All fields -/

section Plans

variable {kind : MapKind} {taken : List String} {fs : List NamedEntry}

/-- Only keys of the fields are replaced. -/
lemma oldNames_planFrom_subset :
    oldNames (planFrom kind taken fs).renames ⊆ fs.map (·.key) := by
  have hsub := (sublist_planFrom kind taken fs).map (·.key)
  rw [List.map_map] at hsub
  exact hsub.subset

/-- A field that is not planned for keeps its key. -/
lemma isRenamed_of_notMem {f : NamedEntry} (hf : f.key ∉ fs.map (·.key)) :
    isRenamed (planFrom kind taken fs).renames f = false := by
  rw [Bool.eq_false_iff, ne_eq, isRenamed_iff]
  exact fun hmem => hf (oldNames_planFrom_subset hmem)

/-- Whether the fields behind a first one are renamed does not depend on the
first one, as its key differs from theirs. -/
lemma isRenamed_cons_congr {f : NamedEntry} (hfirst : f.key ∉ fs.map (·.key)) {r : Rename}
    (hr : r.field = f) (renames : List Rename) :
    ∀ g ∈ snakeFields fs, isRenamed (r :: renames) g = isRenamed renames g := by
  intro g hg
  have hne : g.key ≠ f.key := fun heq =>
    hfirst (heq ▸ List.mem_map.mpr ⟨g, (mem_snakeFields.mp hg).1, rfl⟩)
  rw [Bool.eq_iff_iff, isRenamed_iff, isRenamed_iff, oldNames, List.map_cons, List.mem_cons, hr]
  exact or_iff_right hne

/-- Each field in snake case that is not passed over for its name gets one
rename, to its form in camel case. -/
lemma renames_planFrom (hkeys : (fs.map (·.key)).Nodup) :
    (planFrom kind taken fs).renames =
      ((snakeFields fs).filter (isRenamed (planFrom kind taken fs).renames)).map camelRename := by
  induction fs generalizing taken with
  | nil => rfl
  | cons f fs ih =>
      obtain ⟨hfirst, hkeys⟩ := List.nodup_cons.mp hkeys
      have hnot : isRenamed (planFrom kind taken fs).renames f = false :=
        isRenamed_of_notMem hfirst
      rcases planFrom_cons kind taken f fs with
        ⟨hneeds, hrenames, -⟩ | ⟨hneeds, -, hrenames, -⟩ | ⟨hneeds, -, hplan⟩
      · rw [hrenames, snakeFields_cons_of_neg hneeds]
        exact ih hkeys
      · rw [hrenames, snakeFields_cons_of_pos hneeds,
          List.filter_cons_of_neg (by simp [hnot])]
        exact ih hkeys
      · rw [hplan, Plan.renames_rename, snakeFields_cons_of_pos hneeds,
          List.filter_cons_of_pos (by simp [isRenamed, oldNames, camelRename]),
          List.filter_congr (isRenamed_cons_congr hfirst rfl _), List.map_cons]
        exact congrArg _ (ih hkeys)

/-- Each field in snake case that keeps its key is noted once. -/
lemma collisions_planFrom (hkeys : (fs.map (·.key)).Nodup) :
    (planFrom kind taken fs).collisions =
      ((snakeFields fs).filter fun f => !isRenamed (planFrom kind taken fs).renames f).map
        fun f => collisionNote kind f (camelize f.key) := by
  induction fs generalizing taken with
  | nil => rfl
  | cons f fs ih =>
      obtain ⟨hfirst, hkeys⟩ := List.nodup_cons.mp hkeys
      have hnot : isRenamed (planFrom kind taken fs).renames f = false :=
        isRenamed_of_notMem hfirst
      rcases planFrom_cons kind taken f fs with
        ⟨hneeds, hrenames, hnotes⟩ | ⟨hneeds, -, hrenames, hnotes⟩ | ⟨hneeds, -, hplan⟩
      · rw [hrenames, hnotes, snakeFields_cons_of_neg hneeds]
        exact ih hkeys
      · rw [hrenames, hnotes, snakeFields_cons_of_pos hneeds,
          List.filter_cons_of_pos (by simp [hnot]), List.map_cons]
        exact congrArg _ (ih hkeys)
      · rw [hplan, Plan.renames_rename, snakeFields_cons_of_pos hneeds,
          List.filter_cons_of_neg (by simp [isRenamed, oldNames, camelRename]),
          List.filter_congr fun g hg =>
            congrArg (!·) (isRenamed_cons_congr hfirst rfl _ g hg)]
        exact ih hkeys

/-- The new name of a field that keeps its key was taken from the start, or
another field has got it. -/
lemma mem_or_mem_newNames {f : NamedEntry} (hf : f ∈ snakeFields fs)
    (hkept : f.key ∉ oldNames (planFrom kind taken fs).renames) :
    camelize f.key ∈ taken ∨ camelize f.key ∈ newNames (planFrom kind taken fs).renames := by
  induction fs generalizing taken with
  | nil => simp [snakeFields] at hf
  | cons g fs ih =>
      obtain ⟨hmem, hneeds⟩ := mem_snakeFields.mp hf
      rcases planFrom_cons kind taken g fs with
        ⟨hg, hrenames, -⟩ | ⟨-, htaken, hrenames, -⟩ | ⟨-, -, hplan⟩
      · rw [hrenames] at hkept ⊢
        rcases List.mem_cons.mp hmem with rfl | hmem
        · rw [hg] at hneeds
          cases hneeds
        · exact ih (mem_snakeFields.mpr ⟨hmem, hneeds⟩) hkept
      · rw [hrenames] at hkept ⊢
        rcases List.mem_cons.mp hmem with rfl | hmem
        · exact .inl htaken
        · exact ih (mem_snakeFields.mpr ⟨hmem, hneeds⟩) hkept
      · rw [hplan, Plan.renames_rename, oldNames, List.map_cons, List.mem_cons, not_or] at hkept
        rw [hplan, Plan.renames_rename, newNames, List.map_cons, List.mem_cons]
        rcases List.mem_cons.mp hmem with rfl | hmem
        · exact absurd rfl hkept.1
        · rcases ih (mem_snakeFields.mpr ⟨hmem, hneeds⟩) hkept.2 with htaken | hnew
          · rcases List.mem_cons.mp htaken with heq | htaken
            · exact .inr (.inl heq)
            · exact .inl (List.mem_of_mem_filter htaken)
          · exact .inr (.inr hnew)

/-- A name in camel case that is taken is not given any more, so of several
fields that would get one name only the first may. -/
lemma pairwise_planFrom (hkeys : (fs.map (·.key)).Nodup) :
    (snakeFields fs).Pairwise fun f g =>
      camelize f.key = camelize g.key → g.key ∉ oldNames (planFrom kind taken fs).renames := by
  induction fs generalizing taken with
  | nil => exact .nil
  | cons f fs ih =>
      obtain ⟨hfirst, hkeys⟩ := List.nodup_cons.mp hkeys
      have hlater : ∀ taken', camelize f.key ∈ taken' → ∀ g ∈ snakeFields fs,
          camelize f.key = camelize g.key → g.key ∉ oldNames (planFrom kind taken' fs).renames := by
        intro taken' htaken g _ heq hmem
        obtain ⟨r, hr, hkey⟩ := List.mem_map.mp hmem
        obtain ⟨-, hnew, hfree⟩ := mem_planFrom hr
        rw [hnew, hkey, ← heq] at hfree
        exact hfree htaken
      rcases planFrom_cons kind taken f fs with
        ⟨hneeds, hrenames, -⟩ | ⟨hneeds, htaken, hrenames, -⟩ | ⟨hneeds, -, hplan⟩
      · rw [hrenames, snakeFields_cons_of_neg hneeds]
        exact ih hkeys
      · rw [hrenames, snakeFields_cons_of_pos hneeds]
        exact .cons (hlater taken htaken) (ih hkeys)
      · have hkept : ∀ g ∈ snakeFields fs, ∀ renames, g.key ∉ oldNames renames →
            g.key ∉ oldNames (camelRename f :: renames) := by
          intro g hg renames hnot hmem
          rw [← isRenamed_iff, isRenamed_cons_congr hfirst rfl _ g hg, isRenamed_iff] at hmem
          exact hnot hmem
        rw [hplan, Plan.renames_rename, snakeFields_cons_of_pos hneeds]
        refine .cons (fun g hg heq => hkept g hg _ (hlater _ List.mem_cons_self g hg heq)) ?_
        exact (ih hkeys).imp_of_mem fun _ hg hpair heq => hkept _ hg _ (hpair heq)

end Plans

/-! ### The keys afterwards -/

/-- The key of a field when the renames are made. -/
def keyAfter (renames : List Rename) (field : NamedEntry) : String :=
  match renames.find? (·.field.key == field.key) with
  | some rename => rename.newName
  | none => field.key

section Keys

variable {map : FieldMap}

lemma keyAfter_of_kept {renames : List Rename} {f : NamedEntry} (h : f.key ∉ oldNames renames) :
    keyAfter renames f = f.key := by
  have hnone : renames.find? (·.field.key == f.key) = none := by
    rw [List.find?_eq_none]
    intro r hr heq
    exact h (List.mem_map.mpr ⟨r, hr, eq_of_beq heq⟩)
  rw [keyAfter, hnone]

/-- A field whose key is replaced has its form in camel case afterwards. -/
lemma keyAfter_of_renamed {f : NamedEntry} (h : f.key ∈ oldNames (plan map).renames) :
    keyAfter (plan map).renames f = camelize f.key ∧
      camelize f.key ∈ newNames (plan map).renames ∧
      camelize f.key ∉ map.fields.map (·.key) := by
  obtain ⟨r, hr, hkey⟩ := List.mem_map.mp h
  obtain ⟨-, hnew, hfree⟩ := mem_planFrom hr
  rw [hkey] at hnew
  refine ⟨?_, List.mem_map.mpr ⟨r, hr, hnew⟩, hnew ▸ hfree⟩
  cases hfind : (plan map).renames.find? (·.field.key == f.key) with
  | none => exact absurd (beq_iff_eq.mpr hkey) (List.find?_eq_none.mp hfind r hr)
  | some s =>
      have hs := List.mem_of_find?_eq_some hfind
      have hskey : s.field.key = f.key := by simpa using List.find?_some hfind
      rw [keyAfter, hfind]
      dsimp only
      rw [(mem_planFrom hs).2.1, hskey]

/-- Two fields with one new name are one field. -/
lemma key_eq_of_camelize_eq {f g : NamedEntry} (hf : f.key ∈ oldNames (plan map).renames)
    (hg : g.key ∈ oldNames (plan map).renames) (heq : camelize f.key = camelize g.key) :
    f.key = g.key := by
  obtain ⟨r, hr, hrkey⟩ := List.mem_map.mp hf
  obtain ⟨s, hs, hskey⟩ := List.mem_map.mp hg
  have hnew : r.newName = s.newName := by
    rw [(mem_planFrom hr).2.1, (mem_planFrom hs).2.1, hrkey, hskey, heq]
  rw [← hrkey, ← hskey, List.inj_on_of_nodup_map (nodup_newNames map) hr hs hnew]

/-- Fields with different keys have different keys afterwards. -/
lemma keyAfter_injOn {f g : NamedEntry} (hf : f ∈ map.fields) (hg : g ∈ map.fields)
    (heq : keyAfter (plan map).renames f = keyAfter (plan map).renames g) : f.key = g.key := by
  by_cases hfr : f.key ∈ oldNames (plan map).renames
  · obtain ⟨hfkey, -, hffree⟩ := keyAfter_of_renamed hfr
    by_cases hgr : g.key ∈ oldNames (plan map).renames
    · rw [hfkey, (keyAfter_of_renamed hgr).1] at heq
      exact key_eq_of_camelize_eq hfr hgr heq
    · -- a new name is the key of no field
      rw [hfkey, keyAfter_of_kept hgr] at heq
      exact absurd (List.mem_map.mpr ⟨g, hg, heq.symm⟩) hffree
  · by_cases hgr : g.key ∈ oldNames (plan map).renames
    · obtain ⟨hgkey, -, hgfree⟩ := keyAfter_of_renamed hgr
      rw [keyAfter_of_kept hfr, hgkey] at heq
      exact absurd (List.mem_map.mpr ⟨f, hf, heq⟩) hgfree
    · rwa [keyAfter_of_kept hfr, keyAfter_of_kept hgr] at heq

/-- Whatever takes the new name of a field away has that name afterwards. -/
lemma exists_keyAfter_eq {f : NamedEntry} (hf : f ∈ snakeFields map.fields)
    (hkept : f.key ∉ oldNames (plan map).renames) :
    ∃ g ∈ map.fields, g.key ≠ f.key ∧ keyAfter (plan map).renames g = camelize f.key := by
  obtain ⟨-, hneeds⟩ := mem_snakeFields.mp hf
  rcases mem_or_mem_newNames hf hkept with htaken | hnew
  · obtain ⟨g, hg, hkey⟩ := List.mem_map.mp htaken
    have hgkept : g.key ∉ oldNames (plan map).renames := by
      intro hmem
      obtain ⟨r, hr, hrkey⟩ := List.mem_map.mp hmem
      exact Naming.camelize_ne_of_needsCamelize hneeds (mem_planFrom hr).1 (by rw [hrkey, hkey])
    refine ⟨g, hg, fun heq => ?_, by rw [keyAfter_of_kept hgkept, hkey]⟩
    exact Naming.camelize_ne_of_needsCamelize hneeds hneeds (by rw [← hkey, heq])
  · obtain ⟨r, hr, hrnew⟩ := List.mem_map.mp hnew
    have hold : r.field.key ∈ oldNames (plan map).renames := List.mem_map.mpr ⟨r, hr, rfl⟩
    have hfield : r.field ∈ map.fields :=
      (sublist_planFrom _ _ _).subset (List.mem_map.mpr ⟨r, hr, rfl⟩)
    refine ⟨r.field, hfield, fun heq => hkept (heq ▸ hold), ?_⟩
    rw [(keyAfter_of_renamed hold).1, ← (mem_planFrom hr).2.1, hrnew]

end Keys

/-- **Renames keep the keys of a map distinct, and give up only where they
must.**  Let the keys of the fields of a map differ from each other.  Then
they do so when the planned renames are made.  Of the fields in snake case,
in their order, each is either renamed to its form in camel case, or one
warning says that this name is taken; such a warning is given only where
another field has that name when the renames are made.  Of several fields
that would get one name, none but the first is renamed. -/
theorem plan_keeps_keys_distinct (map : FieldMap) (hkeys : (map.fields.map (·.key)).Nodup) :
    (map.fields.map (keyAfter (plan map).renames)).Nodup ∧
    (plan map).renames =
      ((snakeFields map.fields).filter (isRenamed (plan map).renames)).map camelRename ∧
    (plan map).collisions =
      ((snakeFields map.fields).filter fun f => !isRenamed (plan map).renames f).map
        (fun f => collisionNote map.kind f (camelize f.key)) ∧
    (∀ f ∈ snakeFields map.fields, isRenamed (plan map).renames f = false →
      ∃ g ∈ map.fields, g.key ≠ f.key ∧ keyAfter (plan map).renames g = camelize f.key) ∧
    (snakeFields map.fields).Pairwise fun f g =>
      camelize f.key = camelize g.key → isRenamed (plan map).renames g = false := by
  have hkept : ∀ f, isRenamed (plan map).renames f = false ↔ f.key ∉ oldNames (plan map).renames :=
    fun f => by rw [Bool.eq_false_iff, ne_eq, isRenamed_iff]
  refine ⟨?_, renames_planFrom hkeys, collisions_planFrom hkeys, fun f hf h => ?_, ?_⟩
  · refine List.Nodup.map_on (fun f hf g hg heq => ?_) hkeys.of_map
    exact List.inj_on_of_nodup_map hkeys hf hg (keyAfter_injOn hf hg heq)
  · exact exists_keyAfter_eq hf ((hkept f).mp h)
  · exact (pairwise_planFrom hkeys).imp fun h heq => (hkept _).mpr (h heq)

/-- Arguments of which the first finds its new name taken from the start,
and the last finds it given to the one before. -/
def saleArguments : FieldMap :=
  .mk .arguments ⟨0, 70⟩
    [.field "sale_id" ⟨2, 9⟩ false ⟨2, 15⟩ (.reference "Text" ⟨11, 15⟩),
      .field "saleID" ⟨17, 23⟩ false ⟨17, 29⟩ (.reference "Text" ⟨25, 29⟩),
      .field "page_size" ⟨31, 40⟩ false ⟨31, 46⟩ (.reference "Text" ⟨42, 46⟩),
      .field "page__size" ⟨48, 58⟩ false ⟨48, 64⟩ (.reference "Text" ⟨60, 64⟩)]

/-- Two of three arguments in snake case keep their keys. -/
theorem sale_arguments_stay_distinct :
    (saleArguments.fields.map (·.key)).Nodup ∧
    saleArguments.fields.map (keyAfter (plan saleArguments).renames) =
      ["sale_id", "saleID", "pageSize", "page__size"] ∧
    (saleArguments.fields.map (keyAfter (plan saleArguments).renames)).Nodup ∧
    (plan saleArguments).collisions.map (·.span) = [⟨2, 15⟩, ⟨48, 64⟩] := by
  have hkeys : (saleArguments.fields.map (·.key)).Nodup := by decide
  obtain ⟨hdistinct, -, hcollisions, -⟩ := plan_keeps_keys_distinct saleArguments hkeys
  refine ⟨hkeys, by decide, hdistinct, ?_⟩
  rw [hcollisions]
  decide

end GraphMigrate
