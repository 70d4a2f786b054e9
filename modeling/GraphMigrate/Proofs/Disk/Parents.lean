/-
Paths and what is above them.

A path has the path above it for a parent: its components but for the last
one.  The root and the empty path have none, so whoever goes up from a path
comes to an end.  From the path of a place this leads through the places
above it up to the root.

* `Path.components_parent?`: a parent has all components but the last one;
* `Path.upwards`, `Path.up?`: a path with all those above it, and the one that
  is some steps above;
* `Disk.upwards_absolute`: above the path of a place are the paths of the
  places above it;
* `Disk.resolve?_absolute`: the path of a place leads to it.
-/
import GraphMigrate.Proofs.Disk.Listing
import GraphMigrate.Proofs.Disk.Writing
import Mathlib.Data.List.DropRight
import Mathlib.Tactic

namespace GraphMigrate

namespace Path

/-! ### Components of a path by its parts -/

lemma slash_notMem_of_mem_parts {cs part : List Char} (h : part ∈ parts cs) : '/' ∉ part := by
  induction cs generalizing part with
  | nil =>
      rw [parts, List.mem_singleton] at h
      subst h
      exact List.not_mem_nil
  | cons c cs ih =>
      obtain ⟨first, later, hparts⟩ := List.exists_cons_of_ne_nil (parts_ne_nil cs)
      rw [hparts] at ih
      rw [parts, hparts] at h
      split at h
      case isTrue =>
        rcases List.mem_cons.mp h with rfl | h
        · exact List.not_mem_nil
        · exact ih h
      case isFalse hc =>
        rcases List.mem_cons.mp h with rfl | h
        · exact List.not_mem_cons_of_ne_of_not_mem (Ne.symm hc) (ih List.mem_cons_self)
        · exact ih (List.mem_cons_of_mem _ h)

lemma isAbsolute_iff {path : String} {first : List Char} {later : List (List Char)}
    (h : parts path.toList = first :: later) :
    isAbsolute path ↔ first = [] ∧ later ≠ [] := by
  rw [isAbsolute]
  cases hpath : path.toList with
  | nil =>
      rw [hpath, parts] at h
      obtain ⟨rfl, rfl⟩ := List.cons.inj h
      simp
  | cons c cs =>
      obtain ⟨part, parts', hparts⟩ := List.exists_cons_of_ne_nil (parts_ne_nil cs)
      rw [hpath, parts, hparts] at h
      split at h
      case isTrue hc =>
        obtain ⟨rfl, rfl⟩ := List.cons.inj h
        simp [hc]
      case isFalse hc =>
        obtain ⟨rfl, rfl⟩ := List.cons.inj h
        simp [hc]

/-- The first part of a path counts if it is not all there is or not empty, and
of the later ones those that name something. -/
lemma components_eq {path : String} {first : List Char} {later : List (List Char)}
    (h : parts path.toList = first :: later) :
    components path = if first = [] ∧ later = [] then [] else first :: later.filter isNamed := by
  have habsolute := isAbsolute_iff h
  simp only [components, h]
  by_cases hfirst : first = []
  · by_cases hlater : later = [] <;> simp [hfirst, hlater, habsolute]
  · simp [hfirst, habsolute]

/-- Parts that are put together are the components, but for unnamed ones behind
the first. -/
lemma components_ofParts {first : List Char} {later : List (List Char)}
    (h : ∀ part ∈ first :: later, '/' ∉ part) :
    components (ofParts (first :: later)) = first :: later.filter isNamed := by
  by_cases hroot : first = [] ∧ later = []
  · obtain ⟨rfl, rfl⟩ := hroot
    rfl
  · have hparts : parts (ofParts (first :: later)).toList = first :: later := by
      rw [ofParts.eq_2 _ (by simpa using hroot), String.toList_ofList]
      exact parts_intercalate (List.cons_ne_nil _ _) h
    rw [components_eq hparts, if_neg hroot]

/-! ### Parents -/

/-- The parts up to the last one that names something. -/
lemma trimmed_cons (first : List Char) (later : List (List Char)) :
    trimmed (first :: later) = first :: later.rdropWhile (!isNamed ·) := rfl

lemma filter_rdropWhile (ps : List (List Char)) :
    (ps.rdropWhile (!isNamed ·)).filter isNamed = ps.filter isNamed := by
  induction ps using List.reverseRecOn with
  | nil => rfl
  | append_singleton ps p ih =>
      by_cases hp : isNamed p
      · rw [List.rdropWhile_concat_neg _ _ _ (by simpa using hp)]
      · rw [List.rdropWhile_concat_pos _ _ _ (by simpa using hp), ih, List.filter_append,
          List.filter_cons_of_neg hp, List.filter_nil, List.append_nil]

/-- The parent of a path by its parts: what the last part that names something
stands behind. -/
lemma parent?_eq {path : String} {first : List Char} {later : List (List Char)}
    (h : parts path.toList = first :: later) :
    parent? path =
      match (later.rdropWhile (!isNamed ·)).reverse with
      | [] => if first = [] then none else some ""
      | _ :: before =>
        some (ofParts (first :: before.reverse.rdropWhile (!isNamed ·))) := by
  rw [parent?, h, trimmed_cons]
  cases hkept : (later.rdropWhile (!isNamed ·)).reverse with
  | nil =>
      rw [List.reverse_eq_nil_iff.mp hkept]
      cases first <;> rfl
  | cons last before =>
      rw [List.reverse_eq_cons_iff.mp hkept]
      have hcons : before.reverse ++ [last] ≠ [] := List.concat_ne_nil last before.reverse
      obtain ⟨next, rest, hrest⟩ := List.exists_cons_of_ne_nil hcons
      have hfound : (first :: next :: rest).dropLast = first :: before.reverse := by
        rw [← hrest, ← List.cons_append, List.dropLast_concat]
      dsimp only
      rw [hrest, ← trimmed_cons, ← hfound]
      cases first <;> rfl

/-- **A parent has all components but the last one**, and only the root and
paths without components have none. -/
theorem components_parent? (path : String) :
    match parent? path with
    | none => components path = [] ∨ components path = [[]]
    | some parent => components path ≠ [] ∧ components parent = (components path).dropLast := by
  obtain ⟨first, later, hparts⟩ := List.exists_cons_of_ne_nil (parts_ne_nil path.toList)
  rw [parent?_eq hparts, components_eq hparts, ← filter_rdropWhile later]
  cases hkept : (later.rdropWhile (!isNamed ·)).reverse with
  | nil =>
      rw [List.reverse_eq_nil_iff.mp hkept]
      by_cases hfirst : first = []
      · simp [hfirst, em]
      · simp [hfirst, components, parts, isAbsolute]
  | cons last before =>
      -- the last part that is kept names something
      have hlast : isNamed last := by
        have hne : later.rdropWhile (!isNamed ·) ≠ [] := by
          rw [List.reverse_eq_cons_iff.mp hkept]
          exact List.concat_ne_nil _ _
        have hnamed := List.rdropWhile_last_not _ _ hne
        simpa [List.reverse_eq_cons_iff.mp hkept] using hnamed
      have hlater : later ≠ [] := by
        rintro rfl
        cases hkept
      have hslash : ∀ part ∈ first :: before.reverse.rdropWhile (!isNamed ·), '/' ∉ part := by
        intro part hpart
        have hbefore : part ∈ first :: later := by
          refine List.mem_cons.mpr ((List.mem_cons.mp hpart).imp_right fun hmem => ?_)
          have hfront := List.rdropWhile_prefix (!isNamed ·) (l := before.reverse)
          have hrest := List.rdropWhile_prefix (!isNamed ·) (l := later)
          rw [List.reverse_eq_cons_iff.mp hkept] at hrest
          exact hrest.subset (List.mem_append_left _ (hfront.subset hmem))
        exact slash_notMem_of_mem_parts (hparts ▸ hbefore)
      rw [List.reverse_eq_cons_iff.mp hkept]
      simp only [components_ofParts hslash, filter_rdropWhile, List.filter_append,
        List.filter_cons_of_pos hlast, List.filter_nil, hlater, and_false, if_false]
      exact ⟨List.cons_ne_nil _ _, by rw [← List.cons_append, List.dropLast_concat]⟩

/-! ### Going up -/

lemma length_components_lt {path parent : String} (h : parent? path = some parent) :
    (components parent).length < (components path).length := by
  have hparent := components_parent? path
  rw [h] at hparent
  rw [hparent.2, List.length_dropLast]
  have := List.length_pos_iff.mpr hparent.1
  omega

/-- A path and the paths above it, the nearest first. -/
def upwards (path : String) : List String :=
  path ::
    match _h : parent? path with
    | none => []
    | some parent => upwards parent
termination_by (components path).length
decreasing_by exact length_components_lt _h

/-- The path that is some steps above another one. -/
def up? : ℕ → String → Option String
  | 0, path => some path
  | steps + 1, path => (parent? path).bind (up? steps)

lemma upwards_of_parent {path parent : String} (h : parent? path = some parent) :
    upwards path = path :: upwards parent := by
  rw [upwards]
  split <;> simp_all

lemma upwards_of_no_parent {path : String} (h : parent? path = none) : upwards path = [path] := by
  rw [upwards]
  split <;> simp_all

/-- Going up comes to one path after the other. -/
lemma getElem?_upwards (path : String) (steps : ℕ) : (upwards path)[steps]? = up? steps path := by
  induction steps generalizing path with
  | zero =>
      rw [upwards]
      rfl
  | succ steps ih =>
      rw [up?]
      cases hparent : parent? path with
      | none =>
          rw [upwards_of_no_parent hparent]
          rfl
      | some parent =>
          rw [upwards_of_parent hparent, List.getElem?_cons_succ, ih]
          rfl

end Path

/-! ### Places and their paths -/

namespace Disk

open GraphMigrate.Path (isComponent isNamed parts parent? upwards)

variable {place : List String} {name : String}

lemma toList_absolute (place : List String) :
    (absolute place).toList = '/' :: ['/'].intercalate (place.map String.toList) := by
  simp [absolute, String.toList_intercalate]

lemma ne_empty_of_isComponent (h : isComponent name) : name.toList ≠ [] := by
  have hnamed := Path.isNamed_of_isComponent h
  rintro hempty
  rw [hempty] at hnamed
  cases hnamed

lemma isAbsolute_of_isComponent (h : isComponent name) : Path.isAbsolute name = false := by
  obtain ⟨c, rest, hc⟩ := List.exists_cons_of_ne_nil (ne_empty_of_isComponent h)
  have hslash := Path.slash_notMem_of_isComponent h
  rw [hc, List.mem_cons, not_or] at hslash
  simp [Path.isAbsolute, hc, Ne.symm hslash.1]

lemma absolute_concat (hne : place ≠ []) (name : String) :
    absolute (place ++ [name]) = absolute place ++ "/" ++ name := by
  rw [absolute, String.intercalate_append_of_ne_nil hne (List.cons_ne_nil _ _),
    String.intercalate_singleton, absolute, ← String.append_assoc, ← String.append_assoc]

lemma toList_absolute_concat (place : List String) (name : String) :
    ∃ front, (absolute (place ++ [name])).toList = front ++ '/' :: name.toList := by
  cases place with
  | nil => exact ⟨[], by simp [toList_absolute]⟩
  | cons first later =>
      rw [absolute_concat (List.cons_ne_nil _ _)]
      exact ⟨(absolute (first :: later)).toList, by simp⟩

/-- A name that is put behind the path of a place leads to the place below. -/
lemma join_absolute (hplace : ∀ name ∈ place, isComponent name) (hname : isComponent name) :
    Path.join (absolute place) name = absolute (place ++ [name]) := by
  have hbase : absolute place ≠ "" := by
    rw [ne_eq, ← String.toList_inj, toList_absolute]
    exact List.cons_ne_nil _ _
  rw [Path.join, if_neg (by simp [isAbsolute_of_isComponent hname, hbase])]
  induction place using List.reverseRecOn with
  | nil =>
      rw [if_pos (by decide +kernel)]
      rfl
  | append_singleton place last =>
      -- the path ends with the last name, so the slash is missing
      have hlast := hplace last (List.mem_append_right _ (List.mem_singleton_self _))
      have hend : (absolute (place ++ [last])).toList.getLast? ≠ some '/' := by
        obtain ⟨front, hfront⟩ := toList_absolute_concat place last
        rw [hfront, List.getLast?_append_of_ne_nil _ (List.cons_ne_nil _ _)]
        obtain ⟨c, rest, hc⟩ := List.exists_cons_of_ne_nil (ne_empty_of_isComponent hlast)
        rw [hc, List.getLast?_cons_cons, ← hc]
        exact fun hslash => Path.slash_notMem_of_isComponent hlast (List.mem_of_getLast? hslash)
      rw [if_neg (by simpa using hend), absolute_concat (List.concat_ne_nil _ _)]

lemma parts_absolute (hplace : ∀ name ∈ place, isComponent name) (hne : place ≠ []) :
    parts (absolute place).toList = [] :: place.map String.toList := by
  have hslash : ∀ part ∈ place.map String.toList, '/' ∉ part := by
    intro part hpart
    obtain ⟨name, hname, rfl⟩ := List.mem_map.mp hpart
    exact Path.slash_notMem_of_isComponent (hplace name hname)
  rw [toList_absolute, parts, if_pos rfl,
    Path.parts_intercalate (by simpa using hne) hslash]

lemma rdropWhile_of_isComponent (hplace : ∀ name ∈ place, isComponent name) :
    (place.map String.toList).rdropWhile (!isNamed ·) = place.map String.toList := by
  rw [List.rdropWhile_eq_self_iff]
  intro hne
  obtain ⟨name, hname, hlast⟩ := List.mem_map.mp (List.getLast_mem hne)
  rw [← hlast, Path.isNamed_of_isComponent (hplace name hname)]
  exact Bool.false_ne_true

lemma parent?_absolute_concat (hplace : ∀ name ∈ place, isComponent name)
    (hname : isComponent name) : parent? (absolute (place ++ [name])) = some (absolute place) := by
  have hboth : ∀ other ∈ place ++ [name], isComponent other :=
    List.forall_mem_append.mpr ⟨hplace, List.forall_mem_singleton.mpr hname⟩
  rw [Path.parent?_eq (parts_absolute hboth (List.concat_ne_nil _ _)),
    rdropWhile_of_isComponent hboth, List.map_append, List.reverse_append]
  change some (Path.ofParts ([] :: ((place.map String.toList).reverse.reverse.rdropWhile _))) = _
  rw [List.reverse_reverse, rdropWhile_of_isComponent hplace]
  refine congrArg some ?_
  cases place with
  | nil => rfl
  | cons first later =>
      rw [← String.toList_inj, toList_absolute]
      simp [Path.ofParts]

lemma parent?_absolute_nil : parent? (absolute []) = none := by decide +kernel

lemma ancestors_concat (place : List String) (name : String) :
    ancestors (place ++ [name]) = (place ++ [name]) :: ancestors place := by
  rw [ancestors, List.length_append, List.length_singleton, List.range_succ_eq_map, List.map_cons,
    List.map_map, ancestors, Nat.sub_zero, List.take_of_length_le (by simp)]
  refine congrArg _ (List.map_congr_left fun steps _ => ?_)
  rw [Function.comp_apply, Nat.succ_eq_add_one, Nat.add_sub_add_right,
    List.take_append_of_le_length (Nat.sub_le _ _)]

/-- Above the path of a place are the paths of the places above it. -/
lemma upwards_absolute (hplace : ∀ name ∈ place, isComponent name) :
    upwards (absolute place) = (ancestors place).map absolute := by
  induction place using List.reverseRecOn with
  | nil => exact Path.upwards_of_no_parent parent?_absolute_nil
  | append_singleton place name ih =>
      rw [List.forall_mem_append, List.forall_mem_singleton] at hplace
      rw [Path.upwards_of_parent (parent?_absolute_concat hplace.1 hplace.2), ih hplace.1,
        ancestors_concat, List.map_cons]

lemma step?_of_isComponent (disk : Disk) (here : List String) (hname : isComponent name) :
    disk.step? here name =
      if (disk.at? (here ++ [name])).isSome then some (here ++ [name]) else none := by
  simp only [isComponent, isNamed, Bool.and_eq_true, bne_iff_ne, ne_eq] at hname
  obtain ⟨⟨⟨hempty, hdot⟩, hdots⟩, -⟩ := hname
  have hempty : name ≠ "" := fun h => hempty (by rw [h]; rfl)
  have hdot : name ≠ "." := fun h => hdot (by rw [h]; rfl)
  rw [step?, at?_concat]
  cases disk.at? here with
  | none => rfl
  | some found =>
      cases found with
      | file content => rfl
      | directory entries => simp [Entry.isDirectory, hempty, hdot, hdots]

/-- Names lead downwards as far as something is there. -/
lemma foldlM_step?_of_isComponent (disk : Disk) {here : List String}
    (hhere : (disk.at? here).isSome) (hplace : ∀ name ∈ place, isComponent name) :
    place.foldlM disk.step? here =
      if (disk.at? (here ++ place)).isSome then some (here ++ place) else none := by
  induction place generalizing here with
  | nil =>
      rw [List.append_nil, if_pos hhere]
      rfl
  | cons name place ih =>
      rw [List.forall_mem_cons] at hplace
      rw [List.foldlM_cons, step?_of_isComponent disk here hplace.1]
      have happend : here ++ name :: place = here ++ [name] ++ place := by simp
      rw [happend]
      by_cases hname : (disk.at? (here ++ [name])).isSome
      · rw [if_pos hname]
        exact ih hname hplace.2
      · have hbelow : disk.at? (here ++ [name] ++ place) = none := by
          rw [at?, Option.not_isSome_iff_eq_none] at hname
          rw [at?, Entry.lookup?_append, hname]
          rfl
        rw [if_neg hname, hbelow]
        rfl

/-- The path of a place leads to it, if something is there. -/
lemma resolve?_absolute (disk : Disk) (hplace : ∀ name ∈ place, isComponent name)
    (hne : place ≠ []) :
    disk.resolve? (absolute place) = if (disk.at? place).isSome then some place else none := by
  have habsolute : Path.isAbsolute (absolute place) := by
    rw [Path.isAbsolute, toList_absolute]
    rfl
  have hpath : absolute place ≠ "" := by
    rw [ne_eq, ← String.toList_inj, toList_absolute]
    exact List.cons_ne_nil _ _
  have hparts : (parts (absolute place).toList).map String.ofList = "" :: place := by
    rw [parts_absolute hplace hne, List.map_cons, List.map_map]
    simp
  rw [resolve?, if_neg (by simpa using hpath), if_pos habsolute, hparts, List.foldlM_cons]
  obtain ⟨first, later, rfl⟩ := List.exists_cons_of_ne_nil hne
  cases hroot : disk.root with
  | file content =>
      have hnone : disk.at? (first :: later) = none := by
        rw [at?, hroot]
        rfl
      have hstep : disk.step? [] "" = none := by
        simp [step?, at?, hroot, Entry.lookup?, Entry.isDirectory]
      rw [hstep, hnone]
      rfl
  | directory entries =>
      have hstep : disk.step? [] "" = some [] := by
        simp [step?, at?, hroot, Entry.lookup?, Entry.isDirectory]
      rw [hstep]
      exact foldlM_step?_of_isComponent disk rfl hplace

end Disk

end GraphMigrate
