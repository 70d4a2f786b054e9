/-
Walking a directory.

Directories are entered in the order of their names, except for those that
are never entered.  What is found in this way is what a look at every place
of the tree finds: the files with no such directory on the way to them, one
behind the other by the bytes of the first names in which they differ.

* `Entry.ind`: what holds of all members of a directory and so of it, holds
  of every tree;
* `Entry.mem_files_iff`: **the files that are listed are those at a place to
  which only entered directories lead**;
* `Precedes`, `Entry.pairwise_files`: **the order in which they are listed**.
-/
import GraphMigrate.Proofs.Disk.Listing
import GraphMigrate.Proofs.Text.ByteOrder
import Mathlib.Data.List.Basic
import Mathlib.Tactic

namespace GraphMigrate

/-! ### The order of paths -/

/-- One row of names comes before another: at the first place where they
differ, the bytes of its name are less. -/
def Precedes (names others : List String) : Prop :=
  ∃ common name other below below', names = common ++ name :: below ∧
    others = common ++ other :: below' ∧ textBytes name < textBytes other

lemma Precedes.cons {names others : List String} (h : Precedes names others) (name : String) :
    Precedes (name :: names) (name :: others) := by
  obtain ⟨common, first, second, below, below', rfl, rfl, hlt⟩ := h
  exact ⟨name :: common, first, second, below, below', rfl, rfl, hlt⟩

lemma precedes_of_lt {name other : String} (h : name < other) (below below' : List String) :
    Precedes (name :: below) (other :: below') :=
  ⟨[], name, other, below, below', rfl, rfl, textBytes_lt_iff.mpr h⟩

namespace Entry

/-! ### The members of a directory -/

/-- A property holds of every tree once every directory inherits it from its
members. -/
@[elab_as_elim]
theorem ind {P : Entry → Prop} (hfile : ∀ content, P (file content))
    (hdirectory : ∀ entries, (∀ member ∈ entries, P member.2) → P (directory entries))
    (entry : Entry) : P entry :=
  @Entry.rec P (fun entries => ∀ member ∈ entries, P member.2) (fun member => P member.2)
    hfile hdirectory
    (fun _ hmem => absurd hmem List.not_mem_nil)
    (fun _ _ hhead htail member hmem => by
      rcases List.mem_cons.mp hmem with rfl | hmem
      · exact hhead
      · exact htail member hmem)
    (fun _ _ hentry => hentry) entry

lemma isWellFormed_directory {entries : List (String × Entry)} :
    (directory entries).isWellFormed ↔
      (entries.map (·.1)).Nodup ∧
        ∀ member ∈ entries, Path.isComponent member.1 ∧ member.2.isWellFormed := by
  simp [isWellFormed, areWellFormed_iff, isWellFormedMember]

/-- With different names, the member with a name is the one that is found. -/
lemma lookup_eq_some_iff {entries : List (String × Entry)} (h : (entries.map (·.1)).Nodup)
    {name : String} {child : Entry} :
    entries.lookup name = some child ↔ (name, child) ∈ entries := by
  induction entries with
  | nil => simp
  | cons member entries ih =>
      obtain ⟨own, entry⟩ := member
      rw [List.map_cons, List.nodup_cons] at h
      by_cases hname : name = own
      · subst hname
        have habsent : (name, child) ∉ entries := fun hmem =>
          h.1 (List.mem_map.mpr ⟨_, hmem, rfl⟩)
        simp [habsent, eq_comm]
      · have hother : (name == own) = false := by simpa using hname
        simp only [List.lookup_cons, hother, ih h.2]
        simp [hname]

/-! ### What is listed -/

lemma filesOfMember_fst (member : String × Entry) : (filesOfMember member).1 = member.1 := by
  rw [filesOfMember]

lemma mem_filesOfMember_iff {member : String × Entry} {names : List String} :
    names ∈ (filesOfMember member).2 ↔
      ∃ below ∈ member.2.files, names = member.1 :: below ∧
        isSkipped member.1 member.2 = false := by
  obtain ⟨name, entry⟩ := member
  rw [filesOfMember]
  cases isSkipped name entry <;> simp [eq_comm]

lemma mem_files_directory_iff {entries : List (String × Entry)} {names : List String} :
    names ∈ (directory entries).files ↔
      ∃ member ∈ entries, ∃ below ∈ member.2.files, names = member.1 :: below ∧
        isSkipped member.1 member.2 = false := by
  rw [(files_directory_perm entries).mem_iff, List.mem_flatMap]
  simp only [mem_filesOfMember_iff]

/-- A member on the way to a file is entered if it is the file itself or is
not called like a directory that is never entered. -/
lemma isSkipped_eq_false_iff {name : String} {entry : Entry} {below : List String}
    {content : FileEntry} (h : entry.lookup? below = some (file content)) :
    isSkipped name entry = false ↔ below = [] ∨ isSkippedName name = false := by
  cases below with
  | nil =>
      obtain rfl : entry = file content := Option.some.inj h
      simp [isSkipped, isDirectory]
  | cons next below =>
      cases entry with
      | file other => simp [lookup?, children] at h
      | directory entries => simp [isSkipped, isDirectory]

/-- **The files that are listed** are those at a place to which only entered
directories lead. -/
theorem mem_files_iff {entry : Entry} (hwell : entry.isWellFormed) {names : List String} :
    names ∈ entry.files ↔
      (∃ content, entry.lookup? names = some (file content)) ∧
        ∀ name ∈ names.dropLast, isSkippedName name = false := by
  induction entry using ind generalizing names with
  | hfile content => cases names <;> simp [files, lookup?, children]
  | hdirectory entries ih =>
      obtain ⟨hnodup, hmembers⟩ := isWellFormed_directory.mp hwell
      rw [mem_files_directory_iff]
      cases names with
      | nil => simp [lookup?]
      | cons name below =>
          have hlookup (content : FileEntry) :
              (directory entries).lookup? (name :: below) = some (file content) ↔
                ∃ child, (name, child) ∈ entries ∧ child.lookup? below = some (file content) := by
            simp only [lookup?, children, Option.bind_eq_some_iff, lookup_eq_some_iff hnodup]
          have hway : (∀ dir ∈ (name :: below).dropLast, isSkippedName dir = false) ↔
              (below = [] ∨ isSkippedName name = false) ∧
                ∀ dir ∈ below.dropLast, isSkippedName dir = false := by
            cases below <;> simp
          rw [hway]
          simp only [hlookup]
          constructor
          · rintro ⟨⟨own, child⟩, hmem, _, hbelow, heq, hskip⟩
            obtain ⟨rfl, rfl⟩ := List.cons.inj heq
            obtain ⟨⟨content, hcontent⟩, hentered⟩ :=
              (ih _ hmem (hmembers _ hmem).2).mp hbelow
            exact ⟨⟨content, child, hmem, hcontent⟩,
              (isSkipped_eq_false_iff hcontent).mp hskip, hentered⟩
          · rintro ⟨⟨content, child, hmem, hcontent⟩, hskip, hentered⟩
            exact ⟨(name, child), hmem, below,
              (ih _ hmem (hmembers _ hmem).2).mpr ⟨⟨content, hcontent⟩, hentered⟩, rfl,
              (isSkipped_eq_false_iff hcontent).mpr hskip⟩

/-! ### In which order -/

/-- The members of a directory in the order in which they are listed. -/
lemma pairwise_mergeSort_lt {rows : List (String × List (List String))}
    (h : (rows.map (·.1)).Nodup) :
    (rows.mergeSort fun a b => decide (a.1 ≤ b.1)).Pairwise fun a b => a.1 < b.1 := by
  have hsorted : (rows.mergeSort fun a b => decide (a.1 ≤ b.1)).Pairwise
      fun a b => decide (a.1 ≤ b.1) :=
    List.pairwise_mergeSort
      (fun a b c hab hbc => by simpa using le_trans (by simpa using hab) (by simpa using hbc))
      (fun a b => by simpa using le_total a.1 b.1) rows
  have hdistinct : (rows.mergeSort fun a b => decide (a.1 ≤ b.1)).Pairwise
      fun a b => a.1 ≠ b.1 :=
    List.pairwise_map.mp (((List.mergeSort_perm rows _).map _).nodup_iff.mpr h)
  exact (hsorted.and hdistinct).imp fun hab => lt_of_le_of_ne (by simpa using hab.1) hab.2

/-- **Files are listed in the order of the bytes of the names** that lead to
them. -/
theorem pairwise_files {entry : Entry} (hwell : entry.isWellFormed) :
    entry.files.Pairwise Precedes := by
  induction entry using ind with
  | hfile content => exact List.pairwise_singleton _ _
  | hdirectory entries ih =>
      obtain ⟨hnodup, hmembers⟩ := isWellFormed_directory.mp hwell
      rw [files, filesOfEach_eq_map, List.pairwise_flatMap]
      constructor
      · intro row hrow
        obtain ⟨member, hmem, rfl⟩ := List.mem_map.mp (List.mem_mergeSort.mp hrow)
        obtain ⟨name, child⟩ := member
        rw [filesOfMember]
        split
        · exact List.Pairwise.nil
        · exact List.pairwise_map.mpr
            ((ih _ hmem (hmembers _ hmem).2).imp fun hlt => hlt.cons name)
      · have hdistinct : ((entries.map filesOfMember).map (·.1)).Nodup := by
          simpa [Function.comp_def, filesOfMember_fst] using hnodup
        have hsorted := pairwise_mergeSort_lt hdistinct
        refine hsorted.imp_of_mem fun {one other} hone hother hlt => ?_
        obtain ⟨first, -, rfl⟩ := List.mem_map.mp (List.mem_mergeSort.mp hone)
        obtain ⟨second, -, rfl⟩ := List.mem_map.mp (List.mem_mergeSort.mp hother)
        rw [filesOfMember_fst, filesOfMember_fst] at hlt
        intro names hnames others hothers
        obtain ⟨below, -, rfl⟩ := exists_cons_of_mem_filesOfMember hnames
        obtain ⟨below', -, rfl⟩ := exists_cons_of_mem_filesOfMember hothers
        exact precedes_of_lt hlt below below'

end Entry

end GraphMigrate
