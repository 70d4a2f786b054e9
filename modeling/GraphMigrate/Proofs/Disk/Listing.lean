/-
The files below a directory, and their paths.

In a tree of a file system the members of a directory have different names,
and each name is one component of a path.  So the files below a directory
are listed once each, and their paths differ.

* `Path.components_join`: a path that is continued by names has their
  components behind its own;
* `Entry.isWellFormed`: whether a tree is one of a file system;
* `Entry.nodup_files`: every file below a directory is listed once;
* `Entry.isComponent_of_mem_files`: the names that lead to it are components.
-/
import GraphMigrate.Disk
import Mathlib.Data.List.Basic
import Mathlib.Data.List.Nodup
import Mathlib.Tactic

namespace GraphMigrate

/-! ### Components -/

namespace Path

lemma parts_ne_nil (cs : List Char) : parts cs ≠ [] := by
  cases cs with
  | nil => exact List.cons_ne_nil _ _
  | cons c cs =>
      rw [parts]
      split
      · exact List.cons_ne_nil _ _
      · split <;> exact List.cons_ne_nil _ _

lemma parts_append_slash (front back : List Char) :
    parts (front ++ '/' :: back) = parts front ++ parts back := by
  induction front with
  | nil => rfl
  | cons c front ih =>
      rw [List.cons_append, parts, parts, ih]
      split
      · rfl
      · obtain ⟨part, later, hparts⟩ := List.exists_cons_of_ne_nil (parts_ne_nil front)
        rw [hparts]
        rfl

lemma parts_of_slash_notMem {cs : List Char} (h : '/' ∉ cs) : parts cs = [cs] := by
  induction cs with
  | nil => rfl
  | cons c cs ih =>
      rw [List.mem_cons, not_or] at h
      rw [parts, if_neg (Ne.symm h.1), ih h.2]

lemma parts_intercalate {names : List (List Char)} (hne : names ≠ [])
    (h : ∀ name ∈ names, '/' ∉ name) : parts (['/'].intercalate names) = names := by
  induction names with
  | nil => exact absurd rfl hne
  | cons name names ih =>
      have hname := h name List.mem_cons_self
      cases names with
      | nil =>
          rw [List.intercalate_singleton]
          exact parts_of_slash_notMem hname
      | cons other names =>
          rw [List.intercalate_cons_cons, List.append_assoc, List.singleton_append,
            parts_append_slash, parts_of_slash_notMem hname,
            ih (List.cons_ne_nil _ _) fun name hname => h name (List.mem_cons_of_mem _ hname)]
          rfl

/-- Whether a name can be a component of a path that leads downwards. -/
def isComponent (name : String) : Bool :=
  isNamed name.toList && name != ".." && !name.toList.contains '/'

lemma isNamed_of_isComponent {name : String} (h : isComponent name) : isNamed name.toList := by
  simp only [isComponent, Bool.and_eq_true] at h
  exact h.1.1

lemma slash_notMem_of_isComponent {name : String} (h : isComponent name) :
    '/' ∉ name.toList := by
  simp only [isComponent, Bool.and_eq_true, Bool.not_eq_true', List.contains_eq_mem,
    decide_eq_false_iff_not] at h
  exact h.2

/-- What stands behind a slash adds its named parts. -/
lemma components_append_slash {front back : List Char} (h : front ≠ []) :
    components (String.ofList (front ++ '/' :: back)) =
      components (String.ofList front) ++ (parts back).filter isNamed := by
  obtain ⟨c, front, rfl⟩ := List.exists_cons_of_ne_nil h
  obtain ⟨part, later, hparts⟩ := List.exists_cons_of_ne_nil (parts_ne_nil (c :: front))
  have happend : parts (c :: (front ++ '/' :: back)) = part :: (later ++ parts back) := by
    rw [← List.cons_append, parts_append_slash, hparts, List.cons_append]
  simp only [components, isAbsolute, String.toList_ofList, hparts, happend, List.cons_append,
    List.head?_cons, List.filter_append]
  split
  · rfl
  · split <;> rfl

/-- A path that is continued has the named parts of what continues it behind
its own components. -/
lemma components_join_eq {path below : String} (hpath : path ≠ "")
    (hbelow : isAbsolute below = false) :
    components (join path below) = components path ++ (parts below.toList).filter isNamed := by
  have hne : path.toList ≠ [] := fun h => hpath (String.toList_inj.mp h)
  rw [join, if_neg (by simp [hbelow, hpath])]
  split
  case isFalse =>
    have happend : path ++ "/" ++ below = String.ofList (path.toList ++ '/' :: below.toList) := by
      rw [← String.toList_inj]
      simp
    rw [happend, components_append_slash hne, String.ofList_toList]
  case isTrue hslash =>
    -- the path ends with the slash
    obtain ⟨front, hfront⟩ : ∃ front, path.toList = front ++ ['/'] :=
      ⟨_, (List.dropLast_append_getLast? _ (by simpa using hslash)).symm⟩
    have hpath : path = String.ofList (front ++ '/' :: []) := by
      rw [← hfront, String.ofList_toList]
    have happend : path ++ below = String.ofList (front ++ '/' :: below.toList) := by
      rw [← String.toList_inj]
      simp [hfront]
    rw [happend, hpath]
    cases front with
    | nil => simp [components, parts, isAbsolute, isNamed]
    | cons c front =>
        rw [components_append_slash (List.cons_ne_nil _ _),
          components_append_slash (List.cons_ne_nil _ _), List.append_assoc]
        rfl

/-- A path that is continued by names has their components behind its own. -/
theorem components_join {path : String} {names : List String} (hpath : path ≠ "")
    (hne : names ≠ []) (hnames : ∀ name ∈ names, isComponent name) :
    components (join path (String.intercalate "/" names)) =
      components path ++ names.map String.toList := by
  have hslash : ∀ name ∈ names.map String.toList, '/' ∉ name := by
    intro text htext
    obtain ⟨name, hname, rfl⟩ := List.mem_map.mp htext
    exact slash_notMem_of_isComponent (hnames name hname)
  have hparts : parts (String.intercalate "/" names).toList = names.map String.toList := by
    rw [String.toList_intercalate]
    exact parts_intercalate (by simpa using hne) hslash
  have hnamed : (names.map String.toList).filter isNamed = names.map String.toList := by
    refine List.filter_eq_self.mpr fun text htext => ?_
    obtain ⟨name, hname, rfl⟩ := List.mem_map.mp htext
    exact isNamed_of_isComponent (hnames name hname)
  have habsolute : isAbsolute (String.intercalate "/" names) = false := by
    obtain ⟨first, later, rfl⟩ := List.exists_cons_of_ne_nil hne
    have hfirst := hnames first List.mem_cons_self
    obtain ⟨c, rest, hc⟩ : ∃ c rest, first.toList = c :: rest := by
      refine List.exists_cons_of_ne_nil fun h => ?_
      have := isNamed_of_isComponent hfirst
      simp [isNamed, h] at this
    have hother : c ≠ '/' := by
      rintro rfl
      exact slash_notMem_of_isComponent hfirst (hc ▸ List.mem_cons_self)
    cases later <;> simp [isAbsolute, String.toList_intercalate, hc, hother]
  rw [components_join_eq hpath habsolute, hparts, hnamed]

end Path

/-! ### Trees of file systems -/

namespace Entry

mutual

/-- Whether a tree is one of a file system: the members of a directory have
different names, and each name can stand between slashes. -/
def isWellFormed : Entry → Bool
  | file _ => true
  | directory entries => decide (entries.map (·.1)).Nodup && areWellFormed entries

/-- Whether the members of a directory are well-formed. -/
def areWellFormed : List (String × Entry) → Bool
  | [] => true
  | member :: members => isWellFormedMember member && areWellFormed members

/-- Whether a member of a directory is well-formed. -/
def isWellFormedMember : String × Entry → Bool
  | (name, entry) => Path.isComponent name && isWellFormed entry

end

lemma filesOfEach_eq_map (members : List (String × Entry)) :
    filesOfEach members = members.map filesOfMember := by
  induction members with
  | nil => rfl
  | cons member members ih => rw [filesOfEach, ih, List.map_cons]

lemma areWellFormed_iff {members : List (String × Entry)} :
    areWellFormed members ↔ ∀ member ∈ members, isWellFormedMember member := by
  induction members with
  | nil => simp [areWellFormed]
  | cons member members ih => simp [areWellFormed, ih]

/-- The files below a directory are those below its members, in some order. -/
lemma files_directory_perm (entries : List (String × Entry)) :
    (directory entries).files.Perm (entries.flatMap fun member => (filesOfMember member).2) := by
  rw [files, filesOfEach_eq_map]
  have hperm := (List.mergeSort_perm (entries.map filesOfMember)
    fun a b => decide (a.1 ≤ b.1)).flatMap_right (·.2)
  rwa [List.flatMap_map] at hperm

/-- What leads to a file of a member begins with the member's name. -/
lemma exists_cons_of_mem_filesOfMember {member : String × Entry} {names : List String}
    (h : names ∈ (filesOfMember member).2) :
    ∃ below ∈ member.2.files, names = member.1 :: below := by
  rw [filesOfMember] at h
  split at h
  · cases h
  · obtain ⟨below, hbelow, rfl⟩ := List.mem_map.mp h
    exact ⟨below, hbelow, rfl⟩

lemma ne_nil_of_mem_files_directory {entries : List (String × Entry)} {names : List String}
    (h : names ∈ (directory entries).files) : names ≠ [] := by
  obtain ⟨member, _, hnames⟩ := List.mem_flatMap.mp ((files_directory_perm entries).mem_iff.mp h)
  obtain ⟨below, _, rfl⟩ := exists_cons_of_mem_filesOfMember hnames
  exact List.cons_ne_nil _ _

/-- Files of members with different names are different. -/
lemma disjoint_filesOfMember {member other : String × Entry} (h : member.1 ≠ other.1) :
    List.Disjoint (filesOfMember member).2 (filesOfMember other).2 := by
  intro names hnames hother
  obtain ⟨below, _, rfl⟩ := exists_cons_of_mem_filesOfMember hnames
  obtain ⟨_, _, heq⟩ := exists_cons_of_mem_filesOfMember hother
  exact h (List.cons.inj heq).1

mutual

/-- Every file below a well-formed entry is listed once. -/
theorem nodup_files : ∀ {entry : Entry}, entry.isWellFormed → entry.files.Nodup
  | file _, _ => List.nodup_singleton _
  | directory entries, h => by
      simp only [isWellFormed, Bool.and_eq_true, decide_eq_true_eq] at h
      obtain ⟨hnames, hmembers⟩ := h
      rw [(files_directory_perm entries).nodup_iff, List.nodup_flatMap]
      refine ⟨nodup_filesOfMembers hmembers, ?_⟩
      exact (List.pairwise_map.mp hnames).imp fun hne => disjoint_filesOfMember hne

/-- Every file below a well-formed member is listed once. -/
lemma nodup_filesOfMembers : ∀ {members : List (String × Entry)}, areWellFormed members →
    ∀ member ∈ members, (filesOfMember member).2.Nodup
  | [], _, _, hmem => by cases hmem
  | (name, entry) :: members, h, member, hmem => by
      simp only [areWellFormed, isWellFormedMember, Bool.and_eq_true] at h
      rcases List.mem_cons.mp hmem with rfl | hmem
      · rw [filesOfMember]
        split
        · exact List.nodup_nil
        · exact (nodup_files h.1.2).map (List.cons_injective)
      · exact nodup_filesOfMembers h.2 member hmem

end

mutual

/-- The names that lead to a file below a well-formed entry are components. -/
theorem isComponent_of_mem_files : ∀ {entry : Entry}, entry.isWellFormed →
    ∀ names ∈ entry.files, ∀ name ∈ names, Path.isComponent name
  | file _, _, _, hnames, name, hname => by
      rw [files, List.mem_singleton] at hnames
      subst hnames
      cases hname
  | directory entries, h, names, hnames, name, hname => by
      simp only [isWellFormed, Bool.and_eq_true] at h
      obtain ⟨member, hmem, hnames⟩ :=
        List.mem_flatMap.mp ((files_directory_perm entries).mem_iff.mp hnames)
      exact isComponent_of_mem_filesOfMember h.2 member hmem names hnames name hname

/-- The names that lead to a file below a well-formed member are components. -/
lemma isComponent_of_mem_filesOfMember : ∀ {members : List (String × Entry)},
    areWellFormed members → ∀ member ∈ members, ∀ names ∈ (filesOfMember member).2,
    ∀ name ∈ names, Path.isComponent name
  | [], _, _, hmem, _, _, _, _ => by cases hmem
  | (own, entry) :: members, h, member, hmem, names, hnames, name, hname => by
      simp only [areWellFormed, isWellFormedMember, Bool.and_eq_true] at h
      rcases List.mem_cons.mp hmem with rfl | hmem
      · obtain ⟨below, hbelow, rfl⟩ := exists_cons_of_mem_filesOfMember hnames
        rcases List.mem_cons.mp hname with rfl | hname
        · exact h.1.1
        · exact isComponent_of_mem_files h.1.2 below hbelow name hname
      · exact isComponent_of_mem_filesOfMember h.2 member hmem names hnames name hname

end

/-- What stands somewhere below a well-formed entry is well-formed. -/
lemma isWellFormed_lookup? {names : List String} {entry found : Entry} (h : entry.isWellFormed)
    (hfound : entry.lookup? names = some found) : found.isWellFormed := by
  induction names generalizing entry with
  | nil => exact Option.some.inj hfound ▸ h
  | cons name names ih =>
      obtain ⟨child, hchild, hfound⟩ := Option.bind_eq_some_iff.mp hfound
      refine ih ?_ hfound
      cases entry with
      | file content => cases hchild
      | directory entries =>
          simp only [isWellFormed, Bool.and_eq_true, areWellFormed_iff] at h
          have hmem : (name, child) ∈ entries := by
            obtain ⟨front, back, heq, -⟩ := List.lookup_eq_some_iff.mp hchild
            change entries = _ at heq
            exact heq ▸ List.mem_append_right _ List.mem_cons_self
          have hmember := h.2 _ hmem
          simp only [isWellFormedMember, Bool.and_eq_true] at hmember
          exact hmember.2

end Entry

/-- What a path leads to in a well-formed tree is well-formed. -/
lemma Disk.isWellFormed_entry? {disk : Disk} {path : String} {found : Entry}
    (h : disk.root.isWellFormed) (hfound : disk.entry? path = some found) :
    found.isWellFormed := by
  obtain ⟨place, _, hat⟩ := Option.bind_eq_some_iff.mp hfound
  exact Entry.isWellFormed_lookup? h hat

end GraphMigrate
