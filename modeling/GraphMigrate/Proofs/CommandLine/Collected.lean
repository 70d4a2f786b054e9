/-
Files that are collected more than once.

The paths that a run starts from are listed one after another, and paths
that are the same as those right in front of them are left out.  That is
enough for paths that are listed twice in a row, but not for those with
another path in between.

* `Workspace.components_withoutRepeats`: what leaving out does;
* `nodup_destutter_ne_iff`: when that leaves every value once;
* `MeetAtSeams`: lists that share values only where one ends and the next
  one begins;
* `Workspace.nodup_filesOf`: a path to start from lists every file once;
* `migrateFiles_file`: every file is migrated as often as it is collected;
* `files_are_migrated_once_iff`: **every file is collected and migrated once
  exactly if the lists of the starting paths share files only at their
  seams**.
-/
import GraphMigrate.CommandLine.Session
import GraphMigrate.Proofs.Control.Ensures
import GraphMigrate.Proofs.Disk.Listing
import Mathlib.Data.List.Destutter

namespace GraphMigrate

/-! ### Repeated values -/

section Repeats

variable {α : Type} [DecidableEq α]

lemma mem_destutter'_ne_iff {a b : α} {xs : List α} :
    b ∈ xs.destutter' (· ≠ ·) a ↔ b ∈ a :: xs := by
  induction xs generalizing a with
  | nil => rw [List.destutter'_nil]
  | cons x xs ih =>
      by_cases hx : a = x
      · rw [List.destutter'_cons_neg _ (not_not_intro hx), ih, hx]
        simp
      · rw [List.destutter'_cons_pos _ hx, List.mem_cons, ih, List.mem_cons, List.mem_cons,
          List.mem_cons]

/-- Without values that are the same as those right in front of them, every
value is there once exactly if no other one stood between two of it. -/
lemma nodup_destutter'_ne_iff {a : α} {xs : List α} :
    (xs.destutter' (· ≠ ·) a).Nodup ↔ ∀ p q, [p, q, p].Sublist (a :: xs) → p = q := by
  induction xs generalizing a with
  | nil =>
      rw [List.destutter'_nil]
      refine iff_of_true (List.nodup_singleton a) fun p q hsub => ?_
      exact absurd hsub.length_le (by simp)
  | cons x xs ih =>
      by_cases hx : a = x
      case pos =>
        subst hx
        rw [List.destutter'_cons_neg _ (not_not_intro rfl), ih]
        refine ⟨fun h p q hsub => ?_, fun h p q hsub => h p q (hsub.cons a)⟩
        rcases List.sublist_cons_iff.mp hsub with hsub | ⟨_, heq, hsub⟩
        · exact h p q hsub
        obtain ⟨rfl, rfl⟩ := List.cons.inj heq
        rcases List.sublist_cons_iff.mp hsub with hsub | ⟨_, heq, hsub⟩
        · exact h p q (hsub.cons_cons p)
        · exact (List.cons.inj heq).1.symm
      case neg =>
        rw [List.destutter'_cons_pos _ hx, List.nodup_cons, mem_destutter'_ne_iff, ih]
        constructor
        · rintro ⟨hnotMem, h⟩ p q hsub
          rcases List.sublist_cons_iff.mp hsub with hsub | ⟨_, heq, hsub⟩
          · exact h p q hsub
          · obtain ⟨rfl, rfl⟩ := List.cons.inj heq
            exact absurd (hsub.subset (by simp)) hnotMem
        · intro h
          refine ⟨fun hmem => hx ?_, fun p q hsub => h p q (hsub.cons a)⟩
          -- the value would stand on both sides of the one behind it
          have hmem : a ∈ xs := (List.mem_cons.mp hmem).resolve_left hx
          exact h a x (((List.singleton_sublist.mpr hmem).cons_cons x).cons_cons a)

lemma nodup_destutter_ne_iff {xs : List α} :
    (xs.destutter (· ≠ ·)).Nodup ↔ ∀ p q, [p, q, p].Sublist xs → p = q := by
  cases xs with
  | nil => exact iff_of_true List.nodup_nil fun p q hsub => by cases hsub
  | cons x xs => exact nodup_destutter'_ne_iff

lemma mem_destutter_ne_iff {a : α} {xs : List α} : a ∈ xs.destutter (· ≠ ·) ↔ a ∈ xs := by
  cases xs with
  | nil => rfl
  | cons x xs => exact mem_destutter'_ne_iff

end Repeats

/-! ### Lists that meet at seams -/

section Seams

variable {α : Type}

/-- Where two of the lists have a value in common, the one ends and the other
begins with it, and nothing else is listed in between. -/
def MeetAtSeams (lists : List (List α)) : Prop :=
  ∀ before first between last after,
    lists = before ++ first :: (between ++ last :: after) → ∀ value ∈ first, value ∈ last →
      first.getLast? = some value ∧ last.head? = some value ∧
        ∀ other ∈ between.flatten, other = value

/-- Two values that come one after the other in lists put together are both in
one list, or the first one is in an earlier list. -/
lemma pair_sublist_flatten {p q : α} {lists : List (List α)}
    (h : [p, q].Sublist lists.flatten) :
    (∃ front list back, lists = front ++ list :: back ∧ [p, q].Sublist list) ∨
      ∃ front list back, lists = front ++ list :: back ∧ p ∈ front.flatten ∧ q ∈ list := by
  induction lists with
  | nil => cases h
  | cons first lists ih =>
      obtain ⟨here, later, heq, hhere, hlater⟩ := List.sublist_append_iff.mp h
      match here, later with
      | [], _ =>
          rw [List.nil_append] at heq
          subst heq
          rcases ih hlater with ⟨front, list, back, rfl, hsub⟩ | ⟨front, list, back, rfl, hp, hq⟩
          · exact .inl ⟨first :: front, list, back, rfl, hsub⟩
          · exact .inr ⟨first :: front, list, back, rfl, List.mem_append_right _ hp, hq⟩
      | [a], later =>
          obtain ⟨rfl, rfl⟩ := List.cons.inj heq
          obtain ⟨list, hlist, hq⟩ := List.mem_flatten.mp (List.singleton_sublist.mp hlater)
          obtain ⟨front, back, rfl⟩ := List.append_of_mem hlist
          refine .inr ⟨first :: front, list, back, rfl, ?_, hq⟩
          exact List.mem_append_left _ (List.singleton_sublist.mp hhere)
      | a :: b :: _, _ =>
          obtain ⟨rfl, hrest⟩ := List.cons.inj heq
          obtain ⟨rfl, hrest⟩ := List.cons.inj hrest
          exact .inl ⟨[], first, lists, rfl,
            ((List.nil_sublist _).cons_cons q |>.cons_cons p).trans hhere⟩

lemma triple_sublist {p q r : α} {xs ys zs : List α} (hp : p ∈ xs) (hq : q ∈ ys) (hr : r ∈ zs) :
    [p, q, r].Sublist (xs ++ (ys ++ zs)) :=
  (List.singleton_sublist.mpr hp).append
    ((List.singleton_sublist.mpr hq).append (List.singleton_sublist.mpr hr))

/-- Nothing else stands in front of the head of a list. -/
lemma eq_of_head?_of_pair {p q : α} {list : List α} (hnodup : list.Nodup)
    (hhead : list.head? = some p) (h : [q, p].Sublist list) : q = p := by
  obtain ⟨rest, rfl⟩ := List.head?_eq_some_iff.mp hhead
  rcases List.sublist_cons_iff.mp h with hsub | ⟨_, heq, -⟩
  · exact absurd (hsub.subset (by simp)) (List.nodup_cons.mp hnodup).1
  · exact (List.cons.inj heq).1

/-- Nothing else stands behind the last value of a list. -/
lemma eq_of_getLast?_of_pair {p q : α} {list : List α} (hnodup : list.Nodup)
    (hlast : list.getLast? = some p) (h : [p, q].Sublist list) : q = p :=
  eq_of_head?_of_pair (List.nodup_reverse.mpr hnodup)
    (by rw [List.head?_reverse, hlast]) (List.reverse_sublist.mpr h)

lemma MeetAtSeams.tail {first : List α} {lists : List (List α)}
    (h : MeetAtSeams (first :: lists)) : MeetAtSeams lists := by
  rintro before one between last after rfl value hone hlast
  exact h (first :: before) one between last after rfl value hone hlast

/-- Where lists meet at their seams, no value stands on both sides of
another one. -/
lemma MeetAtSeams.eq_of_sublist {lists : List (List α)} (h : MeetAtSeams lists)
    (hnodup : ∀ list ∈ lists, list.Nodup) {p q : α} (hsub : [p, q, p].Sublist lists.flatten) :
    q = p := by
  induction lists with
  | nil => cases hsub
  | cons first lists ih =>
      have hfirst := hnodup first List.mem_cons_self
      obtain ⟨here, later, heq, hhere, hlater⟩ := List.sublist_append_iff.mp hsub
      match here, later with
      | [], _ =>
          rw [List.nil_append] at heq
          subst heq
          exact ih h.tail (fun list hlist => hnodup list (List.mem_cons_of_mem _ hlist)) hlater
      | [a], later =>
          obtain ⟨rfl, rfl⟩ := List.cons.inj heq
          have hp : p ∈ first := List.singleton_sublist.mp hhere
          rcases pair_sublist_flatten hlater with
            ⟨front, list, back, rfl, hpair⟩ | ⟨front, list, back, rfl, hq, hlist⟩
          · have hseam := h [] first front list back rfl p hp (hpair.subset (by simp))
            exact eq_of_head?_of_pair (hnodup list (by simp)) hseam.2.1 hpair
          · exact (h [] first front list back rfl p hp hlist).2.2 q hq
      | [a, b], later =>
          obtain ⟨rfl, hrest⟩ := List.cons.inj heq
          obtain ⟨rfl, rfl⟩ := List.cons.inj hrest
          obtain ⟨list, hlist, hp⟩ := List.mem_flatten.mp (List.singleton_sublist.mp hlater)
          obtain ⟨front, back, rfl⟩ := List.append_of_mem hlist
          have hseam := h [] first front list back rfl p (hhere.subset (by simp)) hp
          exact eq_of_getLast?_of_pair hfirst hseam.1 hhere
      | a :: b :: c :: _, _ =>
          obtain ⟨rfl, htail⟩ := List.cons.inj heq
          obtain ⟨rfl, hlast⟩ := List.cons.inj htail
          obtain ⟨rfl, -⟩ := List.cons.inj hlast
          -- one list would have the value twice
          have hdistinct := hfirst.sublist hhere
          simp at hdistinct

/-- With lists that have every value once, no value stands on both sides of
another one exactly if the lists meet at their seams. -/
theorem meetAtSeams_iff {lists : List (List α)} (hnodup : ∀ list ∈ lists, list.Nodup) :
    MeetAtSeams lists ↔ ∀ p q, [p, q, p].Sublist lists.flatten → p = q := by
  refine ⟨fun h p q hsub => (h.eq_of_sublist hnodup hsub).symm, fun h => ?_⟩
  rintro before first between last after rfl value hfirst hlast
  refine ⟨?_, ?_, fun other hother => ?_⟩
  case refine_1 =>
    obtain ⟨front, back, rfl⟩ := List.append_of_mem hfirst
    cases back with
    | nil => simp
    | cons other back =>
        -- the value stands in front of this one, and in the later list again
        have hsub : [value, other, value].Sublist (before.flatten ++ (front ++ [value]) ++
            (other :: back ++ (between.flatten ++ (last ++ after.flatten)))) :=
          triple_sublist (by simp) (by simp) (by simp [hlast])
        obtain rfl := h value other (by simpa using hsub)
        have hdistinct := hnodup (front ++ value :: value :: back) (by simp)
        simp [List.nodup_append] at hdistinct
  case refine_2 =>
    obtain ⟨front, back, rfl⟩ := List.append_of_mem hlast
    cases front with
    | nil => simp
    | cons other front =>
        have hsub : [value, other, value].Sublist (before.flatten ++ (first ++ between.flatten) ++
            (other :: front ++ value :: (back ++ after.flatten))) :=
          triple_sublist (by simp [hfirst]) (by simp) (by simp)
        obtain rfl := h value other (by simpa using hsub)
        have hdistinct := hnodup (value :: front ++ value :: back) (by simp)
        simp at hdistinct
  case refine_3 =>
    have hsub : [value, other, value].Sublist (before.flatten ++ first ++
        (between.flatten ++ (last ++ after.flatten))) :=
      triple_sublist (by simp [hfirst]) hother (by simp [hlast])
    exact (h value other (by simpa using hsub)).symm

end Seams

namespace CommandLine

namespace Workspace

/-! ### Collecting -/

lemma components_withoutRepeatsAfter (before : String) (paths : List String) :
    Path.components before ::
        (withoutRepeats.withoutRepeatsAfter before paths).map Path.components =
      (paths.map Path.components).destutter' (· ≠ ·) (Path.components before) := by
  induction paths generalizing before with
  | nil => rfl
  | cons path paths ih =>
      rw [withoutRepeats.withoutRepeatsAfter, List.map_cons]
      by_cases heq : Path.components path = Path.components before
      · rw [if_pos (by simpa using heq), List.destutter'_cons_neg _ (not_not_intro heq.symm), ih]
      · rw [if_neg (by simpa using heq), List.destutter'_cons_pos _ (Ne.symm heq), List.map_cons,
          ih]

/-- Paths that are the same as those right in front of them are left out. -/
lemma components_withoutRepeats (paths : List String) :
    (withoutRepeats paths).map Path.components =
      (paths.map Path.components).destutter (· ≠ ·) := by
  cases paths with
  | nil => rfl
  | cons path paths => exact components_withoutRepeatsAfter path paths

lemma ne_empty_of_found {disk : Disk} {path : String} {entry : Entry}
    (h : disk.entry? path = some entry) : path ≠ "" := by
  rintro rfl
  cases h

/-- A path to start from lists every file once. -/
theorem nodup_filesOf {disk : Disk} {settings : Settings} {path : String} {files : List String}
    (hwell : disk.root.isWellFormed) (h : filesOf disk settings path = .ok files) :
    (files.map Path.components).Nodup := by
  rw [filesOf] at h
  split at h
  case h_1 => cases h
  case h_2 =>
    cases h
    exact List.nodup_singleton _
  case h_3 entries hentry =>
    cases h
    have hentries := Disk.isWellFormed_entry? hwell hentry
    have hnodup := (Entry.nodup_files hentries).filter (admits settings path)
    rw [List.map_map]
    refine hnodup.map_on fun names hnames others hothers heq => ?_
    -- the components tell the names that lead to a file
    have hcomponents (names : List String)
        (h : names ∈ (Entry.directory entries).files.filter (admits settings path)) :
        Path.components (Path.join path (String.intercalate "/" names)) =
          Path.components path ++ names.map String.toList :=
      have hmem := List.mem_of_mem_filter h
      Path.components_join (ne_empty_of_found hentry) (Entry.ne_nil_of_mem_files_directory hmem)
        (Entry.isComponent_of_mem_files hentries names hmem)
    rw [Function.comp_apply, Function.comp_apply, hcomponents names hnames,
      hcomponents others hothers] at heq
    exact List.map_injective_iff.mpr (fun _ _ => String.toList_inj.mp)
      (List.append_cancel_left heq)

end Workspace

/-! ### Migrating what is collected -/

lemma migrateFile_file (migration : Migration) (context : Context) (dryRun : Bool) (disk : Disk)
    (path : String) : (migrateFile migration context dryRun disk path).1.file = path := by
  rw [migrateFile]
  split
  · rfl
  split
  · rfl
  split
  · rfl
  dsimp only
  split
  · split <;> rfl
  · rfl

/-- Every file is migrated as often as its path is there, in the same order. -/
lemma migrateFiles_file (migration : Migration) (context : Context) (dryRun : Bool) (disk : Disk)
    (paths : List String) :
    (migrateFiles migration context dryRun disk paths).1.map (·.file) = paths := by
  induction paths generalizing disk with
  | nil => rfl
  | cons path paths ih =>
      rw [migrateFiles, List.map_cons, migrateFile_file, ih]

/-- **A file is collected exactly if a path to start from lists it, each path
lists its files once, every file is migrated as often as it is collected, and
this is once for all of them exactly if the lists share files only at their
seams.** -/
theorem files_are_migrated_once_iff {disk : Disk} {settings : Settings}
    {paths files : List String} (hwell : disk.root.isWellFormed)
    (hcollect : Workspace.collect disk settings paths = .ok files) :
    ∃ listings,
      (Workspace.startingPaths paths).mapM (Workspace.filesOf disk settings) = .ok listings ∧
      (∀ listing ∈ listings, (listing.map Path.components).Nodup) ∧
      (∀ found, found ∈ files.map Path.components ↔
        ∃ listing ∈ listings, found ∈ listing.map Path.components) ∧
      (∀ migration context dryRun,
        (migrateFiles migration context dryRun disk files).1.map (·.file) = files) ∧
      ((files.map Path.components).Nodup ↔
        MeetAtSeams (listings.map fun listing => listing.map Path.components)) := by
  obtain ⟨listings, hlistings, hfiles⟩ := exists_ok_of_bind hcollect
  cases hfiles
  have hnodup : ∀ listing ∈ listings, (listing.map Path.components).Nodup := by
    intro listing hlisting
    obtain ⟨path, -, hpath⟩ := exists_source_of_mapM hlistings hlisting
    exact Workspace.nodup_filesOf hwell hpath
  refine ⟨listings, hlistings, hnodup, fun found => ?_,
    fun migration context dryRun => migrateFiles_file migration context dryRun disk _, ?_⟩
  · rw [Workspace.components_withoutRepeats, mem_destutter_ne_iff, List.map_flatten]
    simp
  · rw [Workspace.components_withoutRepeats, nodup_destutter_ne_iff, List.map_flatten,
      meetAtSeams_iff]
    simpa using hnodup

/-- A tree with a script in its root and another one below a directory. -/
def galleryDisk : Disk where
  root := .directory
    [("page.ts", .file { text := some "graphql`\x7b artist \x7b __id \x7d \x7d`" }),
      ("views", .directory [("shows.ts", .file { text := some "run()" })])]

/-- A directory and a file in it are listed one after the other, and the file
is collected once. -/
lemma collect_galleryDisk :
    Workspace.collect galleryDisk {} ["page.ts", "views", "views/shows.ts"] =
      .ok ["page.ts", "views/shows.ts"] := by
  have hentry : galleryDisk.entry? "views" =
      some (.directory [("shows.ts", .file { text := some "run()" })]) := rfl
  have hfiles : (Entry.directory [("shows.ts", .file { text := some "run()" })]).files =
      [["shows.ts"]] := by
    simp [Entry.files, Entry.filesOfEach, Entry.filesOfMember, Entry.isSkipped, Entry.isDirectory]
  have hviews : Workspace.filesOf galleryDisk {} "views" = .ok ["views/shows.ts"] := by
    rw [Workspace.filesOf, hentry]
    simp only [hfiles]
    decide +kernel
  have hpage : Workspace.filesOf galleryDisk {} "page.ts" = .ok ["page.ts"] := rfl
  have hshows : Workspace.filesOf galleryDisk {} "views/shows.ts" = .ok ["views/shows.ts"] := rfl
  simp only [Workspace.collect, Workspace.startingPaths, List.isEmpty_cons, Bool.false_eq_true,
    if_false, List.mapM_cons, List.mapM_nil, hviews, hpage, hshows]
  decide +kernel

theorem files_are_migrated_once_of_gallery :
    galleryDisk.root.isWellFormed ∧
    Workspace.collect galleryDisk {} ["page.ts", "views", "views/shows.ts"] =
      .ok ["page.ts", "views/shows.ts"] ∧
    ∃ listings,
      (Workspace.startingPaths ["page.ts", "views", "views/shows.ts"]).mapM
        (Workspace.filesOf galleryDisk {}) = .ok listings ∧
      MeetAtSeams (listings.map fun listing => listing.map Path.components) := by
  have hwell : galleryDisk.root.isWellFormed := by decide +kernel
  obtain ⟨listings, hlistings, -, -, -, hiff⟩ :=
    files_are_migrated_once_iff hwell collect_galleryDisk
  exact ⟨hwell, collect_galleryDisk, listings, hlistings, hiff.mp (by decide +kernel)⟩

/-- With another file in between, a file that is named twice is collected and
migrated twice. -/
theorem file_named_apart_is_migrated_twice :
    ∃ files,
      Workspace.collect galleryDisk {} ["page.ts", "views/shows.ts", "page.ts"] = .ok files ∧
      ¬ (files.map Path.components).Nodup ∧
      ∀ migration context dryRun,
        ((migrateFiles migration context dryRun galleryDisk files).1.map (·.file)).count
          "page.ts" = 2 := by
  refine ⟨["page.ts", "views/shows.ts", "page.ts"], by decide +kernel, by decide +kernel, ?_⟩
  intro migration context dryRun
  rw [migrateFiles_file]
  decide +kernel

end CommandLine

end GraphMigrate
