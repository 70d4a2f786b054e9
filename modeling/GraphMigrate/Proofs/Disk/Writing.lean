/-
What stands at the places of a tree, and writing.

A tree is seen through what stands at each of its places: nothing, a
directory, or a file with its content.  Where paths lead follows from that
view, and from the kinds of things alone.  Writing to a file changes the
view at the place of the file and nowhere else, so afterwards every path
leads where it led before.

* `Disk.view`: what stands at a place;
* `Disk.resolve?_congr`: paths lead to the same places in trees that hold
  things of the same kinds;
* `Disk.Rewrites`: one tree is another with new contents in some files;
* `Disk.rewrites_of_write?`: writing gives such a tree.
-/
import GraphMigrate.Disk
import Mathlib.Tactic

namespace GraphMigrate

namespace Entry

/-- The content of a file; directories have none. -/
def content? : Entry → Option FileEntry
  | file content => some content
  | directory _ => none

lemma lookup?_cons (name : String) (names : List String) (entry : Entry) :
    entry.lookup? (name :: names) = (entry.children.lookup name).bind (lookup? names) := rfl

lemma lookup?_append (names later : List String) (entry : Entry) :
    entry.lookup? (names ++ later) = (entry.lookup? names).bind (lookup? later) := by
  induction names generalizing entry with
  | nil => rfl
  | cons name names ih =>
      rw [List.cons_append, lookup?_cons, lookup?_cons, Option.bind_assoc]
      exact congrArg _ (funext ih)

lemma lookup_member (name other : String) (entry : Entry) (entries : List (String × Entry)) :
    List.lookup other ((name, entry) :: entries) =
      if other = name then some entry else entries.lookup other := by
  rw [List.lookup_cons]
  split
  · rename_i hname
    rw [if_pos (eq_of_beq hname)]
  · rename_i hname
    rw [if_neg (ne_of_beq_false hname)]

lemma lookup_replace (name other : String) (value : Entry) (entries : List (String × Entry)) :
    (replace name value entries).lookup other =
      if other = name then some value else entries.lookup other := by
  induction entries with
  | nil => exact lookup_member name other value []
  | cons member entries ih =>
      obtain ⟨first, entry⟩ := member
      rw [replace, lookup_member]
      split
      · rename_i hfirst
        obtain rfl := eq_of_beq hfirst
        rw [lookup_member]
        split <;> rfl
      · rename_i hfirst
        rw [lookup_member, ih]
        split
        · rename_i hother
          rw [if_neg]
          rintro rfl
          exact hfirst (beq_iff_eq.mpr hother.symm)
        · rfl

/-- Putting a file in the place of a file changes what stands there and
nothing else. -/
lemma content?_lookup?_put (after : FileEntry) {before : FileEntry} {place : List String}
    {root : Entry} (h : root.lookup? place = some (.file before)) (other : List String) :
    ((put (.file after) place root).lookup? other).map content? =
      if other = place then some (some after) else (root.lookup? other).map content? := by
  induction place generalizing root other with
  | nil =>
      obtain rfl : root = .file before := Option.some.inj h
      cases other with
      | nil => rfl
      | cons name names => rfl
  | cons name place ih =>
      obtain ⟨inner, hinner, hplace⟩ := Option.bind_eq_some_iff.mp h
      cases other with
      | nil =>
          -- a file has no children, so the way down starts at a directory
          cases root with
          | file content => cases hinner
          | directory entries => rfl
      | cons first names =>
          rw [put, lookup?_cons, lookup?_cons, children, lookup_replace]
          by_cases hname : first = name
          · subst hname
            rw [if_pos rfl, hinner, Option.getD_some, Option.bind_some, Option.bind_some,
              ih hplace names]
            simp
          · rw [if_neg hname, if_neg (by simp [hname])]

end Entry

namespace Disk

/-- What stands at a place: nothing, a directory, or a file. -/
def view (disk : Disk) (place : List String) : Option (Option FileEntry) :=
  (disk.at? place).map Entry.content?

variable {disk before after : Disk} {path : String} {place : List String} {content : FileEntry}

lemma at?_concat (disk : Disk) (place : List String) (part : String) :
    disk.at? (place ++ [part]) = (disk.at? place).bind fun here => here.children.lookup part := by
  rw [at?, Entry.lookup?_append]
  exact congrArg _ (funext fun here => Option.bind_fun_some (here.children.lookup part))

lemma view_eq_file_iff : disk.view place = some (some content) ↔
    disk.at? place = some (.file content) := by
  rw [view, Option.map_eq_some_iff]
  constructor
  · rintro ⟨entry, hentry, hcontent⟩
    cases entry with
    | file found =>
        cases hcontent
        exact hentry
    | directory entries => cases hcontent
  · exact fun h => ⟨_, h, rfl⟩

/-! ### Where paths lead -/

/-- Where a part of a path leads follows from the kinds of things. -/
lemma step?_eq (disk : Disk) (place : List String) (part : String) :
    disk.step? place part =
      if (disk.view place).map Option.isSome = some false then
        if part = "" ∨ part = "." then some place
        else if part = ".." then some place.dropLast
        else if ((disk.view (place ++ [part])).map Option.isSome).isSome then some (place ++ [part])
        else none
      else none := by
  rw [step?, view, view, at?_concat]
  cases disk.at? place with
  | none => rfl
  | some here =>
      cases here with
      | file content => rfl
      | directory entries =>
          simp only [Entry.isDirectory, Entry.content?, Option.isSome_map, Option.map_some,
            Option.isSome_none, Option.bind_some, Bool.not_true, bind, beq_iff_eq,
            Bool.or_eq_true, Bool.false_eq_true, if_false, if_true]

/-- Paths lead to the same places in trees that hold things of the same
kinds. -/
lemma resolve?_congr (hcwd : after.cwd = before.cwd)
    (hkinds : ∀ place, (after.view place).map Option.isSome = (before.view place).map Option.isSome)
    (path : String) : after.resolve? path = before.resolve? path := by
  have hstep : after.step? = before.step? := by
    funext place part
    rw [step?_eq, step?_eq, hkinds, hkinds]
  rw [resolve?, resolve?, hcwd, hstep]

lemma file?_eq (disk : Disk) (path : String) :
    disk.file? path = ((disk.resolve? path).bind disk.view).join := by
  rw [file?]
  cases hplace : disk.resolve? path with
  | none =>
      rw [ entry?, hplace]
      rfl
  | some place =>
      have hentry : disk.entry? path = disk.at? place := by
        rw [ entry?, hplace]
        rfl
      rw [hentry, Option.bind_some, view]
      cases disk.at? place with
      | none => rfl
      | some entry => cases entry <;> rfl

lemma file?_eq_some_iff : disk.file? path = some content ↔
    ∃ place, disk.resolve? path = some place ∧ disk.view place = some (some content) := by
  rw [file?_eq, Option.join_eq_some_iff, Option.bind_eq_some_iff]

/-! ### Trees with new contents -/

/-- One tree is another in which the content of the file at each place goes
through a function; everything else stays as it is. -/
structure Rewrites (rewrite : List String → FileEntry → FileEntry) (before after : Disk) :
    Prop where
  cwd : after.cwd = before.cwd
  view : ∀ place, after.view place = (before.view place).map (Option.map (rewrite place))

namespace Rewrites

variable {rewrite : List String → FileEntry → FileEntry}

lemma refl (disk : Disk) : Rewrites (fun _ content => content) disk disk :=
  ⟨rfl, fun place => by
    change _ = (disk.view place).map (Option.map id)
    rw [Option.map_id_fun, Option.map_id_fun, id]⟩

/-- Only the contents of files that are there count. -/
lemma congr {rewrite' : List String → FileEntry → FileEntry} (h : Rewrites rewrite before after)
    (hsame : ∀ place content, before.view place = some (some content) →
      rewrite place content = rewrite' place content) : Rewrites rewrite' before after :=
  ⟨h.cwd, fun place => by
    rw [h.view]
    cases hview : before.view place with
    | none => rfl
    | some content =>
        cases content with
        | none => rfl
        | some content => exact congrArg (some <| some ·) (hsame place content hview)⟩

/-- At one place only the content that stands there counts. -/
lemma congr_at {change change' : FileEntry → FileEntry}
    (h : Rewrites (fun other old => if other = place then change old else old) before after)
    (hcontent : before.view place = some (some content)) (hsame : change content = change' content) :
    Rewrites (fun other old => if other = place then change' old else old) before after := by
  refine h.congr fun other old hold => ?_
  split
  · rename_i hother
    rw [hother, hcontent, Option.some.injEq, Option.some.injEq] at hold
    rw [← hold, hsame]
  · rfl

lemma trans {rewrite' : List String → FileEntry → FileEntry} {middle : Disk}
    (h : Rewrites rewrite before middle) (h' : Rewrites rewrite' middle after) :
    Rewrites (fun place content => rewrite' place (rewrite place content)) before after :=
  ⟨h'.cwd.trans h.cwd, fun place => by
    rw [h'.view, h.view, Option.map_map]
    cases before.view place with
    | none => rfl
    | some content => cases content <;> rfl⟩

/-- A place stays as it is where the content of its file does. -/
lemma view_eq (h : Rewrites rewrite before after)
    (hkept : ∀ content, before.view place = some (some content) → rewrite place content = content) :
    after.view place = before.view place := by
  rw [h.view]
  cases hview : before.view place with
  | none => rfl
  | some content =>
      cases content with
      | none => rfl
      | some content => exact congrArg (some <| some ·) (hkept content hview)

/-- A place changes exactly if a file stands there whose content does. -/
lemma view_ne_iff (h : Rewrites rewrite before after) : after.view place ≠ before.view place ↔
    ∃ content, before.view place = some (some content) ∧ rewrite place content ≠ content := by
  constructor
  · intro hne
    by_contra hnone
    exact hne (h.view_eq fun content hview => not_not.mp fun hcontent =>
      hnone ⟨content, hview, hcontent⟩)
  · rintro ⟨content, hview, hcontent⟩ heq
    rw [h.view, hview] at heq
    exact hcontent (Option.some.inj (Option.some.inj heq))

lemma resolve? (h : Rewrites rewrite before after) (path : String) :
    after.resolve? path = before.resolve? path :=
  resolve?_congr h.cwd (fun place => by
    rw [h.view, Option.map_map]
    cases before.view place with
    | none => rfl
    | some content => cases content <;> rfl) path

end Rewrites

/-- Writing succeeds exactly for files that can be written, and changes the
text of the file. -/
lemma rewrites_of_write? (text : String) (hplace : disk.resolve? path = some place)
    (hcontent : disk.view place = some (some content)) :
    if content.writable then
      ∃ after, disk.write? path text = some after ∧
        Rewrites (fun other old => if other = place then { old with text := some text } else old)
          disk after
    else disk.write? path text = none := by
  have hfile : disk.file? path = some content := file?_eq_some_iff.mpr ⟨place, hplace, hcontent⟩
  have hwrite : disk.write? path text =
      if content.writable then
        some { disk with root := .put (.file { content with text := some text }) place disk.root }
      else none := by
    rw [write?, hplace, hfile]
    rfl
  rw [hwrite]
  split
  · refine ⟨_, rfl, rfl, fun other => ?_⟩
    have hput := Entry.content?_lookup?_put { content with text := some text }
      (view_eq_file_iff.mp hcontent) other
    rw [view, at?, hput]
    split
    · rename_i hother
      rw [hother, hcontent]
      rfl
    · change disk.view other = (disk.view other).map (Option.map id)
      rw [Option.map_id_fun, Option.map_id_fun, id]
  · rfl

end Disk

end GraphMigrate
