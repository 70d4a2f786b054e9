/-
Directory trees.

A tree holds files and directories; there are no links in it.  A file
whose bytes are no text is known only as that.  Paths are followed part
by part, so every directory that a path passes through has to be there.

* `Entry`, `Entry.lookup?`, `Entry.put`: a file or directory, what stands
  below it, and a change of it;
* `Entry.files`: the files below a directory, by name;
* `Disk`, `Disk.entry?`, `Disk.write?`: a tree that is looked at from one
  of its directories.
-/
import GraphMigrate.Path

namespace GraphMigrate

/-- What is known of a file. -/
structure FileEntry where
  /-- The text, if the bytes are one. -/
  text : Option String
  /-- Whether another text can be written. -/
  writable : Bool := true
  deriving DecidableEq, Repr, Inhabited

/-- A file or a directory. -/
inductive Entry where
  | file (content : FileEntry)
  | directory (entries : List (String × Entry))
  deriving Repr, Inhabited

namespace Entry

/-- Whether an entry is a directory. -/
def isDirectory : Entry → Bool
  | directory _ => true
  | file _ => false

/-- What stands in a directory, and nothing in a file. -/
def children : Entry → List (String × Entry)
  | directory entries => entries
  | file _ => []

/-- What stands below an entry under a path. -/
def lookup? : List String → Entry → Option Entry
  | [], entry => some entry
  | name :: names, entry => (entry.children.lookup name).bind (lookup? names)

/-- Members with a value for a name, which replaces an earlier one. -/
def replace (name : String) (value : Entry) : List (String × Entry) → List (String × Entry)
  | [] => [(name, value)]
  | (other, entry) :: later =>
    if other == name then (name, value) :: later else (other, entry) :: replace name value later

/-- An entry with a value below it under a path; missing directories are
made. -/
def put (value : Entry) : List String → Entry → Entry
  | [], _ => value
  | name :: names, entry =>
    let before := (entry.children.lookup name).getD (directory [])
    directory (replace name (put value names before) entry.children)

/-- Directories that are not entered. -/
def isSkippedName (name : String) : Bool :=
  name.toList.head? == some '.' || name == "node_modules" || name == "__generated__"

/-- Whether an entry is a directory that is not entered. -/
def isSkipped (name : String) (entry : Entry) : Bool := entry.isDirectory && isSkippedName name

mutual

/-- The files below an entry, as paths from it, by name. -/
def files : Entry → List (List String)
  | file _ => [[]]
  | directory entries =>
    ((filesOfEach entries).mergeSort fun a b => decide (a.1 ≤ b.1)).flatMap (·.2)

/-- The files below each of the members of a directory. -/
def filesOfEach : List (String × Entry) → List (String × List (List String))
  | [] => []
  | member :: members => filesOfMember member :: filesOfEach members

/-- The files below a member of a directory. -/
def filesOfMember : String × Entry → String × List (List String)
  | (name, entry) =>
    (name, if isSkipped name entry then [] else (files entry).map (name :: ·))

end

end Entry

/-- A tree and the directory from which it is looked at. -/
structure Disk where
  root : Entry := .directory []
  cwd : List String := []
  deriving Repr, Inhabited

namespace Disk

/-- The entry at a place. -/
def at? (disk : Disk) (place : List String) : Option Entry := disk.root.lookup? place

/-- The place to which one part of a path leads from a directory. -/
def step? (disk : Disk) (place : List String) (part : String) : Option (List String) := do
  let here ← disk.at? place
  if !here.isDirectory then none
  else if part == "" || part == "." then some place
  else if part == ".." then some place.dropLast
  else if (here.children.lookup part).isSome then some (place ++ [part])
  else none

/-- The place to which a path leads. -/
def resolve? (disk : Disk) (path : String) : Option (List String) :=
  if path == "" then none
  else
    let start := if Path.isAbsolute path then [] else disk.cwd
    ((Path.parts path.toList).map String.ofList).foldlM disk.step? start

/-- The entry to which a path leads. -/
def entry? (disk : Disk) (path : String) : Option Entry := do disk.at? (← disk.resolve? path)

/-- The file to which a path leads. -/
def file? (disk : Disk) (path : String) : Option FileEntry :=
  match disk.entry? path with
  | some (.file content) => some content
  | _ => none

/-- The text of the file to which a path leads. -/
def read? (disk : Disk) (path : String) : Option String := (disk.file? path).bind (·.text)

/-- The tree with another text in the file to which a path leads, if it
can be written. -/
def write? (disk : Disk) (path text : String) : Option Disk := do
  let place ← disk.resolve? path
  let content ← disk.file? path
  if content.writable then
    some { disk with root := Entry.put (.file { content with text := some text }) place disk.root }
  else none

/-- The path of a place from the root. -/
def absolute (place : List String) : String := "/" ++ String.intercalate "/" place

/-- The directories from one up to the root. -/
def ancestors (place : List String) : List (List String) :=
  (List.range (place.length + 1)).map fun up => place.take (place.length - up)

end Disk

end GraphMigrate
