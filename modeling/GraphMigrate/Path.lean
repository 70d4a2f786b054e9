/-
Paths with slashes.

Paths are kept as they are written and never tidied up.  Components
are the parts between slashes; empty ones and single dots do not count.

* `fileName?`, `extension?`: the last component and what follows its
  last dot, a dot in first place not counting;
* `join`: a path relative to another; an absolute one replaces it;
* `components`: what the comparison of two paths goes by;
* `parent?`: the path without its last component.
-/
namespace GraphMigrate.Path

/-- The parts of a text between slashes. -/
def parts : List Char → List (List Char)
  | [] => [[]]
  | c :: cs =>
    if c = '/' then [] :: parts cs
    else
      match parts cs with
      | [] => [[c]]
      | part :: later => (c :: part) :: later

/-- Parts that name something. -/
def isNamed (part : List Char) : Bool := part != [] && part != ['.']

/-- The last component of a path.  A path that ends in two dots has no
file name. -/
def fileName? (path : String) : Option (List Char) :=
  match ((parts path.toList).filter isNamed).getLast? with
  | none => none
  | some name => if name = ['.', '.'] then none else some name

/-- What follows the last dot of a file name.  A name whose only dot
comes first has no extension. -/
def nameExtension? (name : List Char) : Option (List Char) :=
  let afterDot := name.reverse.takeWhile (· != '.')
  if afterDot.length + 1 < name.length then some afterDot.reverse else none

/-- The extension of the last component of a path. -/
def extension? (path : String) : Option String :=
  (fileName? path).bind nameExtension? |>.map String.ofList

/-- Whether a path starts at the root. -/
def isAbsolute (path : String) : Bool := path.toList.head? == some '/'

/-- A path relative to another.  An absolute one replaces it. -/
def join (base path : String) : String :=
  if isAbsolute path || base == "" then path
  else if base.toList.getLast? == some '/' then base ++ path
  else base ++ "/" ++ path

/-- The components of a path.  Empty parts and single dots do not count,
but for a dot in first place; the root counts as an empty component. -/
def components (path : String) : List (List Char) :=
  match parts path.toList with
  | [] => []
  | first :: later =>
    let named := later.filter isNamed
    if isAbsolute path then [] :: named
    else if first == [] then named
    else first :: named

/-- Parts without the unnamed ones at their end; the first part stays. -/
def trimmed : List (List Char) → List (List Char)
  | [] => []
  | first :: later => first :: (later.reverse.dropWhile (!isNamed ·)).reverse

/-- The text of parts; a single empty part is the root. -/
def ofParts : List (List Char) → String
  | [[]] => "/"
  | found => String.ofList (List.intercalate ['/'] found)

/-- A path without its last component, written as it was, and empty for a
path of one component.  The root and the empty path have none. -/
def parent? (path : String) : Option String :=
  match trimmed (parts path.toList) with
  | [] | [[]] => none
  | [_] => some ""
  | found => some (ofParts (trimmed found.dropLast))

end GraphMigrate.Path
