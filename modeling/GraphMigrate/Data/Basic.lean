/-
Plain data.

Settings are read from plain data, and reports are written as such:
values without a meaning of their own, whose objects keep their members
in the order of the text.

* `Data`, `Data.strings`: the values, and a list of strings as one.
-/
namespace GraphMigrate

/-- A value.  Numbers are kept as they are written. -/
inductive Data where
  | null
  | bool (value : Bool)
  | number (text : String)
  | string (content : String)
  | list (items : List Data)
  | object (members : List (String × Data))
  deriving Repr, Inhabited

namespace Data

/-- A natural number. -/
def nat (n : Nat) : Data := .number (toString n)

/-- A list of strings. -/
def strings (contents : List String) : Data := .list (contents.map .string)

/-- A string that may be missing. -/
def optional : Option String → Data
  | none => .null
  | some content => .string content

end Data

end GraphMigrate
