/-
Naming conventions of fields and arguments.

Database names are written in snake case.  In camel case the words
between underscores are put together, every word but the first with its
first letter in upper case, and a few acronyms are written in capitals:
`channel_id` becomes `channelID`.

* `needsCamelize`: names with an underscore that do not start with two;
* `camelize`: the camel case form of such a name, any other unchanged;
* `stripConnectionSuffix?`: the name of the list that a connection
  field stands beside.
-/
import GraphMigrate.Text.Upper

namespace GraphMigrate.Naming

/-- Words that camel case writes in capitals. -/
def acronyms : List (String × String) :=
  [("id", "ID"), ("ids", "IDs"), ("url", "URL"), ("usd", "USD"), ("utc", "UTC"),
    ("md", "MD"), ("jwt", "JWT")]

/-- The written form of an acronym. -/
def acronym? (word : String) : Option String := acronyms.lookup word

/-- The words of a name: its parts between underscores. -/
def words : List Char → List (List Char)
  | [] => [[]]
  | c :: cs =>
    if c = '_' then [] :: words cs
    else
      match words cs with
      | [] => [[c]]
      | word :: later => (c :: word) :: later

/-- Names with an underscore, unless reserved by two in front. -/
def needsCamelize (name : String) : Bool :=
  !(['_', '_'].isPrefixOf name.toList) && name.toList.contains '_'

/-- A word after the table of acronyms. -/
def spell (word : List Char) : List Char :=
  match acronym? (String.ofList word) with
  | some written => written.toList
  | none => word

/-- Puts words together, every one but the first capitalised. -/
def assemble : List (List Char) → List Char
  | [] => []
  | first :: later => spell first ++ later.flatMap fun word => Upper.upperFirst (spell word)

/-- The camel case form of a name in snake case. -/
def camelize (name : String) : String :=
  if needsCamelize name then String.ofList (assemble (words name.toList)) else name

/-- A text without a given ending. -/
def dropEnding? (ending cs : List Char) : Option (List Char) :=
  if ending.isSuffixOf cs then some (cs.take (cs.length - ending.length)) else none

/-- The name of a connection field without `_connection` or `Connection`. -/
def stripConnectionSuffix? (name : String) : Option String :=
  let cs := name.toList
  match (dropEnding? "_connection".toList cs).or (dropEnding? "Connection".toList cs) with
  | some (c :: bare) => some (String.ofList (c :: bare))
  | _ => none

end GraphMigrate.Naming
