/-
Objects at run time, taken apart and put together.

An object pattern of names binds a variable for each key and, with a rest
element, one for the object of all other keys.  An object literal reads
variables and may spread such an object at its end.

* `RuntimeObject`: what stands under each key; an absent key reads as
  undefined;
* `Destructuring`, `Destructuring.bind?`: a pattern, and the variables
  that it binds;
* `Reconstruction`, `Reconstruction.eval?`: a literal, and its value;
* `Scope.declaring`: a variable cannot be read while it is declared.
-/
import GraphMigrate.Proofs.Arguments.RenamePlan
import GraphMigrate.Proofs.Script.VariableName

namespace GraphMigrate

variable {V : Type}

/-- An object at run time: under each key nothing, or a value, which may
be undefined. -/
@[ext] structure RuntimeObject (V : Type) where
  lookup? : String → Option (Option V)

namespace RuntimeObject

/-- The object without keys. -/
def empty : RuntimeObject V := ⟨fun _ => none⟩

/-- What a key reads as.  An absent key reads as undefined. -/
def get (o : RuntimeObject V) (key : String) : Option V := (o.lookup? key).join

/-- An object with a value under a key. -/
def set (o : RuntimeObject V) (key : String) (value : Option V) : RuntimeObject V :=
  ⟨fun k => if k = key then some value else o.lookup? k⟩

/-- An object without some keys. -/
def without (o : RuntimeObject V) (keys : List String) : RuntimeObject V :=
  ⟨fun k => if k ∈ keys then none else o.lookup? k⟩

/-- An object with all that another one has put over it. -/
def spread (o added : RuntimeObject V) : RuntimeObject V :=
  ⟨fun k => (added.lookup? k).or (o.lookup? k)⟩

/-- An object whose keys are renamed. -/
def renamed (o : RuntimeObject V) (renames : List Rename) : RuntimeObject V :=
  ⟨fun k =>
    match renames.find? (·.newName == k) with
    | some r => o.lookup? r.field.key
    | none => if k ∈ oldNames renames then none else o.lookup? k⟩

@[simp] lemma lookup?_empty (k : String) : (empty : RuntimeObject V).lookup? k = none := rfl

@[simp] lemma lookup?_set (o : RuntimeObject V) (key : String) (value : Option V) (k : String) :
    (o.set key value).lookup? k = if k = key then some value else o.lookup? k := rfl

@[simp] lemma lookup?_without (o : RuntimeObject V) (keys : List String) (k : String) :
    (o.without keys).lookup? k = if k ∈ keys then none else o.lookup? k := rfl

@[simp] lemma lookup?_spread (o added : RuntimeObject V) (k : String) :
    (o.spread added).lookup? k = (added.lookup? k).or (o.lookup? k) := rfl

/-- Under a new name a renamed object has what stood under the old one. -/
lemma lookup?_renamed_newName {o : RuntimeObject V} {renames : List Rename}
    (hnodup : (newNames renames).Nodup) {r : Rename} (hr : r ∈ renames) :
    (o.renamed renames).lookup? r.newName = o.lookup? r.field.key := by
  have hfind : renames.find? (·.newName == r.newName) = some r := by
    induction renames with
    | nil => cases hr
    | cons first later ih =>
        obtain ⟨hnot, hlater⟩ := List.nodup_cons.mp hnodup
        rw [List.find?_cons]
        rcases List.mem_cons.mp hr with rfl | hr
        · simp
        · have hne : first.newName ≠ r.newName := fun heq =>
            hnot (List.mem_map.mpr ⟨r, hr, heq.symm⟩)
          rw [beq_eq_false_iff_ne.mpr hne]
          exact ih hlater hr
  simp only [renamed, hfind]

/-- Under any other name it has what stood there, unless the name is
replaced. -/
lemma lookup?_renamed_of_notMem {o : RuntimeObject V} {renames : List Rename} {k : String}
    (hk : k ∉ newNames renames) :
    (o.renamed renames).lookup? k = if k ∈ oldNames renames then none else o.lookup? k := by
  have hnone : renames.find? (·.newName == k) = none := by
    rw [List.find?_eq_none]
    intro r hr heq
    exact hk (List.mem_map.mpr ⟨r, hr, beq_iff_eq.mp heq⟩)
  simp only [renamed, hnone]

end RuntimeObject

/-- What a variable holds: a value, or the object of a rest element. -/
inductive Bound (V : Type) where
  | value (v : Option V)
  | object (o : RuntimeObject V)

/-- The variables that can be read. -/
structure Scope (V : Type) where
  read? : String → Option (Bound V)

/-- The variables that can be read while one is declared: not that one,
which hides any other of its name and has no value yet. -/
def Scope.declaring (s : Scope V) (name : String) : Scope V :=
  ⟨fun x => if x = name then none else s.read? x⟩

/-- An object pattern that binds keys under their own names, and possibly
the rest. -/
structure Destructuring where
  names : List String
  rest : Option String
  deriving DecidableEq, Repr

namespace Destructuring

/-- The pattern as it is written. -/
def written (p : Destructuring) : String :=
  inBraces (p.names ++ p.rest.toList.map ("..." ++ ·))

/-- The variables that a pattern binds to an object.  A pattern that names
a variable twice, or by what is no name of a variable, is refused. -/
def bind? (p : Destructuring) (o : RuntimeObject V) : Option (Scope V) :=
  if (p.names ++ p.rest.toList).Nodup ∧
      ∀ x ∈ p.names ++ p.rest.toList, isVariableName x = true then
    some ⟨fun x =>
      if x ∈ p.names then some (.value (o.get x))
      else if p.rest = some x then some (.object (o.without p.names))
      else none⟩
  else none

end Destructuring

/-- An object literal that has variables under keys, and possibly an
object spread at its end. -/
structure Reconstruction where
  members : List (String × String)
  rest : Option String
  deriving DecidableEq, Repr

namespace Reconstruction

/-- The literal as it is written. -/
def written (l : Reconstruction) : String :=
  inBraces (l.members.map (fun (key, name) => key ++ ": " ++ name)
    ++ l.rest.toList.map ("..." ++ ·))

/-- An object with one more member of a literal, whose key is a word. -/
def addMember (s : Scope V) (o : RuntimeObject V) (member : String × String) :
    Option (RuntimeObject V) :=
  if isWord member.1 then
    match s.read? member.2 with
    | some (.value v) => some (o.set member.1 v)
    | _ => none
  else none

/-- The value of a literal.  There is none when a key cannot be written as
it is, or a variable that is needed cannot be read. -/
def eval? (l : Reconstruction) (s : Scope V) : Option (RuntimeObject V) := do
  let named ← l.members.foldlM (addMember s) .empty
  match l.rest with
  | none => some named
  | some x =>
    match s.read? x with
    | some (.object o) => some (named.spread o)
    | _ => none

end Reconstruction

namespace Reconstruction

/-- Members that read the values of an object under some keys give these
keys what they read as there, and leave all others. -/
lemma foldlM_addMember {s : Scope V} {o acc : RuntimeObject V} {renames : List Rename}
    (hwords : ∀ r ∈ renames, isWord r.field.key = true)
    (hread : ∀ r ∈ renames, s.read? r.newName = some (.value (o.get r.field.key))) :
    (renames.map fun r => (r.field.key, r.newName)).foldlM (addMember s) acc =
      some ⟨fun k => if k ∈ oldNames renames then some (o.get k) else acc.lookup? k⟩ := by
  induction renames generalizing acc with
  | nil => simp [oldNames]
  | cons first later ih =>
      have hadd : addMember s acc (first.field.key, first.newName) =
          some (acc.set first.field.key (o.get first.field.key)) := by
        rw [addMember, if_pos (hwords first List.mem_cons_self),
          hread first List.mem_cons_self]
      rw [List.map_cons, List.foldlM_cons, hadd, Option.bind_eq_bind, Option.bind_some,
        ih (fun r hr => hwords r (List.mem_cons_of_mem _ hr))
          fun r hr => hread r (List.mem_cons_of_mem _ hr)]
      congr 1
      ext1
      funext k
      simp only [RuntimeObject.lookup?_set, oldNames, List.map_cons, List.mem_cons]
      by_cases hlater : k ∈ later.map (·.field.key)
      · simp [hlater]
      · by_cases hk : k = first.field.key <;> simp [hlater, hk]

/-- A literal has no value when one of its members cannot be added. -/
lemma foldlM_addMember_eq_none {s : Scope V} {members : List (String × String)}
    {member : String × String} (hmem : member ∈ members)
    (hnone : ∀ acc, addMember s acc member = none) (acc : RuntimeObject V) :
    members.foldlM (addMember s) acc = none := by
  induction members generalizing acc with
  | nil => cases hmem
  | cons first later ih =>
      rw [List.foldlM_cons]
      rcases List.mem_cons.mp hmem with rfl | hmem
      · rw [hnone]
        rfl
      · cases addMember s acc first with
        | none => rfl
        | some acc' => exact ih hmem acc'

end Reconstruction

end GraphMigrate
