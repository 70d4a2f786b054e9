/-
Object patterns, as they are written and as they take objects apart.

A member of an object pattern has a key, a target that what stands under the
key is bound to, and possibly a value in place of what is undefined.  A target
can be an object pattern again.  Members are bound from left to right, so the
expressions in later ones see the variables of earlier ones.

* `ObjectPattern`, `ObjectPattern.written`: patterns with all that stands
  between their parts;
* `ObjectPattern.properties`: the members as a script that holds the pattern
  has them;
* `PatternRuntime`: what becomes of the parts of a pattern that are neither
  names nor braces;
* `ObjectPattern.bind?`: the variables after an object is taken apart;
* `ObjectPattern.renamed`: the pattern with other keys.
-/
import GraphMigrate.Proofs.Arguments.RuntimeObject

namespace GraphMigrate

/-! ### Written patterns -/

/-- A key and the text that it is written as. -/
structure PatternKey where
  name : String
  text : String
  deriving DecidableEq, Repr

/-- An expression for what is undefined, behind an equals sign. -/
structure Fallback where
  sign : String
  code : String
  deriving DecidableEq, Repr

/-- The text of a fallback, if there is one. -/
def Fallback.writtenAny : Option Fallback → String
  | none => ""
  | some fallback => fallback.sign ++ fallback.code

/-- A rest element: all that stands before its name, three dots at the end,
and the name. -/
structure RestElement where
  lead : String
  name : String
  deriving DecidableEq, Repr

/-- The text of a rest element, if there is one. -/
def RestElement.writtenAny : Option RestElement → String
  | none => ""
  | some rest => rest.lead ++ rest.name

mutual

/-- Members in braces, with what stands behind the last one. -/
inductive ObjectPattern where
  | braces (members : List PatternMember) (rest : Option RestElement) (close : String)

/-- What a value is bound to: a variable, the members of an object pattern,
or a pattern of another kind. -/
inductive PatternTarget where
  | variable (name : String)
  | object (pattern : ObjectPattern)
  | other (code : String)

/-- A member of an object pattern, with what stands before it. -/
inductive PatternMember where
  | shorthand (lead name : String) (fallback : Option Fallback)
  | keyed (lead : String) (key : PatternKey) (colon : String) (target : PatternTarget)
      (fallback : Option Fallback)

end

mutual

/-- The text of an object pattern. -/
def ObjectPattern.written : ObjectPattern → String
  | .braces members rest close =>
    "\x7b" ++ (PatternMember.writtenAll members ++ (RestElement.writtenAny rest ++ close))

/-- The text of a target. -/
def PatternTarget.written : PatternTarget → String
  | .variable name => name
  | .object pattern => pattern.written
  | .other code => code

/-- The text of a member. -/
def PatternMember.written : PatternMember → String
  | .shorthand lead name fallback => lead ++ (name ++ Fallback.writtenAny fallback)
  | .keyed lead key colon target fallback =>
    lead ++ (key.text ++ (colon ++ target.written ++ Fallback.writtenAny fallback))

/-- The text of members. -/
def PatternMember.writtenAll : List PatternMember → String
  | [] => ""
  | member :: members => member.written ++ PatternMember.writtenAll members

end

namespace PatternMember

/-- The key of a member. -/
def key : PatternMember → String
  | shorthand _ name _ => name
  | keyed _ key _ _ _ => key.name

/-- The text of the key of a member. -/
def keyText : PatternMember → String
  | shorthand _ name _ => name
  | keyed _ key _ _ _ => key.text

/-- What stands before the key of a member. -/
def lead : PatternMember → String
  | shorthand lead _ _ => lead
  | keyed lead _ _ _ _ => lead

/-- The member in a script in which it begins at an offset. -/
def property (offset : ℕ) (member : PatternMember) : PatternProperty where
  key := member.key
  keySpan :=
    let start := offset + byteLength member.lead.toList
    ⟨start, start + byteLength member.keyText.toList⟩
  binding :=
    match member with
    | shorthand .. => .shorthand
    | keyed .. => .renamed

/-- Members in a script in which the first begins at an offset. -/
def propertiesFrom (offset : ℕ) : List PatternMember → List PatternProperty
  | [] => []
  | member :: members =>
    member.property offset :: propertiesFrom (offset + byteLength member.written.toList) members

end PatternMember

namespace ObjectPattern

/-- The members of a pattern. -/
def members : ObjectPattern → List PatternMember
  | braces members _ _ => members

/-- The rest element of a pattern. -/
def rest : ObjectPattern → Option RestElement
  | braces _ rest _ => rest

/-- The keys that a pattern names. -/
def keys (pattern : ObjectPattern) : List String := pattern.members.map (·.key)

/-- The members of a pattern in a script in which it begins at an offset. -/
def properties (offset : ℕ) (pattern : ObjectPattern) : List PatternProperty :=
  PatternMember.propertiesFrom (offset + 1) pattern.members

end ObjectPattern

/-! ### Taking objects apart -/

variable {V : Type}

/-- The variables with one more, which hides any other of its name.  There
are none if the name cannot be that of a variable. -/
def Scope.with? (s : Scope V) (name : String) (bound : Bound V) : Option (Scope V) :=
  if isVariableName name then some ⟨fun x => if x = name then some bound else s.read? x⟩
  else none

/-- What a run makes of the parts of a pattern that are neither names nor
braces.  Each of them may stop the run. -/
structure PatternRuntime (V : Type) where
  /-- The key that a text stands for.  Nothing stands for none, and a word for
  itself. -/
  key? : String → Option String
  key?_empty : key? "" = none
  key?_of_isWord : ∀ name, isWord name = true → key? name = some name
  /-- The value of an expression. -/
  value? : String → Scope V → Option (Option V)
  /-- What can be read from a value; nothing from one that is undefined. -/
  members? : Option V → Option (RuntimeObject V)
  /-- The variables after a pattern of another kind. -/
  bindOther? : String → Option V → Scope V → Option (Scope V)

/-- A value, or that of a fallback if it is undefined. -/
def PatternRuntime.valueOr? (runtime : PatternRuntime V) (fallback : Option Fallback)
    (v : Option V) (s : Scope V) : Option (Option V) :=
  match v, fallback with
  | none, some fallback => runtime.value? fallback.code s
  | v, _ => some v

/-- The variables after the rest of an object is bound, if a pattern asks for
it. -/
def RestElement.bindAny? (rest : Option RestElement) (o : RuntimeObject V) (s : Scope V) :
    Option (Scope V) :=
  match rest with
  | none => some s
  | some rest => s.with? rest.name (.object o)

mutual

/-- The variables after an object is taken apart by a pattern. -/
def ObjectPattern.bind? (runtime : PatternRuntime V) :
    ObjectPattern → RuntimeObject V → Scope V → Option (Scope V)
  | .braces members rest _, o, s => do
    let s ← PatternMember.bindAll? runtime members o s
    RestElement.bindAny? rest (o.without (members.map (·.key))) s

/-- The variables after a value is bound to a target. -/
def PatternTarget.bind? (runtime : PatternRuntime V) :
    PatternTarget → Option V → Scope V → Option (Scope V)
  | .variable name, v, s => s.with? name (.value v)
  | .object pattern, v, s => do pattern.bind? runtime (← runtime.members? v) s
  | .other code, v, s => runtime.bindOther? code v s

/-- The variables after a member takes what stands under its key. -/
def PatternMember.bind? (runtime : PatternRuntime V) :
    PatternMember → RuntimeObject V → Scope V → Option (Scope V)
  | .shorthand _ name fallback, o, s => do
    let v ← runtime.valueOr? fallback (o.get name) s
    s.with? name (.value v)
  | .keyed _ key _ target fallback, o, s =>
    if runtime.key? key.text = some key.name then do
      let v ← runtime.valueOr? fallback (o.get key.name) s
      target.bind? runtime v s
    else none

/-- The variables after one member after another. -/
def PatternMember.bindAll? (runtime : PatternRuntime V) :
    List PatternMember → RuntimeObject V → Scope V → Option (Scope V)
  | [], _, s => some s
  | member :: members, o, s => do
    let s ← member.bind? runtime o s
    PatternMember.bindAll? runtime members o s

end

/-! ### Other keys -/

/-- A member with another key, bound to what it was bound to before. -/
def PatternMember.withKey (newName : String) : PatternMember → PatternMember
  | .shorthand lead name fallback =>
    .keyed lead ⟨newName, newName⟩ ": " (.variable name) fallback
  | .keyed lead _ colon target fallback => .keyed lead ⟨newName, newName⟩ colon target fallback

/-- A member with the key that renames give it. -/
def PatternMember.renamed (map : FieldMap) (renames : List Rename) (member : PatternMember) :
    PatternMember :=
  match patternName? map renames member.key with
  | none => member
  | some newName => member.withKey newName

/-- A pattern with the keys that renames give it. -/
def ObjectPattern.renamed (map : FieldMap) (renames : List Rename) : ObjectPattern → ObjectPattern
  | .braces members rest close =>
    .braces (members.map (PatternMember.renamed map renames)) rest close

end GraphMigrate
