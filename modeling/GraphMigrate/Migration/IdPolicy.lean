/-
Policies for identity fields.

A bare `id` is replaced by a field that says which identity is meant.
Which one that is depends on the fields of the type it is selected on.

* `IdPolicy.resolve?`: the replacement that the first fitting rule names.
-/
namespace GraphMigrate

/-- A replacement for `id` and the fields a type must have for it. -/
structure IdRule where
  rename : String
  required : List String
  deriving DecidableEq, Repr, Inhabited

/-- The rules for `id`, tried in order, and what is selected when none
of them fits. -/
structure IdPolicy where
  rules : List IdRule := [⟨"slug", ["slug", "internalID"]⟩, ⟨"internalID", ["internalID"]⟩]
  placeholder : String := "slugORinternalID"
  deriving DecidableEq, Repr, Inhabited

namespace IdRule

/-- A rule fits a type that has all the fields it requires. -/
def fits (hasField : String → Bool) (rule : IdRule) : Bool := rule.required.all hasField

end IdRule

namespace IdPolicy

/-- The replacement that the first fitting rule names. -/
def resolve? (policy : IdPolicy) (hasField : String → Bool) : Option String :=
  (policy.rules.find? (·.fits hasField)).map (·.rename)

end IdPolicy

end GraphMigrate
