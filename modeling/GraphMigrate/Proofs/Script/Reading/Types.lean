/-
Readers of types stay in their text.
-/
import GraphMigrate.Proofs.Script.Reading
import GraphMigrate.Script.Grammar.Types

namespace GraphMigrate.Script.Grammar

open Std.Do

set_option mvcgen.warning false

variable [Subject] {rec : Rec} (hrec : ∀ goal, Reads (rec goal))

@[spec] lemma reads_typeGroup (start : Nat) {inside : List Node} (h : Agrees text inside) :
    Reads (typeGroup start inside) := by
  mvcgen [typeGroup] with grind

@[spec] lemma reads_entityName : Reads entityName := by
  mvcgen [entityName] with grind

@[spec] lemma reads_mappedMark : Reads mappedMark := by
  mvcgen [mappedMark] with grind

@[spec] lemma reads_memberEnd : Reads memberEnd := by
  mvcgen [memberEnd] with grind

@[spec] lemma reads_atMappedType : Reads atMappedType := reads_lookahead _

include hrec

@[spec] lemma reads_typeArguments : Reads (typeArguments rec) := by
  mvcgen [typeArguments, hrec] with grind

@[spec] lemma reads_typeAnnotation? : Reads (typeAnnotation? rec) := by
  mvcgen [typeAnnotation?, hrec] with grind

@[spec] lemma reads_typeParameter : Reads (typeParameter rec) := by
  mvcgen [typeParameter, hrec] with grind

@[spec] lemma reads_typeParameters : Reads (typeParameters rec) := by
  mvcgen [typeParameters, hrec] with grind

@[spec] lemma reads_typeParameters? : Reads (typeParameters? rec) := by
  mvcgen [typeParameters?, hrec] with grind

@[spec] lemma reads_resultType : Reads (resultType rec) := by
  mvcgen [resultType, hrec] with grind

@[spec] lemma reads_returnType? : Reads (returnType? rec) := by
  mvcgen [returnType?, hrec] with grind

@[spec] lemma reads_typeFunctionParameter : Reads (typeFunctionParameter rec) := by
  mvcgen [typeFunctionParameter, hrec] with grind

@[spec] lemma reads_typeFunctionParameters : Reads (typeFunctionParameters rec) := by
  mvcgen [typeFunctionParameters, hrec] with grind

@[spec] lemma reads_functionType (start : Nat) : Reads (functionType rec start) := by
  mvcgen [functionType, hrec] with grind

@[spec] lemma reads_typeReference : Reads (typeReference rec) := by
  mvcgen [typeReference, hrec] with grind

@[spec] lemma reads_mappedType : Reads (mappedType rec) := by
  mvcgen [mappedType, hrec] with grind

@[spec] lemma reads_signature (start : Nat) {index : List Node} (h : Agrees text index) :
    Reads (signature rec start index) := by
  mvcgen [signature, hrec] with grind

@[spec] lemma reads_typeMember : Reads (typeMember rec) := by
  mvcgen [typeMember, hrec] with grind

@[spec] lemma reads_typeMembers : Reads (typeMembers rec) := by
  mvcgen [typeMembers, hrec] with grind

@[spec] lemma reads_tupleElement : Reads (tupleElement rec) := by
  mvcgen [tupleElement, hrec] with grind

@[spec] lemma reads_primaryType : Reads (primaryType rec) := by
  mvcgen [primaryType, hrec] with grind

@[spec] lemma reads_postfixType : Reads (postfixType rec) := by
  mvcgen [postfixType, hrec] with grind

@[spec] lemma reads_operatorType (fuel : Nat) : Reads (operatorType rec fuel) := by
  induction fuel with
  | zero => exact reads_fail
  | succ fuel ih => mvcgen [operatorType, hrec, ih] with grind

omit hrec in
@[spec] lemma reads_joinedType (operator : Punct) {item : Parse Node} (h : Reads item) :
    Reads (joinedType operator item) := by
  mvcgen [joinedType, h] with grind

@[spec] lemma reads_unionType : Reads (unionType rec) := by
  mvcgen [unionType, hrec]

@[spec] lemma reads_plainType : Reads (plainType rec) := by
  mvcgen [plainType, hrec] with grind

@[spec] lemma reads_typeReader : Reads (typeReader rec) := by
  mvcgen [typeReader, hrec] with grind

end GraphMigrate.Script.Grammar
