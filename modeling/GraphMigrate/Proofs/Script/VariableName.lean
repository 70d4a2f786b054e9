/-
Names that a script can give to variables.

A word begins with a letter and goes on with letters and digits.  Most
words name variables, but some have a meaning of their own, and more of
them do in modules, which are always read in the strict way.

* `isWord`, `isVariableName`: words, and those that name variables;
* `isWordPart_of_isWordStart`: what begins a word may go on one, so
  `isVariableName_underscore` puts an underscore in front of a variable.
-/
import GraphMigrate.Script.Grammar.Basic
import Mathlib.Data.List.TakeWhile
import Mathlib.Tactic

namespace GraphMigrate

/-! ### Words -/

namespace Letters

/-- What is found in ascending ranges lies in one of them. -/
lemma exists_of_inRanges {code : ℕ} {rs : List (ℕ × ℕ)} (h : inRanges code rs = true) :
    ∃ r ∈ rs, r.1 ≤ code ∧ code ≤ r.2 := by
  induction rs with
  | nil => cases h
  | cons r rs ih =>
      rw [inRanges] at h
      split at h
      · cases h
      · split at h
        · exact ⟨r, List.mem_cons_self, by omega, by assumption⟩
        · obtain ⟨r', hr', hle⟩ := ih h
          exact ⟨r', List.mem_cons_of_mem r hr', hle⟩

/-- What lies in one of several ascending ranges is found there. -/
lemma inRanges_of_mem {code : ℕ} {rs : List (ℕ × ℕ)} (hsorted : rs.Pairwise (·.1 ≤ ·.1))
    {r : ℕ × ℕ} (hr : r ∈ rs) (hlow : r.1 ≤ code) (hhigh : code ≤ r.2) :
    inRanges code rs = true := by
  induction rs with
  | nil => cases hr
  | cons first later ih =>
      obtain ⟨hfirst, hlater⟩ := List.pairwise_cons.mp hsorted
      rw [inRanges]
      rcases List.mem_cons.mp hr with rfl | hr
      · rw [if_neg (by omega), if_pos hhigh]
      · have := hfirst r hr
        rw [if_neg (by omega)]
        split
        · rfl
        · exact ih hlater hr

set_option maxRecDepth 8000 in
lemma isChain_namePartRanges : namePartRanges.IsChain (·.1 ≤ ·.1) := by
  decide

/-- Whether each of some ascending ranges lies in one of others, found in
one pass over both. -/
def areCovered : List (ℕ × ℕ) → List (ℕ × ℕ) → Bool
  | [], rs => rs.isEmpty
  | p :: ps, rs => areCovered ps (rs.dropWhile fun r => p.1 ≤ r.1 && r.2 ≤ p.2)

lemma exists_of_areCovered {ps rs : List (ℕ × ℕ)} (h : areCovered ps rs = true) :
    ∀ r ∈ rs, ∃ p ∈ ps, p.1 ≤ r.1 ∧ r.2 ≤ p.2 := by
  induction ps generalizing rs with
  | nil =>
      rw [areCovered, List.isEmpty_iff] at h
      simp [h]
  | cons p ps ih =>
      intro r hr
      rw [← List.takeWhile_append_dropWhile (p := fun r => p.1 ≤ r.1 && r.2 ≤ p.2) (l := rs),
        List.mem_append] at hr
      rcases hr with hr | hr
      · have := List.mem_takeWhile_imp hr
        simp only [Bool.and_eq_true, decide_eq_true_eq] at this
        exact ⟨p, List.mem_cons_self, this⟩
      · obtain ⟨p', hp', hle⟩ := ih h r hr
        exact ⟨p', List.mem_cons_of_mem p hp', hle⟩

set_option maxRecDepth 4000 in
lemma nameStartRanges_areCovered : areCovered namePartRanges nameStartRanges = true := by
  decide

/-- A character that starts a name may continue one. -/
lemma isNamePart_of_isNameStart {c : Char} (h : isNameStart c = true) : isNamePart c = true := by
  rw [isNameStart] at h
  rw [isNamePart]
  split at h
  · simp [*, Char.isAlphanum]
  · rename_i hlarge
    obtain ⟨r, hr, hlow, hhigh⟩ := exists_of_inRanges h
    obtain ⟨p, hp, hlow', hhigh'⟩ := exists_of_areCovered nameStartRanges_areCovered r hr
    rw [if_neg hlarge]
    exact inRanges_of_mem isChain_namePartRanges.pairwise hp (hlow'.trans hlow)
      (hhigh.trans hhigh')

end Letters

lemma isWordPart_of_isWordStart {c : Char} (h : Script.isWordStart c = true) :
    Script.isWordPart c = true := by
  simp only [Script.isWordStart, Bool.or_eq_true, beq_iff_eq] at h
  simp only [Script.isWordPart, Bool.or_eq_true, beq_iff_eq]
  rcases h with (h | rfl) | rfl
  · exact Or.inl (Or.inl (Or.inl (Letters.isNamePart_of_isNameStart h)))
  · exact Or.inl (Or.inl (Or.inr rfl))
  · exact Or.inl (Or.inl (Or.inl (by decide)))

/-- A word of the language. -/
def isWord (name : String) : Bool :=
  match name.toList with
  | [] => false
  | c :: cs => Script.isWordStart c && cs.all Script.isWordPart

/-! ### Variables -/

/-- Words that name no variable in a module, although they may elsewhere. -/
def strictWords : List String :=
  ["arguments", "await", "eval", "implements", "interface", "let", "package", "private",
    "protected", "public", "static", "yield"]

/-- A word that can name a variable of a module. -/
def isVariableName (name : String) : Bool :=
  isWord name && !(Script.Grammar.reservedWords ++ strictWords).contains name

lemma isVariableName_underscore {name : String} (h : isVariableName name = true) :
    isVariableName ("_" ++ name) = true := by
  simp only [isVariableName, Bool.and_eq_true, Bool.not_eq_true'] at h ⊢
  constructor
  · have hword := h.1
    rw [isWord] at hword ⊢
    have htext : ("_" ++ name).toList = '_' :: name.toList := by simp
    rw [htext]
    dsimp only
    split at hword
    · cases hword
    · rename_i c cs hcs
      rw [Bool.and_eq_true] at hword
      rw [hcs, List.all_cons, isWordPart_of_isWordStart hword.1, hword.2]
      decide
  · -- no such word begins with an underscore
    have hnone : ∀ word ∈ Script.Grammar.reservedWords ++ strictWords,
        word.toList.head? ≠ some '_' := by decide
    rw [← Bool.not_eq_true, List.contains_iff_mem]
    exact fun hmem => hnone _ hmem (by simp)

end GraphMigrate
