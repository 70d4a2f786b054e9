/-
Names in camel case, word by word.

The words of a name are its parts between underscores.  Empty ones, which
stand between underscores that follow each other and behind one at the end,
add nothing, so neither do these underscores, as long as the name is not
reserved by two in front.

* `words_eq_splitOn`, `words_append`: the words of a name;
* `assemble_words_doubled`, `assemble_words_ended`: underscores that follow
  another one or end a name make no difference;
* `camel_case_is_exact`: **camel case changes exactly the names that need it,
  puts their words together, and has nothing left to change**.
-/
import GraphMigrate.Proofs.CamelCase

namespace GraphMigrate.Naming

/-! ### Words -/

lemma words_eq_splitOn (cs : List Char) : words cs = cs.splitOn '_' := by
  induction cs with
  | nil => rfl
  | cons c cs ih =>
      obtain ⟨word, later, hwords⟩ := List.exists_cons_of_ne_nil (List.splitOn_ne_nil '_' cs)
      rw [words, List.splitOn_cons_eq_if_modifyHead, ih, hwords]
      by_cases hc : c = '_'
      · rw [if_pos hc, if_pos (beq_iff_eq.mpr hc)]
      · rw [if_neg hc, if_neg (mt beq_iff_eq.mp hc), List.modifyHead_cons]

/-- The words of a name on both sides of an underscore. -/
lemma words_append (cs ds : List Char) : words (cs ++ '_' :: ds) = words cs ++ words ds := by
  simp only [words_eq_splitOn, List.splitOn_eq_splitOnP]
  exact List.splitOnP_append_cons cs ds rfl

lemma spell_nil : spell [] = [] := by
  decide

lemma flatMap_capitalized (ws : List (List Char)) :
    ws.flatMap (fun word => Upper.upperFirst (spell word)) =
      (ws.filter (· ≠ [])).flatMap fun word => Upper.upperFirst (spell word) := by
  induction ws with
  | nil => rfl
  | cons word ws ih =>
      rw [List.flatMap_cons, ih, List.filter_cons]
      by_cases hword : word = []
      · subst hword
        rw [spell_nil]
        rfl
      · rw [if_pos (decide_eq_true hword), List.flatMap_cons]

/-- An empty word behind others adds nothing. -/
lemma assemble_insert_nil {earlier : List (List Char)} (h : earlier ≠ [])
    (later : List (List Char)) : assemble (earlier ++ [] :: later) = assemble (earlier ++ later) := by
  obtain ⟨first, earlier, rfl⟩ := List.exists_cons_of_ne_nil h
  rw [List.cons_append, List.cons_append, assemble, assemble, List.flatMap_append,
    List.flatMap_append, List.flatMap_cons, spell_nil]
  rfl

/-! ### Underscores that make no difference -/

/-- Of two underscores in a row the second adds nothing. -/
lemma assemble_words_doubled (before after : List Char) :
    assemble (words (before ++ '_' :: '_' :: after)) = assemble (words (before ++ '_' :: after)) := by
  have hempty : words ('_' :: after) = [] :: words after := rfl
  rw [words_append, words_append, hempty, assemble_insert_nil (words_ne_nil before)]

/-- An underscore at the end adds nothing. -/
lemma assemble_words_ended (cs : List Char) :
    assemble (words (cs ++ ['_'])) = assemble (words cs) := by
  have hempty : words [] = [[]] := rfl
  rw [words_append, hempty, assemble_insert_nil (words_ne_nil cs), List.append_nil]

/-- Whether a name needs camel case depends on its first two characters and on
whether there is an underscore. -/
lemma needsCamelize_of_take {name other : String} (h : needsCamelize name = true)
    (htake : other.toList.take 2 = name.toList.take 2) (hmem : '_' ∈ other.toList) :
    needsCamelize other = true := by
  have hreserved (cs : List Char) : ['_', '_'].isPrefixOf cs = (cs.take 2 == ['_', '_']) := by
    rw [Bool.eq_iff_iff, List.isPrefixOf_iff_prefix, List.prefix_iff_eq_take, beq_iff_eq, eq_comm]
    rfl
  rw [needsCamelize, Bool.and_eq_true, hreserved] at h ⊢
  exact ⟨htake ▸ h.1, List.contains_iff_mem.mpr hmem⟩

/-- Names that both need camel case and whose words make up the same are the
same in camel case. -/
lemma camelize_congr {name other : String} (h : needsCamelize name = true)
    (hother : needsCamelize other = true)
    (hwords : assemble (words other.toList) = assemble (words name.toList)) :
    camelize other = camelize name := by
  rw [camelize, camelize, if_pos h, if_pos hother, hwords]

lemma camelize_doubled {before after : String} (hbefore : before ≠ "")
    (h : needsCamelize (before ++ "_" ++ after) = true) :
    camelize (before ++ "__" ++ after) = camelize (before ++ "_" ++ after) := by
  have hone : (before ++ "_" ++ after).toList = before.toList ++ '_' :: after.toList := by simp
  have htwo : (before ++ "__" ++ after).toList = before.toList ++ '_' :: '_' :: after.toList := by
    simp
  refine camelize_congr h (needsCamelize_of_take h ?_ (by simp)) ?_
  · -- the first two characters are those of what stands before and the underscore
    obtain ⟨c, cs, hcs⟩ := List.exists_cons_of_ne_nil (mt String.toList_eq_nil_iff.mp hbefore)
    rw [hone, htwo, hcs]
    cases cs <;> rfl
  · rw [hone, htwo, assemble_words_doubled]

lemma camelize_ended {name : String} (hlength : 2 ≤ name.length)
    (h : needsCamelize name = true) : camelize (name ++ "_") = camelize name := by
  have hend : (name ++ "_").toList = name.toList ++ ['_'] := by simp
  refine camelize_congr h (needsCamelize_of_take h ?_ (by simp)) ?_
  · rw [hend, List.take_append_of_le_length (by rwa [String.length_toList])]
  · rw [hend, assemble_words_ended]

/-! ### Camel case -/

/-- **Camel case is exact, and once is enough.**  It changes exactly the names
that need it.  Such a name has no underscore afterwards: it is the first of the
words between its underscores and all others that are not empty, after the
table of acronyms and each but the first with its first character in upper
case.  So one more underscore behind another that is not in first place makes
no difference, nor does one at the end of a name of two characters or more. -/
theorem camel_case_is_exact (name : String) :
    camelize (camelize name) = camelize name ∧
    (camelize name ≠ name ↔ needsCamelize name = true) ∧
    (needsCamelize name = true →
      '_' ∉ (camelize name).toList ∧
      (∃ first later, name.toList.splitOn '_' = first :: later ∧
        (∀ word ∈ first :: later, '_' ∉ word) ∧
        (camelize name).toList =
          spell first ++
            (later.filter (· ≠ [])).flatMap fun word => Upper.upperFirst (spell word)) ∧
      (∀ before after, before ≠ "" → name = before ++ "_" ++ after →
        camelize (before ++ "__" ++ after) = camelize name) ∧
      (2 ≤ name.length → camelize (name ++ "_") = camelize name)) := by
  refine ⟨?_, ⟨fun hne => ?_, fun hneeds => camelize_ne_of_needsCamelize hneeds hneeds⟩,
    fun hneeds => ⟨underscore_notMem_camelize hneeds, ?_, ?_, ?_⟩⟩
  · by_cases hneeds : needsCamelize name = true
    · rw [camelize, if_neg (Bool.eq_false_iff.mp (needsCamelize_camelize hneeds))]
    · have hkept : camelize name = name := if_neg hneeds
      rw [hkept, hkept]
  · by_contra hkept
    exact hne (if_neg hkept)
  · obtain ⟨first, later, hwords⟩ := List.exists_cons_of_ne_nil (words_ne_nil name.toList)
    refine ⟨first, later, (words_eq_splitOn _).symm.trans hwords, ?_, ?_⟩
    · rw [← hwords]
      exact underscore_notMem_of_mem_words
    · rw [camelize, if_pos hneeds, String.toList_ofList, hwords, assemble, flatMap_capitalized]
  · rintro before after hbefore rfl
    exact camelize_doubled hbefore hneeds
  · exact fun hlength => camelize_ended hlength hneeds

/-- A name with an acronym, an empty word and a word whose first character has
two in upper case, and an underscore at its end. -/
def streetName : String := "street_ids__ßeta_"

theorem camel_case_of_streetName :
    needsCamelize streetName = true ∧ camelize streetName = "streetIDsSSeta" ∧
    '_' ∉ (camelize streetName).toList ∧
    camelize "street__ids__ßeta_" = "streetIDsSSeta" ∧
    camelize "street_ids__ßeta__" = "streetIDsSSeta" := by
  have hneeds : needsCamelize streetName = true := by decide +kernel
  have hcamel : camelize streetName = "streetIDsSSeta" := by decide +kernel
  obtain ⟨hnone, -, hdoubled, hended⟩ := (camel_case_is_exact streetName).2.2 hneeds
  have hdoubled := hdoubled "street" "ids__ßeta_" (by decide) (by decide +kernel)
  have hended := hended (by decide)
  exact ⟨hneeds, hcamel, hnone, hdoubled.trans hcamel, hended.trans hcamel⟩

end GraphMigrate.Naming
