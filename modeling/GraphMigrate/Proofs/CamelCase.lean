/-
Names in camel case.

The underscores of a name stand between its words, and neither the table
of acronyms nor upper case brings one back.

* `underscore_notMem_upperChars`: the upper case of a character is no
  underscore, unless the character is one;
* `underscore_notMem_camelize`: a name in camel case has no underscore, so
  it is never one that needs camel case;
* `dropEnding?_eq_some_iff`: names with a given ending.
-/
import GraphMigrate.Naming
import Mathlib.Tactic

namespace GraphMigrate

namespace Upper

/-- The runs map to nothing near the underscore. -/
lemma runs_avoid_underscore :
    ∀ run ∈ runs, run.2.2.2 + (run.2.1 - run.1) < 95 ∨ 95 < run.2.2.2 := by
  decide +kernel

lemma expansions_avoid_underscore : ∀ entry ∈ expansions, 95 ∉ entry.2 := by
  decide +kernel

lemma exists_run_of_inRuns {code result : ℕ} {rs : List (ℕ × ℕ × ℕ × ℕ)}
    (h : inRuns code rs = some result) :
    ∃ run ∈ rs, run.1 ≤ code ∧ code ≤ run.2.1 ∧ result = run.2.2.2 + (code - run.1) := by
  induction rs with
  | nil => simp [inRuns] at h
  | cons run rs ih =>
      obtain ⟨first, last, step, target⟩ := run
      rw [inRuns] at h
      split at h
      · rename_i hin
        cases h
        exact ⟨_, List.mem_cons_self, hin.1, hin.2.1, rfl⟩
      · obtain ⟨run, hrun, hbounds⟩ := ih h
        exact ⟨run, List.mem_cons_of_mem _ hrun, hbounds⟩

lemma eq_of_ofNat_eq_underscore {n : ℕ} (h : Char.ofNat n = '_') : n = 95 := by
  by_cases hn : n.isValidChar
  · rw [Char.ofNat, dif_pos hn] at h
    exact congrArg Char.toNat h
  · rw [Char.ofNat, dif_neg hn] at h
    exact absurd h (by decide)

lemma toUpper_ne_underscore_of_ascii :
    ∀ n < 128, n ≠ 95 → (Char.ofNat n).toUpper ≠ '_' := by
  decide

/-- Upper case makes no underscore. -/
lemma underscore_notMem_upperChars {c : Char} (hc : c ≠ '_') : '_' ∉ upperChars c := by
  rw [upperChars]
  split
  · rename_i hascii
    have hne : c.toNat ≠ 95 := fun h => hc (by rw [← Char.ofNat_toNat c, h])
    have := toUpper_ne_underscore_of_ascii c.toNat hascii hne
    rw [Char.ofNat_toNat] at this
    simpa using this.symm
  · split
    · rename_i code hcode
      obtain ⟨run, hrun, hfirst, hlast, rfl⟩ := exists_run_of_inRuns hcode
      intro hmem
      have := eq_of_ofNat_eq_underscore (List.mem_singleton.mp hmem).symm
      have := runs_avoid_underscore run hrun
      omega
    · split
      · rename_i codes hcodes
        intro hmem
        obtain ⟨n, hn, heq⟩ := List.mem_map.mp hmem
        rw [eq_of_ofNat_eq_underscore heq] at hn
        obtain ⟨before, after, hentry, -⟩ := List.lookup_eq_some_iff.mp hcodes
        exact expansions_avoid_underscore (c.toNat, codes) (by rw [hentry]; simp) hn
      · simpa using hc.symm

lemma underscore_notMem_upperFirst {cs : List Char} (h : '_' ∉ cs) : '_' ∉ upperFirst cs := by
  cases cs with
  | nil => exact h
  | cons c cs =>
      rw [List.mem_cons, not_or] at h
      rw [upperFirst, List.mem_append, not_or]
      exact ⟨underscore_notMem_upperChars (Ne.symm h.1), h.2⟩

end Upper

namespace Naming

lemma words_ne_nil (cs : List Char) : words cs ≠ [] := by
  cases cs with
  | nil => exact List.cons_ne_nil _ _
  | cons c cs =>
      rw [words]
      split
      · exact List.cons_ne_nil _ _
      · split <;> exact List.cons_ne_nil _ _

lemma underscore_notMem_of_mem_words {cs : List Char} : ∀ word ∈ words cs, '_' ∉ word := by
  induction cs with
  | nil => simp [words]
  | cons c cs ih =>
      rw [words]
      split
      · intro word hword
        rcases List.mem_cons.mp hword with rfl | hword
        · simp
        · exact ih word hword
      · rename_i hc
        have hne : '_' ≠ c := fun h => hc h.symm
        split
        · simpa using hne
        · rename_i first later hwords
          rw [hwords] at ih
          intro word hword
          rcases List.mem_cons.mp hword with rfl | hword
          · rw [List.mem_cons, not_or]
            exact ⟨hne, ih first List.mem_cons_self⟩
          · exact ih word (List.mem_cons_of_mem _ hword)

lemma underscore_notMem_spell {word : List Char} (h : '_' ∉ word) : '_' ∉ spell word := by
  rw [spell]
  split
  · rename_i written hwritten
    obtain ⟨before, after, hentry, -⟩ := List.lookup_eq_some_iff.mp hwritten
    have hall : ∀ entry ∈ acronyms, '_' ∉ entry.2.toList := by decide
    exact hall (String.ofList word, written) (by rw [hentry]; simp)
  · exact h

lemma underscore_notMem_assemble {ws : List (List Char)} (h : ∀ w ∈ ws, '_' ∉ w) :
    '_' ∉ assemble ws := by
  cases ws with
  | nil => simp [assemble]
  | cons first later =>
      rw [assemble, List.mem_append, not_or, List.mem_flatMap]
      refine ⟨underscore_notMem_spell (h first List.mem_cons_self), ?_⟩
      rintro ⟨w, hw, hmem⟩
      exact Upper.underscore_notMem_upperFirst
        (underscore_notMem_spell (h w (List.mem_cons_of_mem _ hw))) hmem

/-- A name in camel case has no underscore. -/
lemma underscore_notMem_camelize {name : String} (h : needsCamelize name = true) :
    '_' ∉ (camelize name).toList := by
  rw [camelize, if_pos h, String.toList_ofList]
  exact underscore_notMem_assemble underscore_notMem_of_mem_words

lemma underscore_mem_of_needsCamelize {name : String} (h : needsCamelize name = true) :
    '_' ∈ name.toList := by
  rw [needsCamelize, Bool.and_eq_true] at h
  exact List.contains_iff_mem.mp h.2

/-- A name in camel case is none of those that need it. -/
lemma camelize_ne_of_needsCamelize {name other : String} (h : needsCamelize name = true)
    (hother : needsCamelize other = true) : camelize name ≠ other := fun heq =>
  underscore_notMem_camelize h (heq ▸ underscore_mem_of_needsCamelize hother)

/-- A name in camel case does not need it once more. -/
lemma needsCamelize_camelize {name : String} (h : needsCamelize name = true) :
    needsCamelize (camelize name) = false :=
  Bool.eq_false_iff.mpr fun hagain => camelize_ne_of_needsCamelize h hagain rfl

/-! ### Endings -/

lemma dropEnding?_eq_some_iff {ending cs kept : List Char} :
    dropEnding? ending cs = some kept ↔ cs = kept ++ ending := by
  rw [dropEnding?]
  constructor
  · intro h
    split_ifs at h with hsuffix
    obtain ⟨front, rfl⟩ := List.isSuffixOf_iff_suffix.mp hsuffix
    simpa using h
  · rintro rfl
    simp

end Naming

end GraphMigrate
