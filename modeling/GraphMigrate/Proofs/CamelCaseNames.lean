/-
Names in camel case that are no names.

The camel case form of a name is made of letters and digits.  It starts like
the first word of the name, or like the second one in upper case if the name
starts with an underscore.  So it is a name again, unless nothing or a digit
stands behind an underscore in first place.

* `losesStart`: names that start with an underscore that no letter or
  underscore follows;
* `isNamePart_of_mem_assemble`: words put together are made of what names are
  made of;
* `head?_assemble_words`: how they start;
* `isName_camelize_iff`: **the camel case form of a name is a name exactly if
  the name does not lose its start**.
-/
import GraphMigrate.Document.Token
import GraphMigrate.Proofs.CamelCase
import Mathlib

namespace GraphMigrate

open Document (isName isNamePart isNameStart)

/-! ### Characters of names -/

lemma isNamePart_of_isNameStart {c : Char} (h : isNameStart c) : isNamePart c := by
  simp only [isNameStart, isNamePart, Char.isAlphanum, Bool.or_eq_true] at h ⊢
  exact h.imp_left .inl

lemma lt_of_isNamePart {c : Char} (h : isNamePart c) : c.toNat < 128 := by
  simp only [isNamePart, Char.isAlphanum, Char.isAlpha, Char.isUpper, Char.isLower, Char.isDigit,
    Bool.or_eq_true, Bool.and_eq_true, decide_eq_true_eq, beq_iff_eq, ge_iff_le,
    UInt32.le_iff_toNat_le] at h
  change (((65 ≤ c.toNat ∧ c.toNat ≤ 90) ∨ (97 ≤ c.toNat ∧ c.toNat ≤ 122)) ∨
    (48 ≤ c.toNat ∧ c.toNat ≤ 57)) ∨ c = '_' at h
  rcases h with h | rfl
  · omega
  · decide

/-- A property of all ASCII characters, checked one by one, is one of the
characters of names. -/
lemma of_forall_ascii {P : Char → Prop} (hall : ∀ n < 128, P (Char.ofNat n)) {c : Char}
    (h : isNamePart c) : P c := by
  have hc := hall c.toNat (lt_of_isNamePart h)
  rwa [Char.ofNat_toNat] at hc

lemma isNamePart_toUpper {c : Char} (h : isNamePart c) : isNamePart c.toUpper :=
  of_forall_ascii (P := fun c => isNamePart c → isNamePart c.toUpper) (by decide) h h

lemma isNameStart_toUpper {c : Char} (h : isNamePart c) :
    isNameStart c.toUpper = isNameStart c :=
  of_forall_ascii (P := fun c => isNameStart c.toUpper = isNameStart c) (by decide) h

lemma isNameStart_eq_not_isDigit {c : Char} (h : isNamePart c) : isNameStart c = !c.isDigit :=
  of_forall_ascii (P := fun c => isNamePart c → isNameStart c = !c.isDigit) (by decide) h h

/-- A name is made of its characters and starts with one that starts names. -/
lemma isName_iff {text : String} :
    isName text ↔ text.toList.head?.any isNameStart ∧ ∀ c ∈ text.toList, isNamePart c := by
  rw [isName]
  cases text.toList with
  | nil => simp
  | cons c cs =>
      rw [Bool.and_eq_true, List.all_eq_true, List.head?_cons, Option.any_some, List.forall_mem_cons]
      exact ⟨fun h => ⟨h.1, isNamePart_of_isNameStart h.1, h.2⟩, fun h => ⟨h.1, h.2.2⟩⟩

lemma Upper.upperFirst_cons {c : Char} (h : isNamePart c) (cs : List Char) :
    Upper.upperFirst (c :: cs) = c.toUpper :: cs := by
  rw [Upper.upperFirst, Upper.upperChars_of_ascii (lt_of_isNamePart h)]
  rfl

namespace Naming

/-! ### Words -/

lemma exists_words_cons {c : Char} (hc : c ≠ '_') (cs : List Char) :
    ∃ word later, words (c :: cs) = (c :: word) :: later := by
  obtain ⟨word, later, hwords⟩ := List.exists_cons_of_ne_nil (words_ne_nil cs)
  exact ⟨word, later, by rw [words, if_neg hc, hwords]⟩

/-- The words of a name are made of its characters. -/
lemma mem_of_mem_words {cs word : List Char} {c : Char} (hword : word ∈ words cs)
    (hc : c ∈ word) : c ∈ cs := by
  induction cs generalizing word with
  | nil =>
      rw [words, List.mem_singleton] at hword
      exact hword ▸ hc
  | cons d cs ih =>
      by_cases hd : d = '_'
      · rw [words, if_pos hd] at hword
        rcases List.mem_cons.mp hword with rfl | hword
        · cases hc
        · exact List.mem_cons_of_mem _ (ih hword hc)
      · obtain ⟨first, later, hwords⟩ := List.exists_cons_of_ne_nil (words_ne_nil cs)
        rw [words, if_neg hd, hwords] at hword
        rw [hwords] at ih
        rcases List.mem_cons.mp hword with rfl | hword
        · rcases List.mem_cons.mp hc with rfl | hc
          · exact List.mem_cons_self
          · exact List.mem_cons_of_mem _ (ih List.mem_cons_self hc)
        · exact List.mem_cons_of_mem _ (ih (List.mem_cons_of_mem _ hword) hc)

/-- Acronyms and what they are written as are made of letters. -/
lemma isName_acronyms : ∀ entry ∈ acronyms, isName entry.1 ∧ isName entry.2 := by
  decide

lemma mem_acronyms {word : List Char} {written : String}
    (h : acronym? (String.ofList word) = some written) :
    (String.ofList word, written) ∈ acronyms := by
  obtain ⟨before, after, hentry, -⟩ := List.lookup_eq_some_iff.mp h
  rw [hentry]
  exact List.mem_append_right _ List.mem_cons_self

lemma isNamePart_of_mem_spell {word : List Char} (h : ∀ c ∈ word, isNamePart c) :
    ∀ c ∈ spell word, isNamePart c := by
  rw [spell]
  split
  · rename_i written hwritten
    exact (isName_iff.mp (isName_acronyms _ (mem_acronyms hwritten)).2).2
  · exact h

/-- A word that is spelled starts a name if it did before. -/
lemma exists_spell_cons {c : Char} (hc : isNamePart c) (word : List Char) :
    ∃ d rest, spell (c :: word) = d :: rest ∧ isNamePart d ∧ isNameStart d = isNameStart c := by
  rw [spell]
  split
  · rename_i written hwritten
    obtain ⟨hword, hname⟩ := isName_acronyms _ (mem_acronyms hwritten)
    rw [isName_iff, String.toList_ofList] at hword
    rw [isName_iff] at hname
    obtain ⟨d, hd, hstart⟩ := (Option.any_eq_true _ _).mp hname.1
    obtain ⟨rest, hrest⟩ := List.head?_eq_some_iff.mp hd
    refine ⟨d, rest, hrest, isNamePart_of_isNameStart hstart, ?_⟩
    exact Bool.eq_iff_iff.mpr (iff_of_true hstart hword.1)
  · exact ⟨c, word, rfl, hc, rfl⟩

lemma isNamePart_of_mem_upperFirst {word : List Char} (h : ∀ c ∈ word, isNamePart c) :
    ∀ c ∈ Upper.upperFirst word, isNamePart c := by
  cases word with
  | nil => exact h
  | cons c word =>
      obtain ⟨hc, hword⟩ := List.forall_mem_cons.mp h
      rw [Upper.upperFirst_cons hc]
      exact List.forall_mem_cons.mpr ⟨isNamePart_toUpper hc, hword⟩

/-! ### Words put together -/

lemma isNamePart_of_mem_assemble {ws : List (List Char)}
    (h : ∀ word ∈ ws, ∀ c ∈ word, isNamePart c) : ∀ c ∈ assemble ws, isNamePart c := by
  cases ws with
  | nil => exact List.forall_mem_nil _
  | cons first later =>
      obtain ⟨hfirst, hlater⟩ := List.forall_mem_cons.mp h
      refine List.forall_mem_append.mpr ⟨isNamePart_of_mem_spell hfirst, fun c hc => ?_⟩
      obtain ⟨word, hword, hc⟩ := List.mem_flatMap.mp hc
      exact isNamePart_of_mem_upperFirst (isNamePart_of_mem_spell (hlater word hword)) c hc

/-- A text that starts with a letter still starts like a name. -/
lemma head?_assemble_words {c : Char} (hc : isNameStart c) (hne : c ≠ '_') (cs : List Char) :
    (assemble (words (c :: cs))).head?.any isNameStart := by
  obtain ⟨word, later, hwords⟩ := exists_words_cons hne cs
  obtain ⟨d, rest, hspell, -, hd⟩ := exists_spell_cons (isNamePart_of_isNameStart hc) word
  rw [hwords, assemble, hspell]
  exact hd.trans hc

/-- A text that starts with an underscore starts like what is behind it. -/
lemma head?_assemble_words_underscore {c : Char} (hc : isNamePart c) (hne : c ≠ '_')
    (cs : List Char) :
    (assemble (words ('_' :: c :: cs))).head?.any isNameStart = isNameStart c := by
  obtain ⟨word, later, hwords⟩ := exists_words_cons hne cs
  obtain ⟨d, rest, hspell, hpart, hd⟩ := exists_spell_cons hc word
  have hfirst : words ('_' :: c :: cs) = [] :: (c :: word) :: later := by
    rw [words, if_pos rfl, hwords]
  have hempty : spell [] = [] := by decide
  rw [hfirst, assemble, hempty, List.nil_append, List.flatMap_cons, hspell,
    Upper.upperFirst_cons hpart]
  exact (isNameStart_toUpper hpart).trans hd

/-! ### Names -/

/-- Names that start with an underscore behind which the name ends or a digit
stands. -/
def losesStart (name : String) : Bool :=
  match name.toList with
  | ['_'] => true
  | '_' :: c :: _ => c.isDigit
  | _ => false

lemma needsCamelize_of_losesStart {name : String} (h : losesStart name) : needsCamelize name := by
  rw [losesStart] at h
  split at h
  · rename_i hname
    simp [needsCamelize, hname]
  · rename_i c cs hname
    have hc : c ≠ '_' := by
      rintro rfl
      exact absurd h (by decide)
    simp [needsCamelize, hname, List.isPrefixOf, hc.symm]
  · cases h

/-- **The camel case form of a name is a name exactly if the name does not
lose its start.** -/
theorem isName_camelize_iff {name : String} (h : isName name) :
    isName (camelize name) ↔ losesStart name = false := by
  by_cases hneeds : needsCamelize name = true
  case neg =>
    rw [camelize, if_neg hneeds]
    refine iff_of_true h (Bool.eq_false_iff.mpr fun hloses => ?_)
    exact hneeds (needsCamelize_of_losesStart hloses)
  case pos =>
    obtain ⟨hstart, hparts⟩ := isName_iff.mp h
    have hall : ∀ c ∈ assemble (words name.toList), isNamePart c :=
      isNamePart_of_mem_assemble fun word hword c hc => hparts c (mem_of_mem_words hword hc)
    rw [camelize, if_pos hneeds, isName_iff, String.toList_ofList, and_iff_left hall, losesStart]
    rw [needsCamelize, Bool.and_eq_true, Bool.not_eq_true'] at hneeds
    cases hname : name.toList with
    | nil =>
        rw [hname] at hstart
        cases hstart
    | cons c cs =>
        rw [hname] at hstart hparts hneeds
        by_cases hc : c = '_'
        case neg =>
          refine iff_of_true (head?_assemble_words hstart hc cs) ?_
          split <;> simp_all
        case pos =>
          subst hc
          cases cs with
          | nil => decide
          | cons d cs =>
              -- two underscores in front would have kept the name as it is
              have hd : d ≠ '_' := by
                rintro rfl
                simp at hneeds
              have hpart : isNamePart d := hparts d (by simp)
              rw [head?_assemble_words_underscore hpart hd, isNameStart_eq_not_isDigit hpart,
                Bool.not_eq_true']
              exact Iff.rfl

end Naming

end GraphMigrate
