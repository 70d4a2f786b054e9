/-
Which edits of a batch are applied, and in which order.

A batch is judged edit by edit, each in view of those accepted before it.
Here the accepted edits keep their places in the list, so that the order
of splicing can name them: by start, then by stop, then by place.

* `IsSplicingOrder`: a list holds exactly the edits that fit and neither
  repeat nor contradict an accepted one of an earlier place, each with its
  place, in the order of splicing;
* `IsSplicingOrder.unique`: there is only one such list;
* `appliedEdits`: the edits that a batch applies, as they are spliced;
* `spliceOrder`, `isSplicingOrder_spliceOrder`: with their places they are
  that list, since sorting by start and stop alone is stable;
* `Edit.EndsBefore`, `IsSplicingOrder.pairwise_endsBefore`: in this order
  every edit ends where the next one starts, or before.
-/
import GraphMigrate.Proofs.Text.Cut
import GraphMigrate.Text.Edit
import Mathlib.Data.List.Sort

namespace GraphMigrate

namespace Edit

/-- An edit is in order when its span runs forward between two
boundaries of the text. -/
def InBounds (text : List Char) (edit : Edit) : Prop :=
  edit.span.start ≤ edit.span.stop ∧ IsBoundary text edit.span.start ∧
    IsBoundary text edit.span.stop

lemma fits_iff_inBounds {text : List Char} {edit : Edit} :
    edit.fits text = true ↔ edit.InBounds text := by
  rw [fits, InBounds, slice?_isSome_iff]

/-- Conflict does not depend on which edit comes first. -/
lemma conflictsWith_comm (a b : Edit) : a.conflictsWith b = b.conflictsWith a := by
  rw [conflictsWith, conflictsWith]
  cases a.span.isEmpty <;> cases b.span.isEmpty <;> simp [Bool.and_comm]

/-- An edit whose bytes all come before those of another. -/
def EndsBefore (a b : Edit) : Prop := a.span.stop ≤ b.span.start

/-- Of two edits that run forward and do not conflict, the one that comes
first by start and stop ends before the other. -/
lemma endsBefore_of_precedes {a b : Edit} (ha : a.span.start ≤ a.span.stop)
    (hb : b.span.start ≤ b.span.stop) (hab : a.precedes b = true)
    (hne : a.conflictsWith b = false) : a.EndsBefore b := by
  simp only [precedes, Bool.or_eq_true, decide_eq_true_eq, Bool.and_eq_true, beq_iff_eq] at hab
  rw [EndsBefore]
  rw [conflictsWith] at hne
  simp only [Span.isEmpty] at hne
  split at hne <;> simp_all <;> omega

end Edit

/-! ### The order of splicing -/

/-- One edit is spliced in front of another: by start, then by stop, then
by place in the list. -/
def SplicedBefore (a b : Edit × ℕ) : Prop :=
  a.1.span.start < b.1.span.start ∨ a.1.span.start = b.1.span.start ∧
    (a.1.span.stop < b.1.span.stop ∨ a.1.span.stop = b.1.span.stop ∧ a.2 < b.2)

lemma SplicedBefore.asymm {a b : Edit × ℕ} (h : SplicedBefore a b) : ¬ SplicedBefore b a := by
  simp only [SplicedBefore] at h ⊢
  omega

lemma SplicedBefore.precedes {a b : Edit × ℕ} (h : SplicedBefore a b) :
    a.1.precedes b.1 = true := by
  simp only [SplicedBefore] at h
  simp only [Edit.precedes, Bool.or_eq_true, decide_eq_true_eq, Bool.and_eq_true, beq_iff_eq]
  omega

/-- A list of edits with their places that holds exactly the accepted
ones, in the order of splicing. -/
structure IsSplicingOrder (text : List Char) (edits : List Edit) (order : List (Edit × ℕ)) :
    Prop where
  mem_iff : ∀ e i, (e, i) ∈ order ↔ edits[i]? = some e ∧ e.InBounds text ∧
    ∀ f j, (f, j) ∈ order → j < i → f ≠ e ∧ f.conflictsWith e = false
  sorted : order.Pairwise SplicedBefore

namespace IsSplicingOrder

variable {text : List Char} {edits : List Edit} {order other : List (Edit × ℕ)}

lemma nodup (h : IsSplicingOrder text edits order) : order.Nodup :=
  h.sorted.imp fun hab heq => (heq ▸ hab).asymm (heq ▸ hab)

/-- The judgement of a place depends on the places before it only. -/
lemma mem_congr (h : IsSplicingOrder text edits order) (h' : IsSplicingOrder text edits other)
    (i : ℕ) : ∀ e, (e, i) ∈ order ↔ (e, i) ∈ other := by
  induction i using Nat.strong_induction_on with
  | _ i ih =>
      intro e
      rw [h.mem_iff, h'.mem_iff]
      refine and_congr_right fun _ => and_congr_right fun _ => ?_
      constructor
      · exact fun hall f j hf hj => hall f j ((ih j hj f).mpr hf) hj
      · exact fun hall f j hf hj => hall f j ((ih j hj f).mp hf) hj

/-- There is only one order of splicing. -/
lemma unique (h : IsSplicingOrder text edits order) (h' : IsSplicingOrder text edits other) :
    other = order := by
  have hperm : other.Perm order :=
    (List.perm_ext_iff_of_nodup h'.nodup h.nodup).mpr fun p => (h'.mem_congr h p.2 p.1)
  exact hperm.eq_of_pairwise (fun a b _ _ hab hba => absurd hba hab.asymm) h'.sorted h.sorted

/-- In the order of splicing every edit ends where the next one starts, or
before. -/
lemma pairwise_endsBefore (h : IsSplicingOrder text edits order) :
    (order.map Prod.fst).Pairwise Edit.EndsBefore := by
  rw [List.pairwise_map]
  refine h.sorted.imp_of_mem fun {a b} ha hb hab => ?_
  obtain ⟨hai, ⟨ha1, -⟩, haj⟩ := (h.mem_iff a.1 a.2).mp ha
  obtain ⟨hbi, ⟨hb1, -⟩, hbj⟩ := (h.mem_iff b.1 b.2).mp hb
  refine Edit.endsBefore_of_precedes ha1 hb1 hab.precedes ?_
  rcases Nat.lt_trichotomy a.2 b.2 with hlt | heq | hgt
  · exact (hbj a.1 a.2 ha hlt).2
  · -- one place holds one edit, and no edit is spliced before itself
    rw [heq, hbi, Option.some.injEq] at hai
    have : a = b := Prod.ext hai.symm heq
    exact absurd (this ▸ hab) (this ▸ hab : SplicedBefore b b).asymm
  · rw [Edit.conflictsWith_comm]
    exact (haj b.1 b.2 hb hgt).2

lemma inBounds (h : IsSplicingOrder text edits order) {e : Edit} (he : e ∈ order.map Prod.fst) :
    e.InBounds text := by
  obtain ⟨p, hp, rfl⟩ := List.mem_map.mp he
  exact ((h.mem_iff p.1 p.2).mp hp).2.1

end IsSplicingOrder

/-! ### Judging with places -/

/-- The accepted edits, with their places, after one more edit. -/
def select (text : List Char) (chosen : List (Edit × ℕ)) (next : Edit × ℕ) : List (Edit × ℕ) :=
  if judge text (chosen.map Prod.fst) next.1 = .accepted then chosen ++ [next] else chosen

/-- The accepted edits of a list with their places. -/
def selected (text : List Char) (edits : List Edit) : List (Edit × ℕ) :=
  edits.zipIdx.foldl (select text) []

lemma judge_eq_accepted_iff {text : List Char} {accepted : List Edit} {edit : Edit} :
    judge text accepted edit = .accepted ↔
      edit.InBounds text ∧ ∀ f ∈ accepted, f ≠ edit ∧ f.conflictsWith edit = false := by
  rw [← Edit.fits_iff_inBounds, judge]
  by_cases hfits : edit.fits text
  · by_cases hmem : edit ∈ accepted
    · have : ¬ ∀ f ∈ accepted, f ≠ edit ∧ f.conflictsWith edit = false :=
        fun hall => (hall edit hmem).1 rfl
      simp [hfits, hmem, this]
    · have hne : ∀ f ∈ accepted, f ≠ edit := fun f hf heq => hmem (heq ▸ hf)
      simp only [hfits, hmem, Bool.not_true, Bool.false_eq_true, if_false, List.contains_iff_mem,
        true_and]
      by_cases hany : accepted.any (·.conflictsWith edit)
      · simp only [hany, if_true, reduceCtorEq, false_iff]
        obtain ⟨f, hf, hc⟩ := List.any_eq_true.mp hany
        exact fun hall => by simp [(hall f hf).2] at hc
      · simp only [hany, if_false, Bool.false_eq_true, true_iff]
        refine fun f hf => ⟨hne f hf, ?_⟩
        rw [Bool.not_eq_true, List.any_eq_false] at hany
        simpa using hany f hf
  · simp [hfits]

lemma selected_concat (text : List Char) (edits : List Edit) (e : Edit) :
    selected text (edits ++ [e]) = select text (selected text edits) (e, edits.length) := by
  simp [selected, List.zipIdx_append]

lemma ofEdits_concat (text : List Char) (edits : List Edit) (e : Edit) :
    Batch.ofEdits text (edits ++ [e]) = (Batch.ofEdits text edits).consider text e := by
  simp [Batch.ofEdits]

/-- Without their places, these are the accepted edits of the batch. -/
lemma map_selected (text : List Char) (edits : List Edit) :
    (selected text edits).map Prod.fst = (Batch.ofEdits text edits).accepted := by
  induction edits using List.reverseRecOn with
  | nil => rfl
  | append_singleton edits e ih =>
      rw [selected_concat, ofEdits_concat, select, Batch.consider, ih]
      cases h : judge text (Batch.ofEdits text edits).accepted e <;> simp [ih]

lemma lt_length_of_mem_selected {text : List Char} {edits : List Edit} {e : Edit} {i : ℕ}
    (h : (e, i) ∈ selected text edits) : i < edits.length := by
  induction edits using List.reverseRecOn with
  | nil => simp [selected] at h
  | append_singleton edits f ih =>
      rw [selected_concat, select] at h
      rw [List.length_append, List.length_singleton]
      split at h
      · rcases List.mem_append.mp h with h | h
        · exact Nat.lt_succ_of_lt (ih h)
        · cases List.mem_singleton.mp h
          exact Nat.lt_succ_self _
      · exact Nat.lt_succ_of_lt (ih h)

/-- The accepted edits come in the order of their places. -/
lemma pairwise_selected (text : List Char) (edits : List Edit) :
    (selected text edits).Pairwise fun a b => a.2 < b.2 := by
  induction edits using List.reverseRecOn with
  | nil => exact List.Pairwise.nil
  | append_singleton edits f ih =>
      rw [selected_concat, select]
      split
      · refine List.pairwise_append.mpr ⟨ih, List.pairwise_singleton _ _, ?_⟩
        rintro ⟨a, i⟩ ha b hb
        cases List.mem_singleton.mp hb
        exact lt_length_of_mem_selected ha
      · exact ih

/-- One more edit changes nothing at the places before it. -/
lemma mem_selected_concat_of_lt {text : List Char} {edits : List Edit} {last f : Edit} {j : ℕ}
    (hj : j < edits.length) :
    (f, j) ∈ selected text (edits ++ [last]) ↔ (f, j) ∈ selected text edits := by
  rw [selected_concat, select]
  split
  · simp only [List.mem_append, List.mem_singleton, Prod.mk.injEq, or_iff_left_iff_imp]
    omega
  · rfl

/-- At its own place it is accepted as judged. -/
lemma mem_selected_concat_length {text : List Char} {edits : List Edit} {last e : Edit} :
    (e, edits.length) ∈ selected text (edits ++ [last]) ↔
      e = last ∧ judge text ((selected text edits).map Prod.fst) e = .accepted := by
  have hnot : (e, edits.length) ∉ selected text edits :=
    fun h => Nat.lt_irrefl _ (lt_length_of_mem_selected h)
  rw [selected_concat, select]
  split
  · rename_i h
    simp only [List.mem_append, hnot, List.mem_singleton, Prod.mk.injEq, and_true, false_or]
    exact ⟨fun heq => ⟨heq, heq ▸ h⟩, fun heq => heq.1⟩
  · rename_i h
    simp only [hnot, false_iff]
    exact fun heq => h (heq.1 ▸ heq.2)

/-- An edit is accepted exactly when it fits and neither repeats nor
contradicts an accepted edit of an earlier place. -/
lemma mem_selected_iff {text : List Char} {edits : List Edit} {e : Edit} {i : ℕ} :
    (e, i) ∈ selected text edits ↔ edits[i]? = some e ∧ e.InBounds text ∧
      ∀ f j, (f, j) ∈ selected text edits → j < i → f ≠ e ∧ f.conflictsWith e = false := by
  induction edits using List.reverseRecOn generalizing e i with
  | nil => simp [selected]
  | append_singleton edits last ih =>
      rcases Nat.lt_trichotomy i edits.length with hlt | rfl | hgt
      · rw [mem_selected_concat_of_lt hlt, ih, List.getElem?_append_left hlt]
        refine and_congr_right fun _ => and_congr_right fun _ => forall₂_congr fun f j => ?_
        constructor
        · exact fun hall hf hj => hall ((mem_selected_concat_of_lt (hj.trans hlt)).mp hf) hj
        · exact fun hall hf hj => hall ((mem_selected_concat_of_lt (hj.trans hlt)).mpr hf) hj
      · rw [mem_selected_concat_length, judge_eq_accepted_iff]
        simp only [List.getElem?_concat_length, Option.some.injEq, List.mem_map, Prod.exists,
          exists_and_right, exists_eq_right, forall_exists_index]
        refine and_congr eq_comm (and_congr_right fun _ => forall₂_congr fun f j => ?_)
        constructor
        · exact fun hall hf hj => hall ((mem_selected_concat_of_lt hj).mp hf)
        · intro hall hf
          have hj := lt_length_of_mem_selected hf
          exact hall ((mem_selected_concat_of_lt hj).mpr hf) hj
      · have hnone : (edits ++ [last])[i]? = none := by
          rw [List.getElem?_eq_none_iff, List.length_append, List.length_singleton]
          omega
        have hnot : (e, i) ∉ selected text (edits ++ [last]) := fun h => by
          have := lt_length_of_mem_selected h
          rw [List.length_append, List.length_singleton] at this
          omega
        simp [hnone, hnot]

/-! ### Sorting keeps the places -/

/-- The accepted edits in the order in which they are spliced, with their
places. -/
def spliceOrder (text : List Char) (edits : List Edit) : List (Edit × ℕ) :=
  (selected text edits).mergeSort fun a b => a.1.precedes b.1

lemma Edit.precedes_trans (a b c : Edit) (hab : a.precedes b = true) (hbc : b.precedes c = true) :
    a.precedes c = true := by
  simp only [Edit.precedes, Bool.or_eq_true, decide_eq_true_eq, Bool.and_eq_true,
    beq_iff_eq] at *
  omega

lemma Edit.precedes_total (a b : Edit) : (a.precedes b || b.precedes a) = true := by
  simp only [Edit.precedes, Bool.or_eq_true, decide_eq_true_eq, Bool.and_eq_true, beq_iff_eq]
  omega

/-- The edits that a batch applies, as they are spliced. -/
def appliedEdits (text : List Char) (edits : List Edit) : List Edit :=
  (Batch.ofEdits text edits).accepted.mergeSort Edit.precedes

lemma map_spliceOrder (text : List Char) (edits : List Edit) :
    (spliceOrder text edits).map Prod.fst = appliedEdits text edits := by
  rw [spliceOrder, appliedEdits, ← map_selected,
    List.map_mergeSort (s := Edit.precedes) (fun _ _ _ _ => rfl)]

/-- A text without edits stays as it is. -/
lemma applyEdits_nil (text : String) : applyEdits text [] = ⟨text, []⟩ := by
  rw [applyEdits, Batch.ofEdits, List.foldl_nil, List.mergeSort_nil, splice, String.ofList_toList]

/-- A lone edit that fits is applied. -/
lemma applyEdits_singleton {text : String} {edit : Edit} (h : edit.fits text.toList = true) :
    applyEdits text [edit] = ⟨String.ofList (splice 0 text.toList [edit]), []⟩ := by
  have hbatch : Batch.ofEdits text.toList [edit] = ⟨[edit], []⟩ := by
    simp [Batch.ofEdits, Batch.consider, judge, h]
  rw [applyEdits]
  simp only [hbatch, List.mergeSort_singleton]

lemma applyEdits_text (text : String) (edits : List Edit) :
    (applyEdits text edits).text.toList =
      splice 0 text.toList (appliedEdits text.toList edits) := by
  rw [applyEdits, String.toList_ofList, appliedEdits]

/-- Two members of a list without repetitions do not stand in both
orders. -/
lemma not_pair_sublist_swap {α : Type} [DecidableEq α] {l : List α} (hnodup : l.Nodup) {a b : α}
    (hab : [a, b].Sublist l) : ¬ [b, a].Sublist l := by
  have hidx : l.Pairwise fun x y => l.idxOf x < l.idxOf y := by
    rw [List.pairwise_iff_getElem]
    intro i j hi hj hij
    rwa [hnodup.idxOf_getElem, hnodup.idxOf_getElem]
  intro hba
  have h1 := List.pairwise_iff_forall_sublist.mp hidx hab
  have h2 := List.pairwise_iff_forall_sublist.mp hidx hba
  omega

/-- A later member of a list that is ordered by place stands behind an
earlier one. -/
lemma pair_sublist_of_lt {l : List (Edit × ℕ)} (hl : l.Pairwise fun a b => a.2 < b.2)
    {a b : Edit × ℕ} (ha : a ∈ l) (hb : b ∈ l) (hab : a.2 < b.2) : [a, b].Sublist l := by
  obtain ⟨s, t, rfl⟩ := List.append_of_mem ha
  rw [List.pairwise_append] at hl
  rcases List.mem_append.mp hb with hs | ht
  · have := hl.2.2 b hs a (by simp)
    omega
  · rcases List.mem_cons.mp ht with rfl | ht
    · omega
    · exact (List.Sublist.cons_cons a (List.singleton_sublist.mpr ht)).trans
        (List.sublist_append_right _ _)

/-- The sort is stable, so edits of one span keep the order of their
places. -/
lemma isSplicingOrder_spliceOrder (text : List Char) (edits : List Edit) :
    IsSplicingOrder text edits (spliceOrder text edits) := by
  have hmem : ∀ p, p ∈ spliceOrder text edits ↔ p ∈ selected text edits :=
    fun p => List.mem_mergeSort
  have hsel := pairwise_selected text edits
  constructor
  · intro e i
    simp only [hmem]
    exact mem_selected_iff
  · have htrans := fun a b c : Edit × ℕ => Edit.precedes_trans a.1 b.1 c.1
    have htotal := fun a b : Edit × ℕ => Edit.precedes_total a.1 b.1
    have hle := List.pairwise_mergeSort htrans htotal (selected text edits)
    have hnodup : (spliceOrder text edits).Nodup :=
      (List.mergeSort_perm _ _).nodup_iff.mpr
        (hsel.imp fun {a b} hab (heq : a = b) => Nat.lt_irrefl _ (heq ▸ hab : b.2 < b.2))
    rw [List.pairwise_iff_forall_sublist] at hle ⊢
    intro a b hsub
    have hab := hle hsub
    have ha := (hmem a).mp (hsub.subset (by simp))
    have hb := (hmem b).mp (hsub.subset (by simp))
    -- where the spans agree, the earlier place stands first before and after sorting
    have hplace : b.1.precedes a.1 = true → a.2 < b.2 := by
      intro hba
      rcases Nat.lt_trichotomy a.2 b.2 with hlt | heq | hgt
      · exact hlt
      · have hai := (mem_selected_iff.mp ha).1
        rw [heq, (mem_selected_iff.mp hb).1, Option.some.injEq] at hai
        exact absurd (Prod.ext hai.symm heq) (List.pairwise_iff_forall_sublist.mp hnodup hsub)
      · have hswap := List.pair_sublist_mergeSort htrans htotal hba
          (pair_sublist_of_lt hsel hb ha hgt)
        exact absurd hswap (not_pair_sublist_swap hnodup hsub)
    simp only [SplicedBefore]
    simp only [Edit.precedes, Bool.or_eq_true, decide_eq_true_eq, Bool.and_eq_true,
      beq_iff_eq] at hab hplace
    omega

lemma pairwise_appliedEdits (text : List Char) (edits : List Edit) :
    (appliedEdits text edits).Pairwise Edit.EndsBefore := by
  rw [← map_spliceOrder]
  exact (isSplicingOrder_spliceOrder text edits).pairwise_endsBefore

lemma inBounds_of_mem_appliedEdits {text : List Char} {edits : List Edit} {e : Edit}
    (h : e ∈ appliedEdits text edits) : e.InBounds text := by
  rw [← map_spliceOrder] at h
  exact (isSplicingOrder_spliceOrder text edits).inBounds h

end GraphMigrate
