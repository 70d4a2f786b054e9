/-
What becomes of each edit of a batch.

Every edit of a list gets one verdict, in view of the edits before it: it is
accepted, it repeats an accepted one, or it is skipped.  Edits that come later
change nothing about that.

* `verdicts`: the verdicts on a list of edits, place by place;
* `verdicts_isPrefix_append`: later edits leave them as they are;
* `withVerdict`, `ofEdits_eq_withVerdict`: the accepted and the skipped edits are
  those with the verdict, in their order;
* `AcceptedBefore`, `Edit.IsMisplaced`, `IsVerdict`: what a verdict rests on;
* `applyEdits_first_writer_wins`: **what was accepted or skipped stays so
  whatever is added to the list**, and each edit has the one verdict that the
  accepted edits before it call for.
-/
import GraphMigrate.Proofs.Text.Recorded

namespace GraphMigrate

/-! ### One verdict for each place -/

/-- The verdicts on the edits of a list, place by place. -/
def verdicts (text : List Char) (edits : List Edit) : List Verdict :=
  edits.mapIdx fun i e => judge text (acceptedEdits text (edits.take i)) e

/-- The edits of a list on which a verdict was given, in their order. -/
def withVerdict (text : List Char) (edits : List Edit) (verdict : Verdict) : List Edit :=
  ((edits.zip (verdicts text edits)).filter (·.2 = verdict)).map (·.1)

variable {text : List Char} {edits : List Edit} {e : Edit} {i : ℕ}

@[simp] lemma length_verdicts : (verdicts text edits).length = edits.length := by
  rw [verdicts, List.length_mapIdx]

lemma getElem?_verdicts (h : edits[i]? = some e) :
    (verdicts text edits)[i]? = some (judge text (acceptedEdits text (edits.take i)) e) := by
  rw [verdicts, List.getElem?_mapIdx, h, Option.map_some]

lemma verdicts_concat (text : List Char) (edits : List Edit) (e : Edit) :
    verdicts text (edits ++ [e]) =
      verdicts text edits ++ [judge text (acceptedEdits text edits) e] := by
  rw [verdicts, List.mapIdx_concat, List.take_left, verdicts]
  congr 1
  rw [List.mapIdx_eq_mapIdx_iff]
  intro i hi
  rw [List.take_append_of_le_length hi.le]

/-- Later edits leave the verdicts on earlier ones as they are. -/
lemma verdicts_isPrefix_append (text : List Char) (edits later : List Edit) :
    verdicts text edits <+: verdicts text (edits ++ later) := by
  induction later using List.reverseRecOn with
  | nil => rw [List.append_nil]
  | append_singleton later e ih =>
      rw [← List.append_assoc, verdicts_concat]
      exact ih.trans (List.prefix_append _ _)

lemma withVerdict_concat (text : List Char) (edits : List Edit) (e : Edit) (verdict : Verdict) :
    withVerdict text (edits ++ [e]) verdict = withVerdict text edits verdict ++
      if judge text (acceptedEdits text edits) e = verdict then [e] else [] := by
  rw [withVerdict, verdicts_concat, List.zip_append length_verdicts.symm, List.filter_append,
    List.map_append, withVerdict, List.zip_cons_cons, List.zip_nil_right, List.filter_cons]
  split_ifs <;> simp_all

/-- With a longer list the edits of a verdict go on. -/
lemma withVerdict_isPrefix_append (text : List Char) (edits later : List Edit) (verdict : Verdict) :
    withVerdict text edits verdict <+: withVerdict text (edits ++ later) verdict := by
  induction later using List.reverseRecOn with
  | nil => rw [List.append_nil]
  | append_singleton later e ih =>
      rw [← List.append_assoc, withVerdict_concat]
      exact ih.trans (List.prefix_append _ _)

/-- The accepted and the skipped edits of a batch are those with the verdict. -/
lemma ofEdits_eq_withVerdict (text : List Char) (edits : List Edit) :
    Batch.ofEdits text edits =
      ⟨withVerdict text edits .accepted, withVerdict text edits .skipped⟩ := by
  induction edits using List.reverseRecOn with
  | nil => rfl
  | append_singleton edits e ih =>
      rw [ofEdits_concat, Batch.consider, withVerdict_concat, withVerdict_concat, acceptedEdits, ih]
      cases judge text (withVerdict text edits .accepted) e <;> simp

lemma acceptedEdits_eq_withVerdict (text : List Char) (edits : List Edit) :
    acceptedEdits text edits = withVerdict text edits .accepted := by
  rw [acceptedEdits, ofEdits_eq_withVerdict]

lemma skipped_eq_withVerdict (text : List Char) (edits : List Edit) :
    (Batch.ofEdits text edits).skipped = withVerdict text edits .skipped := by
  rw [ofEdits_eq_withVerdict]

/-- No two accepted edits contradict each other. -/
lemma pairwise_acceptedEdits (text : List Char) (edits : List Edit) :
    (acceptedEdits text edits).Pairwise fun a b => a.conflictsWith b = false := by
  induction edits using List.reverseRecOn with
  | nil => exact .nil
  | append_singleton edits e ih =>
      rw [acceptedEdits_eq_withVerdict, withVerdict_concat, ← acceptedEdits_eq_withVerdict]
      split_ifs with h
      · have hagree := (judge_eq_accepted_iff.mp h).2
        exact List.pairwise_append.mpr ⟨ih, List.pairwise_singleton _ _, fun f hf g hg =>
          List.mem_singleton.mp hg ▸ (hagree f hf).2⟩
      · rwa [List.append_nil]

/-! ### What a verdict rests on -/

/-- An edit was accepted at a place before a given one. -/
def AcceptedBefore (text : List Char) (edits : List Edit) (i : ℕ) (f : Edit) : Prop :=
  ∃ j < i, edits[j]? = some f ∧ (verdicts text edits)[j]? = some .accepted

/-- An edit whose span runs backwards, leaves the text or ends inside a
character. -/
def Edit.IsMisplaced (text : List Char) (e : Edit) : Prop :=
  e.span.stop < e.span.start ∨ byteLength text < e.span.stop ∨
    ¬ IsBoundary text e.span.start ∨ ¬ IsBoundary text e.span.stop

/-- The verdict that an edit at a place calls for.  It is accepted if it is in
order, differs from those accepted before it and contradicts none of them,
repeated if it is one of them, and skipped if it is misplaced or contradicts
another one. -/
structure IsVerdict (text : List Char) (edits : List Edit) (i : ℕ) (e : Edit) (v : Verdict) :
    Prop where
  accepted_iff : v = .accepted ↔ e.InBounds text ∧
    ∀ f, AcceptedBefore text edits i f → f ≠ e ∧ f.conflictsWith e = false
  repeated_iff : v = .repeated ↔ AcceptedBefore text edits i e
  skipped_iff : v = .skipped ↔ e.IsMisplaced text ∨
    ∃ f, AcceptedBefore text edits i f ∧ f ≠ e ∧ f.conflictsWith e = true

lemma Edit.isMisplaced_iff : e.IsMisplaced text ↔ ¬ e.InBounds text := by
  rw [IsMisplaced, InBounds, not_and_or, not_and_or, not_le]
  refine or_congr_right ⟨?_, Or.inr⟩
  rintro (houtside | hinside)
  · exact .inr fun hstop => absurd hstop.le_byteLength houtside.not_ge
  · exact hinside

lemma judge_eq_repeated_iff {accepted : List Edit} :
    judge text accepted e = .repeated ↔ e.InBounds text ∧ e ∈ accepted := by
  rw [← Edit.fits_iff_inBounds, judge]
  by_cases hfits : e.fits text
  · by_cases hmem : e ∈ accepted
    · simp [hfits, hmem]
    · simp only [hfits, hmem, Bool.not_true, Bool.false_eq_true, if_false, List.contains_iff_mem,
        and_false, iff_false]
      split <;> decide
  · simp [hfits]

/-- A replacement contradicts itself, but it is repeated, not skipped, if it was
accepted before, and then no other accepted edit contradicts it. -/
lemma judge_eq_skipped_iff {accepted : List Edit}
    (hagree : accepted.Pairwise fun a b => a.conflictsWith b = false) :
    judge text accepted e = .skipped ↔ ¬ e.InBounds text ∨
      ∃ f ∈ accepted, f ≠ e ∧ f.conflictsWith e = true := by
  rw [← Edit.fits_iff_inBounds, judge]
  by_cases hfits : e.fits text
  · by_cases hmem : e ∈ accepted
    · have : Std.Symm fun a b : Edit => a.conflictsWith b = false :=
        ⟨fun a b hab => (Edit.conflictsWith_comm b a).trans hab⟩
      have hnone : ¬ ∃ f ∈ accepted, f ≠ e ∧ f.conflictsWith e = true := by
        rintro ⟨f, hf, hne, hconflict⟩
        rw [hagree.forall hf hmem hne] at hconflict
        cases hconflict
      simp [hfits, hmem, hnone]
    · have hne : ∀ f ∈ accepted, f ≠ e := fun f hf heq => hmem (heq ▸ hf)
      have hothers : (∃ f ∈ accepted, f ≠ e ∧ f.conflictsWith e = true) ↔
          ∃ f ∈ accepted, f.conflictsWith e = true :=
        exists_congr fun f => and_congr_right fun hf => and_iff_right (hne f hf)
      rw [hothers]
      simp [hfits, hmem]
  · simp [hfits]

/-- The edits with their places that are accepted are those with the
verdict. -/
lemma mem_selected_iff_verdict :
    (e, i) ∈ selected text edits ↔
      edits[i]? = some e ∧ (verdicts text edits)[i]? = some .accepted := by
  induction edits using List.reverseRecOn with
  | nil => simp [selected]
  | append_singleton edits last ih =>
      rcases Nat.lt_trichotomy i edits.length with hlt | rfl | hgt
      · rw [mem_selected_append [last] hlt, ih, verdicts_concat, List.getElem?_append_left hlt,
          List.getElem?_append_left (by rwa [length_verdicts])]
      · have hnot : (e, edits.length) ∉ selected text edits := fun h =>
          Nat.lt_irrefl _ (lt_length_of_mem_selected h)
        have hlast : (verdicts text (edits ++ [last]))[edits.length]? =
            some (judge text (acceptedEdits text edits) last) := by
          rw [verdicts_concat, List.getElem?_append_right length_verdicts.le, length_verdicts,
            Nat.sub_self, List.getElem?_cons_zero]
        rw [selected_concat, select, map_selected, ← acceptedEdits, hlast,
          List.getElem?_concat_length, Option.some.injEq, Option.some.injEq]
        split_ifs with h
        · simp [hnot, h, eq_comm]
        · simp [hnot, h]
      · have hnone : (edits ++ [last])[i]? = none := by
          rw [List.getElem?_eq_none_iff, List.length_append, List.length_singleton]
          omega
        rw [hnone]
        refine ⟨fun h => ?_, fun h => by cases h.1⟩
        have := lt_length_of_mem_selected h
        rw [List.length_append, List.length_singleton] at this
        omega

/-- What was accepted before a place is what is accepted of the edits there. -/
lemma acceptedBefore_iff {f : Edit} (hi : i ≤ edits.length) :
    AcceptedBefore text edits i f ↔ f ∈ acceptedEdits text (edits.take i) := by
  have hlength : (edits.take i).length = i := List.length_take_of_le hi
  simp only [AcceptedBefore, mem_acceptedEdits_iff, ← mem_selected_iff_verdict]
  have hsplit {j : ℕ} (hj : j < i) :
      (f, j) ∈ selected text edits ↔ (f, j) ∈ selected text (edits.take i) := by
    conv_lhs => rw [← List.take_append_drop i edits]
    exact mem_selected_append _ (by rwa [hlength])
  constructor
  · rintro ⟨j, hj, hmem⟩
    exact ⟨j, (hsplit hj).mp hmem⟩
  · rintro ⟨j, hmem⟩
    have hj : j < i := hlength ▸ lt_length_of_mem_selected hmem
    exact ⟨j, hj, (hsplit hj).mpr hmem⟩

/-- Each edit of a list has the verdict that those accepted before it call
for. -/
lemma isVerdict_judge (h : edits[i]? = some e) :
    IsVerdict text edits i e (judge text (acceptedEdits text (edits.take i)) e) := by
  have hi : i ≤ edits.length := (List.getElem?_eq_some_iff.mp h).1.le
  constructor
  · simp only [acceptedBefore_iff hi, judge_eq_accepted_iff]
  · rw [acceptedBefore_iff hi, judge_eq_repeated_iff, and_iff_right_iff_imp]
    intro hmem
    obtain ⟨j, hj⟩ := mem_acceptedEdits_iff.mp hmem
    exact (mem_selected_iff.mp hj).2.1
  · simp only [acceptedBefore_iff hi, Edit.isMisplaced_iff]
    exact judge_eq_skipped_iff (pairwise_acceptedEdits _ _)

/-- **The first writer wins, and no edit is lost.**  An edit of a list gets one
verdict, the same whatever edits follow: it is accepted, it is dropped as one
accepted before it, or it is skipped, which happens when it runs backwards,
leaves the text or splits a character, or contradicts another one accepted before
it.  The accepted and the skipped edits are those with the verdict, in the order
of the list; of a longer list they go on in the same way.  No two accepted edits
contradict each other, and they are the ones whose text is found in the
result. -/
theorem applyEdits_first_writer_wins (text : String) (edits later : List Edit) :
    (∀ i e, edits[i]? = some e → ∃ v, IsVerdict text.toList edits i e v ∧
      (verdicts text.toList edits)[i]? = some v ∧
      (verdicts text.toList (edits ++ later))[i]? = some v) ∧
    acceptedEdits text.toList edits = withVerdict text.toList edits .accepted ∧
    (applyEdits text edits).skipped = withVerdict text.toList edits .skipped ∧
    acceptedEdits text.toList edits <+: acceptedEdits text.toList (edits ++ later) ∧
    (applyEdits text edits).skipped <+: (applyEdits text (edits ++ later)).skipped ∧
    (acceptedEdits text.toList edits).Pairwise (fun a b => a.conflictsWith b = false) ∧
    ∀ e, e.TakesEffect text.toList edits (applyEdits text edits).text.toList ↔
      e ∈ acceptedEdits text.toList edits := by
  have hskipped : ∀ edits, (applyEdits text edits).skipped =
      withVerdict text.toList edits .skipped := skipped_eq_withVerdict text.toList
  refine ⟨fun i e he => ?_, acceptedEdits_eq_withVerdict _ _, hskipped edits, ?_, ?_,
    pairwise_acceptedEdits _ _,
    fun e => takesEffect_iff_mem.trans mem_appliedEdits_iff_mem_acceptedEdits⟩
  · have hverdict : (verdicts text.toList edits)[i]? = some _ := getElem?_verdicts he
    obtain ⟨rest, hrest⟩ := verdicts_isPrefix_append text.toList edits later
    refine ⟨_, isVerdict_judge he, hverdict, ?_⟩
    rw [← hrest, List.getElem?_append_left (List.getElem?_eq_some_iff.mp hverdict).1, hverdict]
  · rw [acceptedEdits_eq_withVerdict, acceptedEdits_eq_withVerdict]
    exact withVerdict_isPrefix_append _ _ _ _
  · rw [hskipped, hskipped]
    exact withVerdict_isPrefix_append _ _ _ _

/-- A replacement, the same again, one of a byte that it replaces, an insertion
behind it and a span that runs backwards. -/
example : verdicts "abc".toList [.replace ⟨0, 2⟩ "x", .replace ⟨0, 2⟩ "x", .replace ⟨1, 3⟩ "y",
    .insert 2 "z", .replace ⟨2, 1⟩ ""] =
      [.accepted, .repeated, .skipped, .accepted, .skipped] := by
  decide

end GraphMigrate
