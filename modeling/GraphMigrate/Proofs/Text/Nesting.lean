/-
Which edits of nested spans take effect.

A batch drops an edit that contradicts an earlier one.  Where the spans to
rewrite lie apart or in one another, what is lost this way depends on the
order alone: an outer span is rewritten only if nothing inside it came
first.

* `Edit.TakesEffect`: an edit whose text is found in the result, with the
  text around its span rewritten by the other edits of the batch;
  `takesEffect_iff_mem`: these are the applied edits;
* `appliedEdits_eq_of_apart`: edits that lie apart are all applied;
* `Target`, `Target.AreNested`: spans to rewrite, each by an edit that
  covers it, such that only edits of nested spans contradict each other;
* `OuterFirst`: every span that comes after one inside it lies itself in
  one that comes before;
* `Target.IsCovered`, `covered_iff_outerFirst`: what is accepted covers all
  targets exactly when the outer ones come first;
* `NothingLeft`, `nothingLeft_iff_outerFirst`: **all targets are rewritten,
  on their own or within another, exactly then**.
-/
import GraphMigrate.Proofs.Text.Splicing

namespace GraphMigrate

/-! ### Edits that take effect -/

/-- An edit of a batch has taken effect in a text when its own text stands
there for what its span covered, between what the applied edits to the left
of it and those to the right have made of the rest. -/
def Edit.TakesEffect (text : List Char) (edits : List Edit) (result : List Char) (e : Edit) :
    Prop :=
  ∃ left right before gone after, appliedEdits text edits = left ++ e :: right ∧
    text = before ++ gone ++ after ∧ e.span.start = byteLength before ∧
    e.span.stop = byteLength (before ++ gone) ∧
    result = splice 0 before left ++ e.text.toList ++ splice e.span.stop after right

/-- Splicing a layout goes on independently before and behind each of its
edits. -/
lemma Laid.exists_splice_eq {cursor : ℕ} {text : List Char} {left : List Edit} {e : Edit}
    {right : List Edit} (h : Laid cursor text (left ++ e :: right)) :
    ∃ before gone after, text = before ++ gone ++ after ∧
      e.span.start = cursor + byteLength before ∧
      e.span.stop = cursor + byteLength (before ++ gone) ∧
      splice cursor text (left ++ e :: right) =
        splice cursor before left ++ e.text.toList ++ splice e.span.stop after right := by
  induction left generalizing cursor text with
  | nil =>
      cases h with
      | @cons _ kept gone after _ _ hstart hstop htail =>
          refine ⟨kept, gone, after, rfl, hstart, ?_, ?_⟩
          · rw [byteLength_append]
            omega
          · exact splice_cons hstart hstop
  | cons f left ih =>
      cases h with
      | @cons _ kept gone after _ _ hstart hstop htail =>
          obtain ⟨before, gone', after, rfl, hestart, hestop, hsplice⟩ := ih htail
          refine ⟨kept ++ gone ++ before, gone', after, by simp, ?_, ?_, ?_⟩
          · simp only [byteLength_append]
            omega
          · simp only [byteLength_append] at hestop ⊢
            omega
          · rw [List.cons_append, splice_cons hstart hstop, splice_cons hstart hstop, hsplice]
            simp only [List.append_assoc]

/-- The edits that take effect are those that the batch applies. -/
lemma takesEffect_iff_mem {text : String} {edits : List Edit} {e : Edit} :
    e.TakesEffect text.toList edits (applyEdits text edits).text.toList ↔
      e ∈ appliedEdits text.toList edits := by
  constructor
  · rintro ⟨left, right, -, -, -, h, -⟩
    simp [h]
  · intro h
    obtain ⟨left, right, hsplit⟩ := List.append_of_mem h
    have hlaid := laid_appliedEdits text.toList edits
    rw [applyEdits_text]
    rw [hsplit] at hlaid ⊢
    obtain ⟨before, gone, after, htext, hstart, hstop, hsplice⟩ := hlaid.exists_splice_eq
    exact ⟨left, right, before, gone, after, hsplit, htext, by simpa using hstart,
      by simpa using hstop, hsplice⟩

lemma mem_appliedEdits_iff {text : List Char} {edits : List Edit} {e : Edit} :
    e ∈ appliedEdits text edits ↔ ∃ i, (e, i) ∈ selected text edits := by
  rw [appliedEdits, List.mem_mergeSort, ← map_selected]
  simp

/-- An edit that fits is accepted at its place, or repeats or contradicts
one that is accepted at an earlier place. -/
lemma mem_selected_or {text : List Char} {edits : List Edit} {e : Edit} {i : ℕ}
    (hi : edits[i]? = some e) (hfit : e.InBounds text) :
    (e, i) ∈ selected text edits ∨ ∃ f j, (f, j) ∈ selected text edits ∧ j < i ∧
      (f = e ∨ f.conflictsWith e = true) := by
  by_contra hnot
  push Not at hnot
  refine hnot.1 (mem_selected_iff.mpr ⟨hi, hfit, fun f j hf hj => ?_⟩)
  have := hnot.2 f j hf hj
  exact ⟨this.1, by simpa using this.2⟩

/-- Accepted edits that contradict each other stand at one place. -/
lemma eq_of_mem_selected {text : List Char} {edits : List Edit} {e f : Edit} {i j : ℕ}
    (he : (e, i) ∈ selected text edits) (hf : (f, j) ∈ selected text edits)
    (h : e.conflictsWith f = true) : i = j := by
  rcases Nat.lt_trichotomy i j with hlt | heq | hgt
  · have := ((mem_selected_iff.mp hf).2.2 e i he hlt).2
    simp [h] at this
  · exact heq
  · have := ((mem_selected_iff.mp he).2.2 f j hf hgt).2
    rw [Edit.conflictsWith_comm] at this
    simp [h] at this

/-! ### Nested targets -/

/-- A span that lies in another. -/
def Span.Within (s t : Span) : Prop := t.start ≤ s.start ∧ s.stop ≤ t.stop

instance (s t : Span) : Decidable (s.Within t) := inferInstanceAs (Decidable (_ ∧ _))

lemma Span.Within.refl (s : Span) : s.Within s := ⟨le_refl _, le_refl _⟩

lemma Span.Within.trans {s t u : Span} (hst : s.Within t) (htu : t.Within u) : s.Within u :=
  ⟨htu.1.trans hst.1, hst.2.trans htu.2⟩

/-- A span to rewrite and the edit that does so. -/
structure Target where
  span : Span
  edit : Edit
  deriving DecidableEq, Repr

namespace Target

/-- Targets of a text that are covered by their edits and told apart by
them, such that edits contradict each other only where one target lies in
another. -/
structure AreNested (text : List Char) (targets : List Target) : Prop where
  inBounds : ∀ t ∈ targets, t.edit.InBounds text
  covers : ∀ t ∈ targets, t.span.Within t.edit.span
  nonempty : ∀ t ∈ targets, t.span.start < t.span.stop
  span_eq : ∀ t ∈ targets, ∀ u ∈ targets, t.edit = u.edit → t.span = u.span
  nested : ∀ t ∈ targets, ∀ u ∈ targets, t.edit.conflictsWith u.edit = true →
    t.span.Within u.span ∨ u.span.Within t.span

end Target

/-- Every span that comes after one strictly inside it lies in one that
comes before it. -/
def OuterFirst (spans : List Span) : Prop :=
  ∀ i (hi : i < spans.length),
    (∃ t ∈ spans.take i, t.Within spans[i] ∧ ¬ spans[i].Within t) →
      ∃ u ∈ spans.take i, spans[i].Within u

instance (spans : List Span) : Decidable (OuterFirst spans) :=
  inferInstanceAs (Decidable (∀ i (_ : i < spans.length), _ → _))

/-- Edits that cover a common byte contradict each other. -/
lemma conflictsWith_of_within {s : Span} {a b : Edit} (hs : s.start < s.stop)
    (ha : s.Within a.span) (hb : s.Within b.span) : a.conflictsWith b = true := by
  obtain ⟨ha1, ha2⟩ := ha
  obtain ⟨hb1, hb2⟩ := hb
  have hane : a.span.isEmpty = false := by
    rw [Span.isEmpty, beq_eq_false_iff_ne]
    omega
  have hbne : b.span.isEmpty = false := by
    rw [Span.isEmpty, beq_eq_false_iff_ne]
    omega
  simp only [Edit.conflictsWith, hane, hbne, Bool.and_eq_true, decide_eq_true_eq]
  omega

/-- An edit that ends before another does not contradict it. -/
lemma Edit.EndsBefore.conflictsWith_eq_false {a b : Edit} (h : a.EndsBefore b)
    (ha : a.span.start ≤ a.span.stop) : a.conflictsWith b = false := by
  rw [EndsBefore] at h
  rw [conflictsWith]
  split <;> simp only [Bool.and_eq_false_iff, decide_eq_false_iff_not] <;> omega

/-- Edits of spans that lie apart are all applied, in the order of their
spans, however they are listed. -/
lemma appliedEdits_eq_of_apart {text : List Char} {edits ordered : List Edit}
    (hmem : ∀ e, e ∈ edits ↔ e ∈ ordered) (hapart : ordered.Pairwise Edit.EndsBefore)
    (hfit : ∀ e ∈ ordered, e.InBounds text)
    (hsome : ∀ e ∈ ordered, e.span.start < e.span.stop) : appliedEdits text edits = ordered := by
  have hsub : ∀ e ∈ appliedEdits text edits, e ∈ ordered := fun e he => by
    obtain ⟨i, hi⟩ := mem_appliedEdits_iff.mp he
    exact (hmem e).mp (List.mem_of_getElem? (mem_selected_iff.mp hi).1)
  have hagree : ordered.Pairwise fun a b => a.conflictsWith b = false :=
    hapart.imp_of_mem fun ha _ hab => hab.conflictsWith_eq_false (hsome _ ha).le
  have : Std.Symm fun a b : Edit => a.conflictsWith b = false :=
    ⟨fun a b hab => (Edit.conflictsWith_comm b a).trans hab⟩
  have hsup : ∀ e ∈ ordered, e ∈ appliedEdits text edits := by
    intro e he
    obtain ⟨i, hi⟩ := List.getElem?_of_mem ((hmem e).mpr he)
    rcases mem_selected_or hi (hfit e he) with h | ⟨f, j, hf, -, hclash⟩
    · exact mem_appliedEdits_iff.mpr ⟨i, h⟩
    · -- edits that lie apart contradict each other only where they are the same
      have hf' := mem_appliedEdits_iff.mpr ⟨j, hf⟩
      have heq : f = e := by
        rcases hclash with heq | hconflict
        · exact heq
        · by_contra hne
          rw [hagree.forall (hsub f hf') he hne] at hconflict
          cases hconflict
      exact heq ▸ hf'
  have hne : ∀ e ∈ ordered, ∀ f, e.EndsBefore f → e ≠ f := by
    rintro e he _ h rfl
    exact absurd h (hsome e he).not_ge
  have hnodup : ordered.Nodup := hapart.imp_of_mem fun ha _ hab => hne _ ha _ hab
  have hnodup' : (appliedEdits text edits).Nodup :=
    (pairwise_appliedEdits text edits).imp_of_mem fun ha _ hab => hne _ (hsub _ ha) _ hab
  have hperm : (appliedEdits text edits).Perm ordered :=
    (List.perm_ext_iff_of_nodup hnodup' hnodup).mpr fun e => ⟨hsub e, hsup e⟩
  refine hperm.eq_of_pairwise (fun a b ha hb hab hba => ?_) (pairwise_appliedEdits text edits)
    hapart
  have := hsome a (hsub a ha)
  have := hsome b hb
  rw [Edit.EndsBefore] at hab hba
  omega

namespace Target

/-- The edits of targets, in their order. -/
def edits (targets : List Target) : List Edit := targets.map (·.edit)

lemma getElem?_edits {targets : List Target} {i : ℕ} {t : Target} (h : targets[i]? = some t) :
    (edits targets)[i]? = some t.edit := by
  simp [edits, h]

/-- What is accepted at a place is the edit of the target there. -/
lemma exists_of_mem_selected {text : List Char} {targets : List Target} {e : Edit} {i : ℕ}
    (h : (e, i) ∈ selected text (edits targets)) : ∃ t, targets[i]? = some t ∧ t.edit = e := by
  simpa [edits] using (mem_selected_iff.mp h).1

namespace AreNested

variable {text : List Char} {targets : List Target}

/-- A target is accepted, or one that is accepted at an earlier place lies
in it or around it. -/
lemma exists_accepted (h : AreNested text targets) {i : ℕ} {t : Target}
    (hi : targets[i]? = some t) :
    ∃ j u, targets[j]? = some u ∧ (u.edit, j) ∈ selected text (edits targets) ∧
      (j = i ∨ j < i) ∧ (t.span.Within u.span ∨ u.span.Within t.span) := by
  have ht := List.mem_of_getElem? hi
  rcases mem_selected_or (getElem?_edits hi) (h.inBounds t ht) with hacc | ⟨f, j, hf, hj, hne⟩
  · exact ⟨i, t, hi, hacc, Or.inl rfl, Or.inl (.refl _)⟩
  · obtain ⟨u, hu, rfl⟩ := exists_of_mem_selected hf
    have hmem := List.mem_of_getElem? hu
    refine ⟨j, u, hu, hf, Or.inr hj, ?_⟩
    rcases hne with heq | hconf
    · exact Or.inl (h.span_eq u hmem t ht heq ▸ .refl _)
    · exact (h.nested u hmem t ht hconf).symm

/-- Accepted targets around a common target stand at one place. -/
lemma eq_of_accepted (h : AreNested text targets) {j k : ℕ} {s t u : Target} (hs : s ∈ targets)
    (ht : targets[j]? = some t) (hu : targets[k]? = some u)
    (hj : (t.edit, j) ∈ selected text (edits targets))
    (hk : (u.edit, k) ∈ selected text (edits targets))
    (hst : s.span.Within t.span) (hsu : s.span.Within u.span) : j = k :=
  eq_of_mem_selected hj hk (conflictsWith_of_within (h.nonempty s hs)
    (hst.trans (h.covers t (List.mem_of_getElem? ht)))
    (hsu.trans (h.covers u (List.mem_of_getElem? hu))))

/-- What is accepted around a target comes no later than the target: whatever
was accepted instead of the target lies inside of it as well, or around it. -/
lemma le_of_accepted (h : AreNested text targets) {j k : ℕ} {t u : Target}
    (ht : targets[j]? = some t) (hu : targets[k]? = some u)
    (hk : (u.edit, k) ∈ selected text (edits targets)) (htu : t.span.Within u.span) : k ≤ j := by
  obtain ⟨m, w, hw, hacc, hm, hnest⟩ := h.exists_accepted ht
  have hsame : m = k := by
    rcases hnest with htw | hwt
    · exact h.eq_of_accepted (List.mem_of_getElem? ht) hw hu hacc hk htw htu
    · exact h.eq_of_accepted (List.mem_of_getElem? hw) hw hu hacc hk (.refl _) (hwt.trans htu)
  omega

end AreNested

/-- A target is covered when it lies in one whose edit is applied. -/
def IsCovered (text : List Char) (targets : List Target) (t : Target) : Prop :=
  ∃ u ∈ targets, t.span.Within u.span ∧ u.edit ∈ appliedEdits text (edits targets)

end Target

/-- The spans before a place are those of the targets there. -/
lemma mem_take_iff {targets : List Target} {s : Span} {i : ℕ} :
    s ∈ (targets.map (·.span)).take i ↔ ∃ k t, k < i ∧ targets[k]? = some t ∧ t.span = s := by
  rw [List.mem_iff_getElem?]
  simp only [List.getElem?_take, List.getElem?_map]
  constructor
  · rintro ⟨k, hk⟩
    split at hk
    · rename_i hlt
      obtain ⟨t, ht, hts⟩ := Option.map_eq_some_iff.mp hk
      exact ⟨k, t, hlt, ht, hts⟩
    · cases hk
  · rintro ⟨k, t, hlt, ht, rfl⟩
    exact ⟨k, by rw [if_pos hlt, ht, Option.map_some]⟩

namespace Target.AreNested

variable {text : List Char} {targets : List Target}

/-- If all targets are covered, the outer ones come first. -/
lemma outerFirst_of_covered (h : AreNested text targets)
    (hall : ∀ t ∈ targets, IsCovered text targets t) : OuterFirst (targets.map (·.span)) := by
  rintro i hi ⟨_, hinner, hin, -⟩
  obtain ⟨j, t, hj, ht, rfl⟩ := mem_take_iff.mp hinner
  rw [List.length_map] at hi
  rw [List.getElem_map] at hin ⊢
  obtain ⟨u, hu, hwithin, happlied⟩ := hall targets[i] (List.getElem_mem hi)
  obtain ⟨k, hk⟩ := mem_appliedEdits_iff.mp happlied
  obtain ⟨v, hv, heq⟩ := exists_of_mem_selected hk
  rw [← h.span_eq v (List.mem_of_getElem? hv) u hu heq] at hwithin
  have hle : k ≤ j := h.le_of_accepted ht hv (heq ▸ hk) (hin.trans hwithin)
  exact ⟨v.span, mem_take_iff.mpr ⟨k, v, by omega, hv, rfl⟩, hwithin⟩

/-- If the outer targets come first, the target at each place is covered.  One
that lost to a target inside of it lies in one at an earlier place. -/
lemma isCovered_of_outerFirst (h : AreNested text targets)
    (hfirst : OuterFirst (targets.map (·.span))) {i : ℕ} {t : Target}
    (hi : targets[i]? = some t) : IsCovered text targets t := by
  induction i using Nat.strong_induction_on generalizing t with
  | _ i ih =>
      obtain ⟨j, u, hu, hacc, hj, hnest⟩ := h.exists_accepted hi
      by_cases hwithin : t.span.Within u.span
      · exact ⟨u, List.mem_of_getElem? hu, hwithin, mem_appliedEdits_iff.mpr ⟨j, hacc⟩⟩
      have hji : j < i := by
        rcases hj with rfl | hj
        · -- a target lies in itself
          rw [hi, Option.some.injEq] at hu
          exact absurd (.refl _) (hu ▸ hwithin)
        · exact hj
      obtain ⟨hlt, rfl⟩ := List.getElem?_eq_some_iff.mp hi
      obtain ⟨_, hmem, hout⟩ := hfirst i (by rwa [List.length_map])
        ⟨u.span, mem_take_iff.mpr ⟨j, u, hji, hu, rfl⟩,
          by simpa using ⟨hnest.resolve_left hwithin, hwithin⟩⟩
      rw [List.getElem_map] at hout
      obtain ⟨k, w, hk, hw, rfl⟩ := mem_take_iff.mp hmem
      obtain ⟨x, hx, hwx, hxapplied⟩ := ih k hk hw
      exact ⟨x, hx, hout.trans hwx, hxapplied⟩

end Target.AreNested

/-- Nothing is lost exactly when the outer targets come first.  A target
is dropped in favour of one inside it only when that one came earlier; then
the target is rewritten only if something around it is. -/
lemma covered_iff_outerFirst {text : List Char} {targets : List Target}
    (h : Target.AreNested text targets) :
    (∀ t ∈ targets, t.IsCovered text targets) ↔ OuterFirst (targets.map (·.span)) := by
  refine ⟨h.outerFirst_of_covered, fun hfirst t ht => ?_⟩
  obtain ⟨i, hi⟩ := List.mem_iff_getElem?.mp ht
  exact h.isCovered_of_outerFirst hfirst hi

/-- A target is rewritten in a text when its edit covers it and has taken
effect there. -/
def Target.IsRewritten (text : List Char) (targets : List Target) (result : List Char)
    (t : Target) : Prop :=
  t.span.Within t.edit.span ∧ t.edit.TakesEffect text (edits targets) result

/-- Nothing is left of the targets in a text: each is rewritten, or lies in
another that is. -/
def NothingLeft (text : List Char) (targets : List Target) (result : List Char) : Prop :=
  ∀ t ∈ targets, t.IsRewritten text targets result ∨
    ∃ u ∈ targets, t.span.Within u.span ∧ u.IsRewritten text targets result

/-- **A batch leaves nothing of nested targets exactly when the outer ones
come first.** -/
theorem nothingLeft_iff_outerFirst {text : String} {targets : List Target}
    (h : Target.AreNested text.toList targets) :
    NothingLeft text.toList targets (applyEdits text (Target.edits targets)).text.toList ↔
      OuterFirst (targets.map (·.span)) := by
  have hrewritten : ∀ t ∈ targets, t.IsRewritten text.toList targets
      (applyEdits text (Target.edits targets)).text.toList ↔
        t.edit ∈ appliedEdits text.toList (Target.edits targets) := by
    intro t ht
    rw [Target.IsRewritten, takesEffect_iff_mem, and_iff_right (h.covers t ht)]
  rw [← covered_iff_outerFirst h, NothingLeft]
  refine forall₂_congr fun t ht => ?_
  constructor
  · rintro (hself | ⟨u, hu, hin, hother⟩)
    · exact ⟨t, ht, .refl _, (hrewritten t ht).mp hself⟩
    · exact ⟨u, hu, hin, (hrewritten u hu).mp hother⟩
  · rintro ⟨u, hu, hin, happlied⟩
    exact Or.inr ⟨u, hu, hin, (hrewritten u hu).mpr happlied⟩

end GraphMigrate
