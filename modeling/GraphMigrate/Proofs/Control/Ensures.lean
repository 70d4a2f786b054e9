/-
Runs that keep an invariant.

A run starts in a state and, unless it fails, ends in another with a
result.  What all runs of a step have in common is said of the step: from
states of a kind it leads to states of that kind, with a result of a kind.

* `exists_of_forall₂_left`, `pairwise_of_forall₂`: lists whose members
  correspond;
* `eq_ok_of_toOption`, `exists_ok_of_bind`, `forall₂_of_mapM`: results of runs
  that succeed;
* `mapM_of_forall₂`, `exists_mapM_eq_ok`, `mapM_of_error`: runs over lists that
  succeed, and that fail;
* `Ensures`: a step leads from good states to good states and results;
* `Ensures.pure`, `Ensures.bind`, `Ensures.ite`, `Ensures.mapM`,
  `Ensures.mapM_forall`: steps put together from others.
-/
import Mathlib.Tactic

namespace GraphMigrate

variable {σ ε α β : Type} {I : σ → Prop}

/-! ### Lists that correspond -/

section Corresponding

variable {R : α → β → Prop} {xs : List α} {ys : List β}

lemma exists_of_forall₂_left (h : List.Forall₂ R xs ys) {x : α} (hx : x ∈ xs) :
    ∃ y ∈ ys, R x y := by
  induction h with
  | nil => cases hx
  | cons hxy _ ih =>
      rcases List.mem_cons.mp hx with rfl | hx
      · exact ⟨_, List.mem_cons_self, hxy⟩
      · exact (ih hx).imp fun _ h => ⟨List.mem_cons_of_mem _ h.1, h.2⟩

lemma exists_of_forall₂_right (h : List.Forall₂ R xs ys) {y : β} (hy : y ∈ ys) :
    ∃ x ∈ xs, R x y :=
  exists_of_forall₂_left h.flip hy

/-- What holds of any two members of a list holds of those that correspond to
them. -/
lemma pairwise_of_forall₂ {S : α → α → Prop} {T : β → β → Prop} (h : List.Forall₂ R xs ys)
    (hT : ys.Pairwise T) (hS : ∀ x x' y y', R x y → R x' y' → T y y' → S x x') :
    xs.Pairwise S := by
  induction h with
  | nil => exact .nil
  | @cons x y xs ys hxy h ih =>
      obtain ⟨hfirst, hrest⟩ := List.pairwise_cons.mp hT
      refine List.pairwise_cons.mpr ⟨fun x' hx' => ?_, ih hrest⟩
      obtain ⟨y', hy', hxy'⟩ := exists_of_forall₂_left h hx'
      exact hS x x' y y' hxy hxy' (hfirst y' hy')

end Corresponding

/-! ### Results -/

lemma eq_ok_of_toOption {result : Except ε α} {a : α}
    (h : result.toOption = some a) : result = .ok a := by
  cases result with
  | error e => cases h
  | ok b => exact congrArg Except.ok (Option.some.inj h)

/-- Where a run of two parts succeeds, both parts do. -/
lemma exists_ok_of_bind {result : Except ε α} {next : α → Except ε β} {b : β}
    (h : result >>= next = .ok b) : ∃ a, result = .ok a ∧ next a = .ok b := by
  cases result with
  | error e => cases h
  | ok a => exact ⟨a, rfl, h⟩

/-- Where a run over a list succeeds, results and members correspond. -/
lemma forall₂_of_mapM {f : α → Except ε β} {xs : List α} {ys : List β}
    (h : xs.mapM f = .ok ys) : List.Forall₂ (fun x y => f x = .ok y) xs ys := by
  induction xs generalizing ys with
  | nil =>
      cases h
      exact .nil
  | cons x xs ih =>
      rw [List.mapM_cons] at h
      obtain ⟨y, hy, h⟩ := exists_ok_of_bind h
      obtain ⟨rest, hrest, h⟩ := exists_ok_of_bind h
      cases h
      exact .cons hy (ih hrest)

/-- A run over a list succeeds where it does at each member. -/
lemma mapM_of_forall₂ {f : α → Except ε β} {xs : List α} {ys : List β}
    (h : List.Forall₂ (fun x y => f x = .ok y) xs ys) : xs.mapM f = .ok ys := by
  induction h with
  | nil => rfl
  | cons hxy _ ih =>
      rw [List.mapM_cons, hxy, ih]
      rfl

/-- A run over a list has results where it has one at each member. -/
lemma exists_mapM_eq_ok {f : α → Except ε β} {xs : List α} (h : ∀ x ∈ xs, ∃ y, f x = .ok y) :
    ∃ ys, xs.mapM f = .ok ys := by
  induction xs with
  | nil => exact ⟨[], rfl⟩
  | cons x xs ih =>
      rw [List.forall_mem_cons] at h
      obtain ⟨y, hy⟩ := h.1
      obtain ⟨ys, hys⟩ := ih h.2
      exact ⟨y :: ys, mapM_of_forall₂ (.cons hy (forall₂_of_mapM hys))⟩

/-- A run over a list fails as it does at the first member where it does. -/
lemma mapM_of_error {f : α → Except ε β} {xs later : List α} {x : α} {e : ε}
    (hxs : ∀ w ∈ xs, ∃ y, f w = .ok y) (hx : f x = .error e) :
    (xs ++ x :: later).mapM f = .error e := by
  induction xs with
  | nil =>
      rw [List.nil_append, List.mapM_cons, hx]
      rfl
  | cons w ws ih =>
      rw [List.forall_mem_cons] at hxs
      obtain ⟨y, hy⟩ := hxs.1
      rw [List.cons_append, List.mapM_cons, hy, ih hxs.2]
      rfl

/-- Where a run over a list succeeds, it has a result for each member. -/
lemma exists_mem_of_mapM {f : α → Except ε β} {xs : List α} {ys : List β}
    (h : xs.mapM f = .ok ys) {x : α} (hx : x ∈ xs) : ∃ y ∈ ys, f x = .ok y :=
  exists_of_forall₂_left (forall₂_of_mapM h) hx

/-- Where a run over a list succeeds, each result comes from a member. -/
lemma exists_source_of_mapM {f : α → Except ε β} {xs : List α} {ys : List β}
    (h : xs.mapM f = .ok ys) {y : β} (hy : y ∈ ys) : ∃ x ∈ xs, f x = .ok y :=
  exists_of_forall₂_right (forall₂_of_mapM h) hy

/-! ### Steps -/

/-- Every run of a step that starts in a good state and does not fail ends
in a good state, with a good result. -/
def Ensures (I : σ → Prop) (step : StateT σ (Except ε) α) (P : α → Prop) : Prop :=
  ∀ s, I s → ∀ a s', step s = .ok (a, s') → I s' ∧ P a

namespace Ensures

variable {P Q : α → Prop}

lemma mono {step : StateT σ (Except ε) α} (h : Ensures I step P) (hPQ : ∀ a, P a → Q a) :
    Ensures I step Q := fun s hs a s' hrun =>
  ⟨(h s hs a s' hrun).1, hPQ a (h s hs a s' hrun).2⟩

protected lemma pure {a : α} (h : P a) : Ensures I (pure a : StateT σ (Except ε) α) P := by
  intro s hs b s' hrun
  cases hrun
  exact ⟨hs, h⟩

/-- A step that goes on with what another gave. -/
protected lemma bind {P : α → Prop} {Q : β → Prop} {step : StateT σ (Except ε) α}
    {next : α → StateT σ (Except ε) β} (h : Ensures I step P)
    (hnext : ∀ a, P a → Ensures I (next a) Q) : Ensures I (step >>= next) Q := by
  intro s hs b s' hrun
  change (step s >>= fun p => next p.1 p.2) = _ at hrun
  cases hstep : step s with
  | error e =>
      rw [hstep] at hrun
      cases hrun
  | ok p =>
      rw [hstep] at hrun
      obtain ⟨hmid, ha⟩ := h s hs p.1 p.2 hstep
      exact hnext p.1 ha p.2 hmid b s' hrun

lemma map {P : α → Prop} {Q : β → Prop} {step : StateT σ (Except ε) α} {f : α → β}
    (h : Ensures I step P) (hf : ∀ a, P a → Q (f a)) : Ensures I (f <$> step) Q := by
  rw [map_eq_pure_bind]
  exact h.bind fun a ha => .pure (hf a ha)

protected lemma ite {c : Prop} [Decidable c] {yes no : StateT σ (Except ε) α}
    (hyes : c → Ensures I yes P) (hno : ¬ c → Ensures I no P) :
    Ensures I (if c then yes else no) P := by
  split
  · exact hyes ‹_›
  · exact hno ‹_›

/-- A step for each member of a list: results and members correspond. -/
protected lemma mapM {R : α → β → Prop} {step : α → StateT σ (Except ε) β}
    (h : ∀ a, Ensures I (step a) (R a)) (as : List α) :
    Ensures I (as.mapM step) (List.Forall₂ R as) := by
  induction as with
  | nil =>
      rw [List.mapM_nil]
      exact .pure .nil
  | cons a as ih =>
      rw [List.mapM_cons]
      exact (h a).bind fun b hb => ih.bind fun bs hbs => .pure (.cons hb hbs)

/-- A step for each member of a list whose results are all of one kind. -/
lemma mapM_forall {step : α → StateT σ (Except ε) β} {P : β → Prop}
    (h : ∀ a, Ensures I (step a) P) (as : List α) :
    Ensures I (as.mapM step) fun bs => ∀ b ∈ bs, P b := by
  refine (Ensures.mapM h as).mono fun bs hbs => ?_
  induction hbs with
  | nil => exact List.forall_mem_nil P
  | cons hb _ ih => exact List.forall_mem_cons.mpr ⟨hb, ih⟩

end Ensures

end GraphMigrate
