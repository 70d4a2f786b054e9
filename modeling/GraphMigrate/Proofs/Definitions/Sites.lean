/-
The search, definition by definition.

What a definition contributes does not depend on what was found before it:
only the places of the maps of a mutation count on from the maps that are
there.  So a search is put together from its definition sites, each searched
on its own, in the order of the visit; it fails exactly with the error of the
first site that fails.

* `Definitions.append`, `Definitions.concat`: what was found, one behind the
  other;
* `MovesBehind`: a step of the search does behind what was found elsewhere what
  it does on its own;
* `isSite`, `analyse`: the nodes that define something, and what each of them
  contributes;
* `movesBehind_visit`, `visitAll_eq`: one node, and a row of them;
* `visitFlagged`, `locate_eq_flagged`: a search that goes on behind a failure, but
  leaves everything as it is, has the same result;
* `locate_concatenates_sites`: **a search is the concatenation of its
  definition sites, or fails as the first of them that fails**.
-/
import GraphMigrate.Proofs.Definitions.CrossReferences

namespace GraphMigrate

open Script (Node Source)

/-! ### One behind the other -/

/-- A mutation whose maps stand behind a number of others. -/
def Mutation.behind (inputs outputs : ℕ) (m : Mutation) : Mutation :=
  { m with inputMap := m.inputMap.map (inputs + ·), outputMap := m.outputMap.map (outputs + ·) }

lemma Mutation.behind_zero : Mutation.behind 0 0 = id := by
  funext m
  simp [behind]

namespace Definitions

/-- What was found, and behind it what was found elsewhere. -/
def append (d e : Definitions) : Definitions where
  outputMaps := d.outputMaps ++ e.outputMaps
  inputMaps := d.inputMaps ++ e.inputMaps
  argumentMaps := d.argumentMaps ++ e.argumentMaps
  fieldConfigs := d.fieldConfigs ++ e.fieldConfigs
  mutations := d.mutations ++ e.mutations.map (.behind d.inputMaps.length d.outputMaps.length)
  enumValues := d.enumValues ++ e.enumValues
  diagnostics := d.diagnostics ++ e.diagnostics

instance : Append Definitions := ⟨append⟩

lemma append_def (d e : Definitions) : d ++ e = d.append e := rfl

lemma append_assoc (d e f : Definitions) : d ++ e ++ f = d ++ (e ++ f) := by
  simp [append_def, append, Mutation.behind, Function.comp_def, Nat.add_assoc]

lemma append_empty (d : Definitions) : d ++ ({} : Definitions) = d := by
  simp [append_def, append]

lemma empty_append (d : Definitions) : ({} : Definitions) ++ d = d := by
  simp [append_def, append, Mutation.behind_zero]

lemma append_noted (d e : Definitions) (notes : List Diagnostic) :
    (d ++ e).noted notes = d ++ e.noted notes := by
  simp [append_def, append, noted]

/-- What was found in several places, one behind the other. -/
def concat : List Definitions → Definitions
  | [] => {}
  | d :: ds => d ++ concat ds

/-- The mutations found in several places, behind a number of maps.  The maps of
each place stand behind those of the places before it. -/
def mutationsBehind (inputs outputs : ℕ) : List Definitions → List Mutation
  | [] => []
  | d :: ds => d.mutations.map (.behind inputs outputs) ++
      mutationsBehind (inputs + d.inputMaps.length) (outputs + d.outputMaps.length) ds

/-- Everything that was found in several places, kind by kind in their order. -/
structure IsConcatOf (d : Definitions) (found : List Definitions) : Prop where
  outputMaps : d.outputMaps = found.flatMap (·.outputMaps)
  inputMaps : d.inputMaps = found.flatMap (·.inputMaps)
  argumentMaps : d.argumentMaps = found.flatMap (·.argumentMaps)
  fieldConfigs : d.fieldConfigs = found.flatMap (·.fieldConfigs)
  mutations : d.mutations = mutationsBehind 0 0 found
  enumValues : d.enumValues = found.flatMap (·.enumValues)
  diagnostics : d.diagnostics = found.flatMap (·.diagnostics)

lemma map_behind_mutationsBehind (inputs outputs inputs' outputs' : ℕ)
    (found : List Definitions) :
    (mutationsBehind inputs' outputs' found).map (.behind inputs outputs) =
      mutationsBehind (inputs + inputs') (outputs + outputs') found := by
  induction found generalizing inputs' outputs' with
  | nil => rfl
  | cons d ds ih =>
      rw [mutationsBehind, mutationsBehind, List.map_append, ih, Nat.add_assoc, Nat.add_assoc]
      simp [Mutation.behind, Function.comp_def, Nat.add_assoc]

lemma isConcatOf_concat (found : List Definitions) : (concat found).IsConcatOf found := by
  induction found with
  | nil => exact ⟨rfl, rfl, rfl, rfl, rfl, rfl, rfl⟩
  | cons d ds ih =>
      have happend {α : Type} (f : Definitions → List α) (h : f (concat ds) = ds.flatMap f)  :
          f d ++ f (concat ds) = (d :: ds).flatMap f := by
        rw [List.flatMap_cons, h]
      refine ⟨happend _ ih.outputMaps, happend _ ih.inputMaps, happend _ ih.argumentMaps,
        happend _ ih.fieldConfigs, ?_, happend _ ih.enumValues, happend _ ih.diagnostics⟩
      change d.mutations ++ (concat ds).mutations.map _ = _
      rw [ih.mutations, map_behind_mutationsBehind, mutationsBehind, Mutation.behind_zero,
        List.map_id, Nat.zero_add, Nat.zero_add, Nat.add_zero, Nat.add_zero]

end Definitions

namespace Locator

variable {setting : Setting} {α β : Type}

/-! ### Steps of the search -/

/-- A step of the search does behind what was found elsewhere what it does on its
own.  Its answer may have to be moved as well. -/
def MovesBehind (setting : Setting) (move : Definitions → α → α) (p : Search α) : Prop :=
  ∀ d e, p setting (d ++ e) = (p setting e).map fun r => (move d r.1, d ++ r.2)

/-- Such a step, with an answer that does not depend on what was found. -/
abbrev KeepsBehind (setting : Setting) (p : Search α) : Prop :=
  MovesBehind setting (fun _ => id) p

lemma keepsBehind_of_reports {P : α → Prop} {p : Search α} (h : Reports setting P p) :
    KeepsBehind setting p := by
  intro d e
  cases h with
  | stops error h => rw [h, h]; rfl
  | answers a notes _ h => rw [h, h, d.append_noted]; rfl

namespace MovesBehind

variable {move : Definitions → α → α} {move' : Definitions → β → β} {p : Search α}
  {next : α → Search β}

/-- A step that goes on with what another answered, moved as far as that was. -/
protected lemma bind (h : MovesBehind setting move p)
    (hnext : ∀ a d e, next (move d a) setting (d ++ e) =
      (next a setting e).map fun r => (move' d r.1, d ++ r.2)) :
    MovesBehind setting move' (p >>= next) := by
  intro d e
  rw [bind_apply, bind_apply, h]
  cases p setting e with
  | error error => rfl
  | ok r => exact hnext r.1 d r.2

protected lemma pure {a : α} : KeepsBehind setting (pure a) := fun _ _ => rfl

/-- A step that goes on with the setting. -/
protected lemma read {next : Setting → Search β} (h : MovesBehind setting move' (next setting)) :
    MovesBehind setting move' (read >>= next) := h

protected lemma discard (h : MovesBehind setting move p) : KeepsBehind setting (discard p) := by
  have hboth : KeepsBehind setting (p >>= fun _ => pure PUnit.unit) := h.bind fun _ _ _ => rfl
  exact hboth

end MovesBehind

/-- Whatever is added, apart from mutations, is added behind what was found
elsewhere. -/
lemma keepsBehind_add {a : Addition} (ha : ∀ m, a ≠ .mutation m) :
    KeepsBehind setting (modify fun d => d.add a) := by
  intro d e
  have hadd : (d ++ e).add a = d ++ e.add a := by
    cases a with
    | mutation m => exact absurd rfl (ha m)
    | _ => simp [Definitions.append_def, Definitions.append, Definitions.add]
  exact congrArg (fun f => Except.ok ((), f)) hadd

/-- The place of a map counts on from the maps that are there. -/
lemma movesBehind_addInputMap (found : FieldsSource) :
    MovesBehind setting (fun d => Option.map (d.inputMaps.length + ·)) (addInputMap found) := by
  have hadd (map : FieldMap) (d e : Definitions) :
      (some (d ++ e).inputMaps.length, (d ++ e).add (.inputMap map)) =
        (some (d.inputMaps.length + e.inputMaps.length), d ++ e.add (.inputMap map)) := by
    simp [Definitions.append_def, Definitions.append, Definitions.add]
  have hnote (span : Span) (d e : Definitions) (message : String) :=
    congrArg (fun f => Except.ok (ε := LocateError) ((none : Option ℕ), f))
      (d.append_noted e [.warning message span])
  intro d e
  cases found with
  | inline map => exact congrArg Except.ok (hadd map d e)
  | deferred map => exact congrArg Except.ok (hadd map d e)
  | reference name span => exact hnote span d e _
  | call callee span => exact hnote span d e _
  | unsupported span => exact hnote span d e _

lemma movesBehind_addOutputMap (found : FieldsSource) :
    MovesBehind setting (fun d => Option.map (d.outputMaps.length + ·)) (addOutputMap found) := by
  have hadd (map : FieldMap) (d e : Definitions) :
      (some (d ++ e).outputMaps.length, (d ++ e).add (.outputMap map)) =
        (some (d.outputMaps.length + e.outputMaps.length), d ++ e.add (.outputMap map)) := by
    simp [Definitions.append_def, Definitions.append, Definitions.add]
  have hnote (span : Span) (d e : Definitions) (message : String) :=
    congrArg (fun f => Except.ok (ε := LocateError) ((none : Option ℕ), f))
      (d.append_noted e [.warning message span])
  intro d e
  cases found with
  | inline map => exact congrArg Except.ok (hadd map d e)
  | deferred map => exact congrArg Except.ok (hadd map d e)
  | reference name span => exact hnote span d e _
  | call callee span => exact hnote span d e _
  | unsupported span => exact hnote span d e _

/-! ### Nodes -/

/-- What a property is read as comes with its place, if it is a map. -/
lemma movesBehind_linkMap {move : Definitions → Option ℕ → Option ℕ}
    (hmove : ∀ d, move d none = none) {add : FieldsSource → Search (Option ℕ)}
    (hadd : ∀ found, MovesBehind setting move (add found)) (kind : MapKind)
    (property : Option (Span × PropertyValue)) :
    MovesBehind setting move (linkMap add kind property) := by
  cases property with
  | none =>
      intro d e
      exact congrArg (fun place => Except.ok (place, d ++ e)) (hmove d).symm
  | some property =>
      exact (keepsBehind_of_reports (reports_fieldsSource kind property.2)).bind
        fun found => hadd found

lemma keepsBehind_mutationConfig (properties : List Node) (s : Span) :
    KeepsBehind setting (mutationConfig properties s) := by
  have hinput : MovesBehind setting _ _ := movesBehind_linkMap (fun _ => rfl)
    movesBehind_addInputMap .input (findProperty? setting.source "inputFields" properties)
  have houtput : MovesBehind setting _ _ := movesBehind_linkMap (fun _ => rfl)
    movesBehind_addOutputMap .output (findProperty? setting.source "outputFields" properties)
  intro d e
  rw [mutationConfig_eq]
  refine (hinput.bind fun input d e => ?_ : KeepsBehind setting _) d e
  rw [bind_apply, bind_apply, houtput]
  cases linkMap addOutputMap .output (findProperty? setting.source "outputFields" properties)
      setting e with
  | error error => rfl
  | ok r =>
      obtain ⟨output, f⟩ := r
      refine congrArg (fun f => Except.ok ((), f)) ?_
      simp [Definitions.append_def, Definitions.append, Definitions.add, Mutation.behind]

lemma keepsBehind_constructorCall (callee : Node) (arguments : List Node) (s : Span) :
    KeepsBehind setting (constructorCall callee arguments s) := by
  unfold constructorCall
  refine .read ?_
  split
  next => exact .pure
  next =>
    split
    next => exact .pure
    next kind property _ =>
      split
      next =>
        split
        next => exact keepsBehind_of_reports (P := fun _ => True) (.stop _)
        next value _ =>
          refine MovesBehind.bind (keepsBehind_of_reports (reports_fieldsSource kind value))
            fun found => ?_
          cases kind with
          | enumValues => exact keepsBehind_add (a := .enumValues found) fun _ h => by cases h
          | input => exact (movesBehind_addInputMap found).discard
          | output => exact (movesBehind_addOutputMap found).discard
          | arguments => exact (movesBehind_addOutputMap found).discard
      next => exact keepsBehind_of_reports (P := fun _ => True) (.stop _)

lemma keepsBehind_mutationHelperCall (callee : Node) (arguments : List Node) (s : Span) :
    KeepsBehind setting (mutationHelperCall callee arguments s) := by
  unfold mutationHelperCall
  refine .read ?_
  dsimp only
  split_ifs
  · split
    next => exact keepsBehind_mutationConfig _ _
    next => exact keepsBehind_of_reports (.warn _ _)
    next => exact keepsBehind_of_reports (.warn _ _)
  · exact .pure

lemma keepsBehind_typedDeclaration (name : String) (typing value : Node) :
    KeepsBehind setting (typedDeclaration name typing value) := by
  unfold typedDeclaration
  refine .read ?_
  split
  next => exact .pure
  next =>
    exact MovesBehind.bind (keepsBehind_of_reports (reports_thunkSource .output value))
      fun found => (movesBehind_addOutputMap found).discard
  next =>
    exact MovesBehind.bind (keepsBehind_of_reports (reports_thunkSource .input value))
      fun found => (movesBehind_addInputMap found).discard
  next =>
    split
    next properties s _ =>
      exact MovesBehind.bind (keepsBehind_of_reports (reports_fieldMap .arguments properties s))
        fun map => keepsBehind_add (a := .argumentMap map) fun _ => nofun
    next => exact keepsBehind_of_reports (.warn _ _)
  next =>
    split
    next properties s _ =>
      have hnew := wellKinded_passesOn.empty_config s
      have hconfig : KeepsBehind setting _ := keepsBehind_of_reports
        (reports_fieldConfig wellKinded_passesOn hnew properties)
      exact hconfig.bind
        fun config => keepsBehind_add (a := .fieldConfig ⟨name, config⟩) fun _ h => by cases h
    next => exact .pure
  next =>
    split
    next => exact keepsBehind_mutationConfig _ _
    next => exact keepsBehind_of_reports (.warn _ _)

/-- To visit a node does behind what was found elsewhere what it does on its
own. -/
lemma keepsBehind_visit (n : Node) : KeepsBehind setting (visit n) := by
  unfold visit
  split
  next => exact keepsBehind_constructorCall _ _ _
  next => exact keepsBehind_mutationHelperCall _ _ _
  next => exact keepsBehind_typedDeclaration _ _ _
  next => exact .pure

/-! ### Sites -/

/-- A node that defines something: a call of a recognised constructor or of a
mutation helper, or a variable with a value and a recognised type. -/
def isSite (v : Vocabulary) : Node → Bool
  | .construct callee _ _ _ => ((expressionName? callee).bind (constructorKind? v)).isSome
  | .call callee _ _ _ => (expressionName? callee).any v.mutationHelpers.contains
  | .declarator (.binding _ _ (some typing)) (some _) _ => (annotatedKind? v typing).isSome
  | _ => false

/-- What a node contributes on its own. -/
def analyse (setting : Setting) (n : Node) : Except LocateError Definitions :=
  (visit n setting {}).map Prod.snd

/-- A node that is no site contributes nothing. -/
lemma visit_of_not_isSite {n : Node} (h : isSite setting.vocabulary n = false) (d : Definitions) :
    visit n setting d = .ok ((), d) := by
  unfold isSite at h
  split at h
  next callee arguments types s =>
    change constructorCall callee arguments s setting d = _
    unfold constructorCall
    rw [read_apply]
    cases hname : expressionName? callee with
    | none => rfl
    | some name =>
        rw [hname, Option.bind_some, Option.isSome_eq_false_iff, Option.isNone_iff_eq_none] at h
        simp only [h]
        rfl
  next callee arguments types s =>
    change mutationHelperCall callee arguments s setting d = _
    unfold mutationHelperCall
    rw [read_apply, if_neg (by simp [h])]
    rfl
  next name s typing value t =>
    change typedDeclaration name typing value setting d = _
    unfold typedDeclaration
    rw [read_apply]
    rw [Option.isSome_eq_false_iff, Option.isNone_iff_eq_none] at h
    rw [h]
    rfl
  next hconstruct hcall hdeclarator =>
    unfold visit
    split
    next => exact absurd rfl (hconstruct _ _ _ _)
    next => exact absurd rfl (hcall _ _ _ _)
    next => exact absurd rfl (hdeclarator _ _ _ _ _)
    next => rfl

/-- A node is visited as it is analysed. -/
lemma visit_eq (n : Node) (d : Definitions) :
    visit n setting d = (analyse setting n).map fun found => ((), d ++ found) := by
  have h : visit n setting (d ++ {}) = _ := keepsBehind_visit n d {}
  rw [Definitions.append_empty] at h
  rw [h, analyse]
  cases visit n setting {} <;> rfl

/-- What a row of nodes adds is what the sites in it contribute on their own. -/
lemma visitAll_eq (ns : List Node) (d : Definitions) :
    ns.forM visit setting d = ((ns.filter (isSite setting.vocabulary)).mapM (analyse setting)).map
      fun found => ((), d ++ .concat found) := by
  induction ns generalizing d with
  | nil => exact congrArg (fun d => Except.ok ((), d)) d.append_empty.symm
  | cons n ns ih =>
      rw [List.forM_eq_forM, List.forM_cons, bind_apply]
      cases hsite : isSite setting.vocabulary n with
      | false =>
          rw [visit_of_not_isSite hsite, List.filter_cons_of_neg (by simp [hsite])]
          exact ih d
      | true =>
          rw [visit_eq, List.filter_cons_of_pos hsite, List.mapM_cons]
          cases analyse setting n with
          | error e => rfl
          | ok found =>
              change ns.forM visit setting (d ++ found) = _
              rw [ih]
              cases (ns.filter (isSite setting.vocabulary)).mapM (analyse setting) with
              | error e => rfl
              | ok later =>
                  exact congrArg (fun d => Except.ok ((), d)) (d.append_assoc found _)

/-! ### The whole search -/

/-- A search is made site by site. -/
lemma locate_eq (vocabulary : Vocabulary) (source : Source) :
    locate vocabulary source = ((source.script.preorder.filter (isSite vocabulary)).mapM
      (analyse ⟨source, vocabulary⟩)).map .concat := by
  change ((source.script.preorder.forM visit ⟨source, vocabulary⟩ {}).map Prod.snd) = _
  rw [visitAll_eq]
  cases List.mapM (analyse ⟨source, vocabulary⟩)
      (source.script.preorder.filter (isSite vocabulary)) with
  | error e => rfl
  | ok found => exact congrArg Except.ok (Definitions.concat found).empty_append

/-- To visit a node unless the search has failed before. -/
def visitFlagged (setting : Setting) : Definitions × Option LocateError → Node →
    Definitions × Option LocateError
  | (d, some e), _ => (d, some e)
  | (d, none), n =>
    match visit n setting d with
    | .ok (_, d) => (d, none)
    | .error e => (d, some e)

/-- How a search ends that goes on behind a failure. -/
def flaggedResult : Definitions × Option LocateError → Except LocateError Definitions
  | (d, none) => .ok d
  | (_, some e) => .error e

lemma foldl_visitFlagged_of_failed (d : Definitions) (e : LocateError) (ns : List Node) :
    ns.foldl (visitFlagged setting) (d, some e) = (d, some e) := by
  induction ns with
  | nil => rfl
  | cons _ _ ih => exact ih

/-- A row of visits that goes on behind a failure, but leaves everything as it is,
ends as one that stops there. -/
lemma forM_visit_eq_flagged (ns : List Node) (d : Definitions) :
    (ns.forM visit setting d).map Prod.snd =
      flaggedResult (ns.foldl (visitFlagged setting) (d, none)) := by
  induction ns generalizing d with
  | nil => rfl
  | cons n ns ih =>
      rw [List.forM_eq_forM, List.forM_cons, bind_apply, List.foldl_cons]
      cases hvisit : visit n setting d with
      | error e =>
          have hfailed : visitFlagged setting (d, none) n = (d, some e) := by
            simp only [visitFlagged, hvisit]
          rw [hfailed, foldl_visitFlagged_of_failed]
          rfl
      | ok r =>
          have hdone : visitFlagged setting (d, none) n = (r.2, none) := by
            simp only [visitFlagged, hvisit]
          rw [hdone]
          exact ih r.2

/-- A search may go on behind a failure, as long as it leaves everything as it is. -/
lemma locate_eq_flagged (vocabulary : Vocabulary) (source : Source) :
    locate vocabulary source = flaggedResult
      (source.script.preorder.foldl (visitFlagged ⟨source, vocabulary⟩) ({}, none)) :=
  forM_visit_eq_flagged source.script.preorder {}

/-- What is visited behind a node on which the search fails has no influence. -/
lemma forM_visit_of_error {visited : List Node} {n : Node} {e : LocateError}
    (hvisited : ∀ site ∈ visited.filter (isSite setting.vocabulary),
      ∃ d, analyse setting site = .ok d)
    (hn : analyse setting n = .error e) (rest : List Node) :
    (visited ++ n :: rest).forM visit setting {} = .error e := by
  have hsite : isSite setting.vocabulary n = true := by
    by_contra h
    rw [analyse, visit_of_not_isSite (Bool.eq_false_iff.mpr h)] at hn
    cases hn
  rw [visitAll_eq, List.filter_append, List.filter_cons_of_pos hsite, mapM_of_error hvisited hn]
  rfl

/-- The nodes below a node follow it. -/
lemma exists_eq_below_append {ns before after : List Node} {n : Node}
    (h : ns.flatMap Node.preorder = before ++ n :: after) :
    ∃ later, after = n.children.flatMap Node.preorder ++ later := by
  -- the forest to be visited: the nodes below the first, then the others
  induction before generalizing ns with
  | nil =>
      cases ns with
      | nil => cases h
      | cons m ns =>
          rw [List.flatMap_cons, Node.preorder_eq, List.cons_append, List.nil_append] at h
          obtain ⟨rfl, rfl⟩ := List.cons.inj h
          exact ⟨_, rfl⟩
  | cons b before ih =>
      cases ns with
      | nil => cases h
      | cons m ns =>
          rw [List.flatMap_cons, Node.preorder_eq, List.cons_append, List.cons_append] at h
          have hforest : (m.children ++ ns).flatMap Node.preorder = before ++ n :: after := by
            rw [List.flatMap_append, (List.cons.inj h).2]
          exact ih hforest

/-- **A search is the concatenation of its definition sites, or fails as the
first of them that fails.**  The sites are searched one by one, each on its own,
in the order of the visit: the sites inside a site come right behind it, before
all others.

If all of them succeed, so does the search, and it finds, kind by kind, what they
contribute in that order; the mutations refer to the maps of their own site.
Otherwise the search fails with the error of the first site that fails, and it
would whatever were visited behind that site.  A search that goes on to the last node,
but leaves everything as it is once it has failed, ends in the same way. -/
theorem locate_concatenates_sites (vocabulary : Vocabulary) (source : Source) :
    let setting : Setting := ⟨source, vocabulary⟩
    let sites := source.script.preorder.filter (isSite vocabulary)
    (∀ found, List.Forall₂ (fun site d => analyse setting site = .ok d) sites found →
      ∃ d, locate vocabulary source = .ok d ∧ d.IsConcatOf found) ∧
    (∀ before site after error, sites = before ++ site :: after →
      (∀ earlier ∈ before, ∃ d, analyse setting earlier = .ok d) →
      analyse setting site = .error error →
        locate vocabulary source = .error error ∧
        ∀ visited rest, visited.filter (isSite vocabulary) = before →
          (visited ++ site :: rest).forM visit setting {} = .error error) ∧
    (∀ before site after, sites = before ++ site :: after →
      ∃ later, after = (site.children.flatMap Node.preorder).filter (isSite vocabulary) ++
        later) ∧
    locate vocabulary source =
      flaggedResult (source.script.preorder.foldl (visitFlagged setting) ({}, none)) := by
  intro setting sites
  refine ⟨fun found hfound => ?_, fun before site after error hsites hbefore hsite => ⟨?_, ?_⟩,
    fun before site after hsites => ?_, locate_eq_flagged vocabulary source⟩
  · refine ⟨.concat found, ?_, Definitions.isConcatOf_concat found⟩
    rw [locate_eq, mapM_of_forall₂ hfound]
    rfl
  · rw [locate_eq]
    change (sites.mapM (analyse setting)).map _ = _
    rw [hsites, mapM_of_error hbefore hsite]
    rfl
  · rintro visited rest rfl
    exact forM_visit_of_error hbefore hsite rest
  · obtain ⟨_, behind, hpreorder, -, hbehind⟩ := List.filter_eq_append_iff.mp hsites
    obtain ⟨skipped, rest, rfl, -, -, rfl⟩ := List.filter_eq_cons_iff.mp hbehind
    rw [Script.Module.preorder, Node.preorderAll_eq_flatMap, ← List.append_assoc] at hpreorder
    obtain ⟨later, rfl⟩ := exists_eq_below_append hpreorder
    exact ⟨_, List.filter_append _ _⟩

end Locator

end GraphMigrate
