/-
What a script defines in another spelling.

* `longhand_is_read_alike_iff`: **properties in short define what they define written
  out**; the messages are the same as well, unless the arguments of a configuration are in
  short, which are passed over without a warning;
* `wrappers_are_transparent`: **expressions define in wrappers what they define without**,
  with the same messages, if the types that belong to the wrappers define nothing
  themselves.
-/
import GraphMigrate.Proofs.Definitions.TwoSearches

namespace GraphMigrate

open Script (Node Source)
open Locator (shortArguments skippingArguments)

namespace Spelling

/-- In the second source properties are written out that are in short in the first. -/
def writtenOut (before after : Source) (v : Vocabulary) : Spelling :=
  ⟨before, after, v, (· = .longhand)⟩

/-- In the second source expressions are wrapped that are not in the first. -/
def wrappedUp (before after : Source) (v : Vocabulary) : Spelling :=
  ⟨before, after, v, (· = .wrapper)⟩

/-- The second source is the first in another spelling. -/
def Relates (sp : Spelling) : Prop :=
  List.Forall₂ (Respelled sp) sp.before.script.items sp.after.script.items

end Spelling

variable {before after : Source} {v : Vocabulary}

/-! ### Properties in short -/

/-- **Properties in short define what they define written out.**  Whatever properties of object
literals are written out: both searches fail alike, or they find definitions that agree but for
places, the marks of the entries in short and labels that quote a change.

The messages agree one by one exactly if no configuration is read whose arguments were in short
and are written out: each of these leaves a warning that it did not leave before. -/
theorem longhand_is_read_alike_iff (h : (Spelling.writtenOut before after v).Relates) :
    let sp := Spelling.writtenOut before after v
    (∃ e e', locate v before = .error e ∧ locate v after = .error e' ∧
      e.anywhere = e'.anywhere) ∨
    ∃ d d' k, locate v before = .ok d ∧ locate v after = .ok d' ∧ d.Alike sp k d' ∧
      shortArguments sp.first = shortArguments sp.second + k ∧
      (List.Forall₂ (NoteAlike sp) d.diagnostics d'.diagnostics ↔
        shortArguments sp.first = shortArguments sp.second) := by
  intro sp
  obtain hstop | ⟨d, d', k, hd, hd', halike, hk⟩ := @Locator.agree_locate sp h
  · exact .inl hstop
  · refine .inr ⟨d, d', k, hd, hd', halike, by omega, ?_⟩
    rw [halike.notes.forall₂_iff]
    omega

/-- A variable that is declared as the configuration of a field. -/
def showConfig (text : String) (properties : List Node) (stop : ℕ) : Source :=
  ⟨text.toList, ⟨[.other [.declarator (.binding "show" ⟨6, 10⟩
    (some (.type (some ⟨"GraphQLFieldConfig", none⟩) [] ⟨12, 30⟩)))
    (some (.object properties ⟨33, stop⟩)) ⟨6, stop⟩] ⟨0, stop⟩]⟩⟩

lemma relates_showConfig {sp : Spelling} {text text' : String} {ns ns' : List Node}
    {stop stop' : ℕ} (hbefore : sp.before = showConfig text ns stop)
    (hafter : sp.after = showConfig text' ns' stop') (h : List.Forall₂ (Respelled sp) ns ns') :
    sp.Relates := by
  rw [Spelling.Relates, hbefore, hafter]
  have htyping : Option.Rel (Respelled sp) _ _ :=
    .some (.plain (.type (some ⟨"GraphQLFieldConfig", none⟩) ⟨12, 30⟩ ⟨12, 30⟩ .nil))
  exact .cons (.plain (.other _ _ (.cons (.plain (.declarator _ _
    (.plain (.binding _ _ _ htyping)) (.some (.plain (.object _ _ h))))) .nil))) .nil

/-- The type and the resolver in short. -/
def shortShow : Source := showConfig
  "const show: GraphQLFieldConfig = \x7b type, resolve \x7d"
  [.shorthand "type" ⟨35, 39⟩, .shorthand "resolve" ⟨41, 48⟩] 50

/-- They are written out. -/
def longShow : Source := showConfig
  "const show: GraphQLFieldConfig = \x7b type: type, resolve: resolve \x7d"
  [.keyed ⟨.name "type", ⟨35, 39⟩⟩ [] (.name "type" ⟨41, 45⟩),
    .keyed ⟨.name "resolve", ⟨47, 54⟩⟩ [] (.name "resolve" ⟨56, 63⟩)] 65

/-- The type and the resolver of a configuration may be in short. -/
theorem longShow_is_read_alike :
    (Spelling.writtenOut shortShow longShow {}).Relates ∧
    ∃ d d', locate {} shortShow = .ok d ∧ locate {} longShow = .ok d' ∧
      d.fieldConfigs.length = 1 ∧ d.Alike (Spelling.writtenOut shortShow longShow {}) 0 d' := by
  have hrelates : (Spelling.writtenOut shortShow longShow {}).Relates :=
    relates_showConfig rfl rfl
      (.cons (.plain (.longhand rfl _ _ _ _)) (.cons (.plain (.longhand rfl _ _ _ _)) .nil))
  have hcheck : (locate {} shortShow).toOption.any
      (fun d => d.fieldConfigs.length == 1) = true := by decide +kernel
  obtain ⟨d, hd, hlength⟩ := Option.any_eq_true _ _ |>.mp hcheck
  have hlocated := eq_ok_of_toOption hd
  have hshort : shortArguments (Spelling.writtenOut shortShow longShow {}).first = 0 := by
    decide +kernel
  obtain ⟨e, -, herror, -⟩ | ⟨found, found', k, hfound, hfound', halike, hk, -⟩ :=
    longhand_is_read_alike_iff hrelates
  · rw [hlocated] at herror
    cases herror
  · obtain rfl : k = 0 := by omega
    cases hlocated.symm.trans hfound
    exact ⟨hrelates, d, found', hfound, hfound', beq_iff_eq.mp hlength, halike⟩

/-- The arguments in short. -/
def shortArgumentsShow : Source := showConfig
  "const show: GraphQLFieldConfig = \x7b args \x7d" [.shorthand "args" ⟨35, 39⟩] 41

/-- They are written out. -/
def longArgumentsShow : Source := showConfig
  "const show: GraphQLFieldConfig = \x7b args: args \x7d"
  [.keyed ⟨.name "args", ⟨35, 39⟩⟩ [] (.name "args" ⟨41, 45⟩)] 47

/-- Arguments in short are passed over without the warning that they leave written out. -/
theorem arguments_in_short_leave_no_warning :
    let sp := Spelling.writtenOut shortArgumentsShow longArgumentsShow {}
    sp.Relates ∧ ∃ d d', locate {} sp.before = .ok d ∧ locate {} sp.after = .ok d' ∧
      d.diagnostics = [] ∧ d'.diagnostics = [.warning skippingArguments ⟨41, 45⟩] ∧
      ¬ List.Forall₂ (NoteAlike sp) d.diagnostics d'.diagnostics := by
  intro sp
  have hcheck : (locate {} shortArgumentsShow).toOption.any
      (fun d => decide (d.diagnostics = [])) = true := by decide +kernel
  have hcheck' : (locate {} longArgumentsShow).toOption.any (fun d =>
      decide (d.diagnostics = [.warning skippingArguments ⟨41, 45⟩])) = true := by decide +kernel
  obtain ⟨d, hd, hnotes⟩ := Option.any_eq_true _ _ |>.mp hcheck
  obtain ⟨d', hd', hnotes'⟩ := Option.any_eq_true _ _ |>.mp hcheck'
  rw [decide_eq_true_eq] at hnotes hnotes'
  refine ⟨relates_showConfig rfl rfl (.cons (.plain (.longhand rfl _ _ _ _)) .nil), d, d',
    eq_ok_of_toOption hd, eq_ok_of_toOption hd', hnotes, hnotes', ?_⟩
  rw [hnotes, hnotes']
  exact nofun

/-! ### Wrappers -/

/-- **Expressions define in wrappers what they define without.**  Whatever expressions are
wrapped, at any depth and in any nesting: both searches fail alike, or they find definitions
that agree but for places and labels that quote a change, and their messages agree one by
one. -/
theorem wrappers_are_transparent (h : (Spelling.wrappedUp before after v).Relates) :
    let sp := Spelling.wrappedUp before after v
    (∃ e e', locate v before = .error e ∧ locate v after = .error e' ∧
      e.anywhere = e'.anywhere) ∨
    ∃ d d', locate v before = .ok d ∧ locate v after = .ok d' ∧ d.Alike sp 0 d' ∧
      List.Forall₂ (NoteAlike sp) d.diagnostics d'.diagnostics := by
  intro sp
  obtain hstop | ⟨d, d', k, hd, hd', halike, -⟩ := @Locator.agree_locate sp h
  · exact .inl hstop
  · have hk : k = 0 := halike.notes.eq_zero nofun
    subst hk
    exact .inr ⟨d, d', hd, hd', halike, halike.notes.forall₂_iff.mpr rfl⟩

/-- Arguments that are a name. -/
def plainShow : Source := showConfig
  "const show: GraphQLFieldConfig = \x7b args: y \x7d"
  [.keyed ⟨.name "args", ⟨35, 39⟩⟩ [] (.name "y" ⟨41, 42⟩)] 44

/-- The name in a cast. -/
def castName : Node :=
  .wrapped .cast (.name "y" ⟨42, 43⟩) [.type (some ⟨"T", none⟩) [] ⟨47, 48⟩] ⟨42, 48⟩

/-- The name in three wrappers. -/
def wrappedShow : Source := showConfig
  "const show: GraphQLFieldConfig = \x7b args: (y as T)! \x7d"
  [.keyed ⟨.name "args", ⟨35, 39⟩⟩ []
    (.wrapped .nonNull (.wrapped .parentheses castName [] ⟨41, 49⟩) [] ⟨41, 50⟩)] 52

/-- The arguments of a configuration may be wrapped. -/
theorem wrappedShow_is_read_alike :
    let sp := Spelling.wrappedUp plainShow wrappedShow {}
    sp.Relates ∧ ∃ d d', locate {} plainShow = .ok d ∧ locate {} wrappedShow = .ok d' ∧
      d.diagnostics = [.warning skippingArguments ⟨41, 42⟩] ∧ d.Alike sp 0 d' ∧
      List.Forall₂ (NoteAlike sp) d.diagnostics d'.diagnostics := by
  intro sp
  have hcast : Respelled sp (.name "y" ⟨41, 42⟩) castName :=
    .wrapped rfl rfl (by decide +kernel) _ _ (.plain (.name _ _ _))
  have hparentheses : Respelled sp (.name "y" ⟨41, 42⟩)
      (.wrapped .parentheses castName [] ⟨41, 49⟩) :=
    .wrapped rfl rfl (List.forall_mem_nil _) _ _ hcast
  have hvalue : Respelled sp (.name "y" ⟨41, 42⟩)
      (.wrapped .nonNull (.wrapped .parentheses castName [] ⟨41, 49⟩) [] ⟨41, 50⟩) :=
    .wrapped rfl rfl (List.forall_mem_nil _) _ _ hparentheses
  have hkey (source : Source) : source.keyName? ⟨.name "args", ⟨35, 39⟩⟩ = some "args" := rfl
  have hrelates : sp.Relates := relates_showConfig rfl rfl
    (.cons (.plain (.keyed ((hkey _).trans (hkey _).symm) .nil hvalue)) .nil)
  have hcheck : (locate {} plainShow).toOption.any (fun d =>
      decide (d.diagnostics = [.warning skippingArguments ⟨41, 42⟩])) = true := by decide +kernel
  obtain ⟨d, hd, hnotes⟩ := Option.any_eq_true _ _ |>.mp hcheck
  have hlocated := eq_ok_of_toOption hd
  obtain ⟨e, -, herror, -⟩ | ⟨found, found', hfound, hfound', halike, hall⟩ :=
    wrappers_are_transparent hrelates
  · rw [hlocated] at herror
    cases herror
  · cases hlocated.symm.trans hfound
    exact ⟨hrelates, d, found', hfound, hfound', decide_eq_true_eq.mp hnotes, halike, hall⟩

/-- A type in which a mutation is defined. -/
def definingType : Node :=
  .type none [.other [.call (.name "mutationWithClientMutationId" ⟨49, 77⟩)
    [.object [] ⟨78, 80⟩] [] ⟨49, 81⟩, .type none [] ⟨84, 87⟩] ⟨48, 87⟩] ⟨46, 89⟩

/-- The name in a cast to that type. -/
def castShow : Source := showConfig
  ("const show: GraphQLFieldConfig = \x7b args: y as " ++
    "\x7b [mutationWithClientMutationId(\x7b\x7d)]: any \x7d \x7d")
  [.keyed ⟨.name "args", ⟨35, 39⟩⟩ []
    (.wrapped .cast (.name "y" ⟨41, 42⟩) [definingType] ⟨41, 89⟩)] 91

/-- What is defined in the type of a cast is found. -/
theorem definition_in_type_is_found :
    ∃ d d', locate {} plainShow = .ok d ∧ locate {} castShow = .ok d' ∧
      d.mutations.length = 0 ∧ d'.mutations.length = 1 := by
  have hcheck : (locate {} plainShow).toOption.any (fun d => d.mutations.length == 0) = true := by
    decide +kernel
  have hcheck' : (locate {} castShow).toOption.any (fun d => d.mutations.length == 1) = true := by
    decide +kernel
  obtain ⟨d, hd, hnone⟩ := Option.any_eq_true _ _ |>.mp hcheck
  obtain ⟨d', hd', hone⟩ := Option.any_eq_true _ _ |>.mp hcheck'
  exact ⟨d, d', eq_ok_of_toOption hd, eq_ok_of_toOption hd', beq_iff_eq.mp hnone,
    beq_iff_eq.mp hone⟩

end GraphMigrate
