/-
What pruning takes out of a script.

Only what is deprecated goes.  An entry goes with white space beside it and the
comma behind it, a configuration gives way to empty braces, and all the rest of
the script is kept in its order.  A removal ends in filler, so it does not reach
into code that stands beside the entry or around it.

* `Stretch.stays_out`, `Extends.placed`: what goes along with an entry is filler,
  so nothing of the code beside the entry or around it goes;
* `Definitions.Prunes`: what may become of a deprecated part;
* `pruneDeprecated_takes_deprecated_parts_only`: **pruning takes deprecated
  parts, their separators and nothing else**.
-/
import GraphMigrate.Proofs.Migration.Deprecation
import GraphMigrate.Proofs.Text.Apart

namespace GraphMigrate

/-! ### What a removal leaves alone -/

/-- A character that is no filler and stands outside of a span still stands outside
of it once the span is stretched over filler. -/
lemma Stretch.stays_out {p : Stretch} (hp : p.IsModest) {before after : List Char} {c : Char}
    (htext : p.text = before ++ c :: after) (hc : isFiller c = false) :
    (p.inner.stop ≤ byteLength before → p.outer.stop ≤ byteLength before) ∧
      (byteLength (before ++ [c]) ≤ p.inner.start →
        byteLength (before ++ [c]) ≤ p.outer.start) := by
  constructor
  · intro hle
    obtain ⟨mid, rfl, hbehind⟩ := exists_append_of_le (a := p.upTo) (b := p.tail ++ p.post)
      (c := before) (d := c :: after) (by simpa [text, upTo] using htext) hle
    rw [← List.singleton_append] at hbehind
    obtain ⟨gap, rfl⟩ := exists_append_of_run hbehind hp.tail ⟨c, rfl, hc⟩
    rw [outer_stop, byteLength_append, byteLength_append, byteLength_append]
    omega
  · intro hle
    obtain ⟨mid, hmid, -⟩ := exists_append_of_le (a := before ++ [c]) (b := after)
      (c := p.pre ++ p.front) (d := p.inside ++ p.tail ++ p.post)
      (by simpa [text] using htext.symm) hle
    obtain ⟨gap, hpre, -⟩ := exists_append_of_run_before hmid hp.front
      ⟨c, List.getLast?_concat, hc⟩
    rw [outer_start, hpre, byteLength_append (before ++ [c])]
    omega

/-- A boundary behind the place before a character lies behind the character. -/
lemma IsBoundary.behind {before after : List Char} {c : Char} {offset : ℕ}
    (h : IsBoundary (before ++ c :: after) offset) (hlt : byteLength before < offset) :
    byteLength (before ++ [c]) ≤ offset := by
  obtain ⟨front, back, htext, rfl⟩ := h
  obtain ⟨m, rfl, hm⟩ := exists_append_of_le htext hlt.le
  cases m with
  | nil => simp at hlt
  | cons d m =>
      rw [List.cons_append, List.cons.injEq] at hm
      simp only [byteLength_append, byteLength, ← hm.1]
      omega

/-- A stretched span stays beside code that the span stands beside, and inside
code that the span stands inside of. -/
lemma Extends.placed {text : List Char} {s r t : Span} (hr : Extends text s r)
    (ht : t.IsSolid text)
    (hplace : s.stop ≤ t.start ∨ t.stop ≤ s.start ∨ t.start < s.start ∧ s.stop < t.stop) :
    r.stop ≤ t.start ∨ t.stop ≤ r.start ∨ r.Within t := by
  obtain ⟨p, rfl, rfl, rfl, hp⟩ := hr
  obtain ⟨code, hcode, ⟨c, hc, hcfiller⟩, ⟨d, hd, hdfiller⟩⟩ := ht.exists_slice
  obtain ⟨before, after, htext, hstart, hstop⟩ := slice?_eq_some_iff.mp hcode
  obtain ⟨code', rfl⟩ := List.head?_eq_some_iff.mp hc
  obtain ⟨body, hbody⟩ := List.getLast?_eq_some_iff.mp hd
  -- the first and the last character of the code
  have hfirst : p.text = before ++ c :: (code' ++ after) := by
    rw [htext]
    simp
  have hlast : p.text = (before ++ body) ++ d :: after := by
    rw [htext, hbody]
    simp
  have hend : t.stop = byteLength (before ++ body ++ [d]) := by
    rw [hstop, hbody, List.append_assoc, byteLength_append before]
  rcases hplace with hle | hle | ⟨hlt, hlt'⟩
  · exact Or.inl (hstart ▸ (p.stays_out hp hfirst hcfiller).1 (hstart ▸ hle))
  · refine Or.inr (Or.inl ?_)
    rw [hend]
    exact (p.stays_out hp hlast hdfiller).2 (hend ▸ hle)
  · refine Or.inr (Or.inr ⟨?_, ?_⟩)
    · have hinner : IsBoundary p.text p.inner.start :=
        ⟨p.pre ++ p.front, p.inside ++ p.tail ++ p.post, by simp [Stretch.text], rfl⟩
      rw [hfirst] at hinner
      have := (p.stays_out hp hfirst hcfiller).2 (hinner.behind (hstart ▸ hlt))
      rw [byteLength_append] at this
      omega
    · have hinner : p.inner.stop ≤ byteLength (before ++ body) := by
        by_contra hnot
        have hbound : IsBoundary p.text p.inner.stop :=
          ⟨p.upTo, p.tail ++ p.post, by simp [Stretch.text, Stretch.upTo], rfl⟩
        rw [hlast] at hbound
        have := hbound.behind (Nat.lt_of_not_le hnot)
        omega
      have := (p.stays_out hp hlast hdfiller).1 hinner
      rw [hend, byteLength_append]
      omega

/-! ### Deprecated parts -/

/-- The spans of the deprecated entries of a map. -/
def FieldMap.deprecatedSpans (map : FieldMap) : List Span :=
  (map.fields.filter (·.value.isDeprecated)).map (·.span)

namespace Definitions

/-- The spans of the deprecated entries of output maps and of the deprecated
values of enums. -/
def deprecatedEntrySpans (d : Definitions) : List Span :=
  d.outputMaps.flatMap (·.deprecatedSpans)
    ++ d.enumValues.flatMap fun source => source.map?.toList.flatMap (·.deprecatedSpans)

/-- The spans of the deprecated configurations that are variables. -/
def deprecatedConfigSpans (d : Definitions) : List Span :=
  (d.fieldConfigs.filter (·.config.deprecated)).map (·.config.span)

/-- What may become of a deprecated part of a text.  A configuration gives way to
empty braces.  An entry goes, and with it white space in front of it on its line,
one comma behind it, spaces and tabs around that comma, and a line end. -/
inductive Prunes (text : List Char) (d : Definitions) : Target → Prop
  | emptied {config : Span} : config ∈ d.deprecatedConfigSpans →
      Prunes text d ⟨config, .replace config "\x7b\x7d"⟩
  | removed {p : Stretch} : p.text = text → p.inner ∈ d.deprecatedEntrySpans → p.IsRemoval →
      Prunes text d ⟨p.inner, .replace p.outer ""⟩

variable {text : List Char} {d : Definitions}

/-- The deprecated entries and configurations are all that is pruned, entries with
what goes along with them. -/
lemma prunes_of_mem (hbounds : ∀ s ∈ d.deprecatedEntrySpans, (s.slice? text).isSome) {p : Target}
    (h : p ∈ d.deprecatedTargets text) : d.Prunes text p := by
  have hremoved {map : FieldMap} (hmap : ∀ s ∈ map.deprecatedSpans, s ∈ d.deprecatedEntrySpans)
      (hp : p ∈ map.deprecatedTargets text) : d.Prunes text p := by
    obtain ⟨f, hf, rfl⟩ := List.mem_map.mp hp
    have hspan := hmap f.span (List.mem_map_of_mem hf)
    obtain ⟨q, hq, hinner, houter, hremoval⟩ := exists_isRemoval (hbounds _ hspan)
    rw [Target.removal, removeEntry, ← houter, ← hinner]
    exact .removed hq (hinner ▸ hspan) hremoval
  rw [deprecatedTargets, List.mem_append, List.mem_append] at h
  rcases h with (h | h) | h
  · obtain ⟨map, hmap, hp⟩ := List.mem_flatMap.mp h
    exact hremoved (fun s hs => List.mem_append_left _ (List.mem_flatMap.mpr ⟨map, hmap, hs⟩)) hp
  · obtain ⟨c, hc, rfl⟩ := List.mem_map.mp h
    exact .emptied (List.mem_map_of_mem hc)
  · obtain ⟨source, hsource, hp⟩ := List.mem_flatMap.mp h
    obtain ⟨map, hmap, hp⟩ := List.mem_flatMap.mp hp
    refine hremoved (fun s hs => List.mem_append_right _ ?_) hp
    exact List.mem_flatMap.mpr ⟨source, hsource, List.mem_flatMap.mpr ⟨map, hmap, hs⟩⟩

namespace Prunes

variable {p : Target}

/-- The edit for a part covers it. -/
lemma covers (h : d.Prunes text p) : p.span.Within p.edit.span := by
  cases h with
  | emptied _ => exact .refl _
  | @removed q _ _ hq =>
      have hext : Extends q.text q.inner q.outer := ⟨q, rfl, rfl, rfl, hq.isModest⟩
      exact ⟨hext.start_le, hext.le_stop⟩

/-- Code that a part stands beside, or inside of, is not reached by its edit, or
covers it. -/
lemma placed (h : d.Prunes text p) {t : Span} (ht : t.IsSolid text)
    (hplace : p.span.stop ≤ t.start ∨ t.stop ≤ p.span.start ∨
      t.start < p.span.start ∧ p.span.stop < t.stop) :
    p.edit.span.stop ≤ t.start ∨ t.stop ≤ p.edit.span.start ∨ p.edit.span.Within t := by
  cases h with
  | emptied _ => exact hplace.imp_right (Or.imp_right fun h => ⟨h.1.le, h.2.le⟩)
  | @removed q htext _ hq =>
      exact Extends.placed ⟨q, htext, rfl, rfl, hq.isModest⟩ ht hplace

/-- What is pruned is a deprecated entry or a deprecated configuration. -/
lemma span_mem (h : d.Prunes text p) :
    p.span ∈ d.deprecatedEntrySpans ++ d.deprecatedConfigSpans := by
  cases h with
  | emptied hmem => exact List.mem_append_right _ hmem
  | removed _ hmem _ => exact List.mem_append_left _ hmem

end Prunes

end Definitions

/-! ### The pruned script -/

/-- The edits that a batch applies are those of some of its targets. -/
lemma exists_targets_of_appliedEdits (text : List Char) (targets : List Target) :
    ∃ applied : List Target, Target.edits applied = appliedEdits text (Target.edits targets) ∧
      ∀ p ∈ applied, p ∈ targets := by
  have hmem : ∀ e ∈ appliedEdits text (Target.edits targets), ∃ p ∈ targets, p.edit = e := by
    intro e he
    obtain ⟨i, hi⟩ := mem_appliedEdits_iff.mp he
    obtain ⟨p, hp, hedit⟩ := Target.exists_of_mem_selected hi
    exact ⟨p, List.mem_of_getElem? hp, hedit⟩
  generalize appliedEdits text (Target.edits targets) = edits at hmem
  induction edits with
  | nil => exact ⟨[], rfl, by simp⟩
  | cons e edits ih =>
      obtain ⟨p, hp, rfl⟩ := hmem e List.mem_cons_self
      obtain ⟨applied, rfl, hall⟩ := ih fun f hf => hmem f (List.mem_cons_of_mem _ hf)
      exact ⟨p :: applied, rfl, by simpa [hp] using hall⟩

/-- **Pruning takes deprecated parts, their separators and nothing else.**  The
pruned script is the script with some deprecated configurations replaced by empty
braces and some deprecated entries removed, each with white space beside it and
one comma behind it, and with all the rest kept in its order.  Whatever code stands
beside these parts or around them, like an entry without a reason, a spread or an
entry with a computed key, is found again, changed by the parts inside it alone. -/
theorem pruneDeprecated_takes_deprecated_parts_only (context : Context) {file : SourceFile}
    {d : Definitions} {outcome : Outcome}
    (hlocated : file.definitions context.vocabulary = .ok d)
    (hbounds : ∀ s ∈ d.deprecatedEntrySpans, (s.slice? file.chars).isSome)
    (hok : pruneDeprecated context file = .ok outcome) :
    ∃ pruned : List Target, (∀ p ∈ pruned, d.Prunes file.chars p) ∧
      (Target.edits pruned).Pairwise Edit.EndsBefore ∧
      Patched 0 file.chars (Target.edits pruned) outcome.text.toList ∧
      ∀ t : Span, t.IsSolid file.chars →
        (∀ p ∈ pruned, p.span.stop ≤ t.start ∨ t.stop ≤ p.span.start ∨
          t.start < p.span.start ∧ p.span.stop < t.stop) →
        ∃ inner, KeptAround file.chars (Target.edits pruned) outcome.text.toList t inner ∧
          ∀ e ∈ inner, ∃ p ∈ pruned, p.edit = e ∧ p.span.Within t := by
  obtain ⟨pruned, hedits, hmem⟩ :=
    exists_targets_of_appliedEdits file.chars (d.deprecatedTargets file.chars)
  have hprunes : ∀ p ∈ pruned, d.Prunes file.chars p := fun p hp =>
    Definitions.prunes_of_mem hbounds (hmem p hp)
  have hpatched : Patched 0 file.chars (Target.edits pruned) outcome.text.toList := by
    rw [text_of_pruneDeprecated context hlocated hok, applyEdits_text, hedits]
    exact (laid_appliedEdits _ _).patched
  refine ⟨pruned, hprunes, hedits ▸ pairwise_appliedEdits _ _, hpatched, fun t ht hplace => ?_⟩
  obtain ⟨inner, hkept⟩ := hpatched.exists_keptAround ht.isSome_slice? (fun e he => by
    obtain ⟨p, hp, rfl⟩ := List.mem_map.mp he
    exact (hprunes p hp).placed ht (hplace p hp))
  refine ⟨inner, hkept, fun e he => ?_⟩
  obtain ⟨left, right, before, code, after, front, kept, back, hsplit, -, hspan, -, -, hinner, -⟩ :=
    hkept
  have hmem : e ∈ Target.edits pruned := by
    rw [hsplit]
    simp [he]
  obtain ⟨p, hp, rfl⟩ := List.mem_map.mp hmem
  -- the part lies in its edit, and the edit in the code
  obtain ⟨hfrom, hupTo⟩ := hinner.within p.edit he
  refine ⟨p, hp, rfl, (hprunes p hp).covers.trans ⟨hfrom, ?_⟩⟩
  rw [hspan] at hupTo ⊢
  rwa [byteLength_append]

/-- Deprecated parts beside a spread and a computed key and inside an entry without
a reason. -/
def prunedBesideKept : SourceFile where
  text := "new GraphQLObjectType(\x7b fields: \x7b\n" ++
    "  ...all,\n" ++
    "  [key]: \x7b\x7d,\n" ++
    "  old: \x7b deprecationReason: \"a\" \x7d, // gone\n" ++
    "  kept: \x7b type: new GraphQLObjectType(\x7b fields: \x7b\n" ++
    "    inner: \x7b deprecationReason: \"b\" \x7d,\n" ++
    "  \x7d \x7d) \x7d,\n" ++
    "\x7d \x7d)\n" ++
    "const c: GraphQLFieldConfig = \x7b deprecationReason: \"c\" \x7d\n"
  language := .typeScript

/-- The spread, the entry with the computed key and the entry around a deprecated
one stay where they are. -/
theorem pruneDeprecated_keeps_spread_computed_key_and_outer_entry :
    ∃ d outcome, prunedBesideKept.definitions {} = .ok d ∧
      pruneDeprecated {} prunedBesideKept = .ok outcome ∧
      d.deprecatedEntrySpans.length = 2 ∧ d.deprecatedConfigSpans.length = 1 ∧
      ∃ pruned : List Target, (∀ p ∈ pruned, d.Prunes prunedBesideKept.chars p) ∧
        Patched 0 prunedBesideKept.chars (Target.edits pruned) outcome.text.toList ∧
        ∀ t ∈ [Span.mk 36 42, Span.mk 46 55, Span.mk 102 197],
          ∃ inner, KeptAround prunedBesideKept.chars (Target.edits pruned) outcome.text.toList t
            inner ∧ ∀ e ∈ inner, ∃ p ∈ pruned, p.edit = e ∧ p.span.Within t := by
  have hcheck : (pruneParts? prunedBesideKept).any (fun p =>
      decide ((∀ s ∈ p.1.deprecatedEntrySpans, (s.slice? prunedBesideKept.chars).isSome) ∧
        p.1.deprecatedEntrySpans.length = 2 ∧ p.1.deprecatedConfigSpans.length = 1 ∧
        ∀ t ∈ [Span.mk 36 42, Span.mk 46 55, Span.mk 102 197],
          t.IsSolid prunedBesideKept.chars ∧
          ∀ s ∈ p.1.deprecatedEntrySpans ++ p.1.deprecatedConfigSpans,
            s.stop ≤ t.start ∨ t.stop ≤ s.start ∨ t.start < s.start ∧ s.stop < t.stop)) = true := by
    decide +kernel
  obtain ⟨⟨d, outcome⟩, hparts, hholds⟩ := Option.any_eq_true _ _ |>.mp hcheck
  obtain ⟨hbounds, hentries, hconfigs, hplaced⟩ := of_decide_eq_true hholds
  obtain ⟨hlocated, hok⟩ := pruneParts?_eq_some hparts
  obtain ⟨pruned, hprunes, -, hpatched, hkept⟩ :=
    pruneDeprecated_takes_deprecated_parts_only {} hlocated hbounds hok
  refine ⟨d, outcome, hlocated, hok, hentries, hconfigs, pruned, hprunes, hpatched,
    fun t ht => hkept t (hplaced t ht).1 fun p hp => ?_⟩
  exact (hplaced t ht).2 p.span (hprunes p hp).span_mem

end GraphMigrate
