/-
Several entries removed at once.

A removal takes an entry, and of what stands around it no more than filler: one
comma, and one line end where the entry is the first of its line.  Of two entries
with a comma between them the first takes that comma at most up to the end of its
line, and what the second takes in front begins behind that comma and on a line
of its own.

* `Stretch.IsRemoval.count_le`: commas and line feeds that go with an entry;
* `Parted`: entries with a comma between them;
* `Parted.removalSpan_before`: what goes with the first ends before what goes with
  the second begins;
* `skipped_removals`: removals of parted entries are all applied;
* `removal_takes_filler_and_removals_stay_apart`: **a removal takes an entry and
  its separators only, and two removals never collide**.
-/
import GraphMigrate.Proofs.Rewriting.RemovalSpan
import GraphMigrate.Proofs.Text.Apart

namespace GraphMigrate

/-! ### One removal -/

namespace Stretch.IsRemoval

variable {p : Stretch}

lemma comma_notMem_front (h : p.IsRemoval) : ',' ∉ p.front := fun hmem =>
  absurd (h.front _ hmem) (by decide)

lemma newline_notMem_front (h : p.IsRemoval) : '\n' ∉ p.front := by
  by_cases hne : p.front = []
  · simp [hne]
  · exact (h.beginsLine hne).2

lemma count_tail_le (h : p.IsRemoval) : p.tail.count ',' ≤ 1 ∧ p.tail.count '\n' ≤ 1 := by
  obtain ⟨gap, comma, gap', ending, htail, hgaps, hcomma, hending⟩ := h.tail
  have hnone {mark : Char} (hmark : isInlineBlank mark = false) :
      gap.count mark = 0 ∧ gap'.count mark = 0 := by
    constructor <;> refine List.count_eq_zero.mpr fun hmem => ?_
    · simp [hgaps mark (List.mem_append_left _ hmem)] at hmark
    · simp [hgaps mark (List.mem_append_right _ hmem)] at hmark
  obtain ⟨hgap, hgap'⟩ := @hnone ',' (by decide)
  obtain ⟨hline, hline'⟩ := @hnone '\n' (by decide)
  simp only [htail, List.count_append, hgap, hgap', hline, hline']
  rcases hcomma with rfl | rfl <;> rcases hending with rfl | rfl | rfl <;> decide

/-- At most one comma goes with an entry, and at most one line end. -/
lemma count_le (h : p.IsRemoval) :
    (p.front ++ p.tail).count ',' ≤ 1 ∧ (p.front ++ p.tail).count '\n' ≤ 1 := by
  rw [List.count_append, List.count_append, List.count_eq_zero.mpr h.comma_notMem_front,
    List.count_eq_zero.mpr h.newline_notMem_front, Nat.zero_add, Nat.zero_add]
  exact h.count_tail_le

end Stretch.IsRemoval

/-! ### Two removals -/

/-- The first entry ends before a comma, and behind that comma begins the second,
with a character that is neither white space nor a comma. -/
structure Parted (text : List Char) (s t : Span) : Prop where
  comma : ∃ offset, s.stop ≤ offset ∧ offset < t.start ∧ (restFrom offset text).head? = some ','
  begins : ∃ c, (restFrom t.start text).head? = some c ∧ isFiller c = false

/-- A character at an offset parts the text in what stands before and behind. -/
lemma exists_append_of_head?_restFrom {offset : ℕ} {text : List Char} {c : Char}
    (h : (restFrom offset text).head? = some c) :
    ∃ before after, text = before ++ c :: after ∧ byteLength before = offset := by
  rw [restFrom] at h
  rcases hcut : cutAt? offset text with - | ⟨before, rest⟩
  · simp [hcut] at h
  · obtain ⟨htext, hlength⟩ := cutAt?_eq_some_iff.mp hcut
    rw [hcut] at h
    obtain ⟨after, hrest⟩ := List.head?_eq_some_iff.mp h
    exact ⟨before, after, by rw [← htext, ← hrest]; rfl, hlength⟩

/-- Between parted entries stands all that goes behind the first, and a comma
before all that goes in front of the second. -/
lemma Parted.exists_between {p q : Stretch} (hp : p.IsRemoval) (hq : q.IsRemoval)
    (htext : q.text = p.text) (h : Parted p.text p.inner q.inner) :
    ∃ m k gap, q.pre = p.upTo ++ m ++ [','] ++ k ∧
      p.tail ++ gap = m ++ [','] ++ k ++ q.front := by
  obtain ⟨⟨offset, hs, ht, hcomma⟩, d, hd, hnot⟩ := h
  obtain ⟨before, after, hbefore, rfl⟩ := exists_append_of_head?_restFrom hcomma
  have hq' : q.pre ++ q.front ++ (q.inside ++ q.tail ++ q.post) = p.text := by
    rw [← htext, Stretch.text]
    simp only [List.append_assoc]
  have hp' : p.upTo ++ (p.tail ++ p.post) = p.text := by simp [Stretch.text, Stretch.upTo]
  -- the comma stands behind the first entry and before the second
  obtain ⟨m, rfl, hm⟩ := exists_append_of_le (hp'.trans hbefore) hs
  have hlt : byteLength (p.upTo ++ m ++ [',']) ≤ byteLength (q.pre ++ q.front) := by
    rw [byteLength_append]
    exact ht
  obtain ⟨n, hn, hafter⟩ := exists_append_of_le (b := after)
    (by rw [hq', hbefore, List.append_assoc (p.upTo ++ m), List.singleton_append]) hlt
  -- in front of the second no comma goes
  obtain ⟨k, hpre, rfl⟩ := exists_append_of_run_before hn hq.front
    ⟨',', List.getLast?_concat, by decide⟩
  -- and behind the first only filler
  rw [← hq', Stretch.inner_start, restFrom_append] at hd
  have hrun : p.tail ++ p.post =
      m ++ [','] ++ k ++ q.front ++ (q.inside ++ q.tail ++ q.post ++ []) := by
    rw [hm, hafter]
    simp
  obtain ⟨gap, hgap⟩ := exists_append_of_run hrun hp.isModest.tail ⟨d, hd, hnot⟩
  exact ⟨m, k, gap, hpre, hgap.symm⟩

/-- What goes with the first of two parted entries ends before what goes with the
second begins. -/
lemma Parted.outer_before {p q : Stretch} (hp : p.IsRemoval) (hq : q.IsRemoval)
    (htext : q.text = p.text) (h : Parted p.text p.inner q.inner) :
    p.outer.stop ≤ q.outer.start ∧ p.outer.start < q.outer.start := by
  obtain ⟨m, k, gap, hpre, hgap⟩ := h.exists_between hp hq htext
  have hstart : q.outer.start = byteLength p.upTo + byteLength (m ++ [','] ++ k) := by
    rw [Stretch.outer_start, hpre, ← byteLength_append]
    simp only [List.append_assoc]
  have hcomma : 0 < byteLength (m ++ [','] ++ k) := by
    rw [Nat.pos_iff_ne_zero, Ne, byteLength_eq_zero]
    simp
  have hupTo : p.outer.start ≤ byteLength p.upTo := by
    rw [Stretch.outer_start, Stretch.upTo, List.append_assoc, byteLength_append]
    omega
  refine ⟨?_, by omega⟩
  rw [hstart, Stretch.outer_stop, byteLength_append]
  refine Nat.add_le_add_left ?_ _
  by_cases hnone : q.front = []
  · rw [hnone, List.append_nil] at hgap
    rw [← hgap, byteLength_append]
    omega
  · -- the line of the second begins behind the comma
    have hnewline : (m ++ [','] ++ k).getLast? = some '\n' := by
      rcases (hq.beginsLine hnone).1 with hempty | hlast
      · simp [hpre] at hempty
      · rw [hpre] at hlast
        simpa [List.getLast?_append] using hlast
    obtain ⟨line, hline⟩ := List.getLast?_eq_some_iff.mp hnewline
    rw [hline] at hgap ⊢
    rw [List.append_assoc] at hgap
    exact byteLength_le_of_newline hgap hp.isModest.oneLine

/-- What is removed with the first of two parted entries ends before what is
removed with the second begins. -/
lemma Parted.removalSpan_before {text : List Char} {s t : Span} (hs : (s.slice? text).isSome)
    (ht : (t.slice? text).isSome) (h : Parted text s t) :
    (removalSpan text s).stop ≤ (removalSpan text t).start ∧
      (removalSpan text s).start < (removalSpan text t).start := by
  obtain ⟨p, rfl, rfl, hp, hpremoval⟩ := exists_isRemoval hs
  obtain ⟨q, htext, rfl, hq, hqremoval⟩ := exists_isRemoval ht
  rw [← hp, ← hq]
  exact h.outer_before hpremoval hqremoval htext

lemma inBounds_removeEntry {text : List Char} {s : Span} (h : (s.slice? text).isSome) :
    (removeEntry text s).InBounds text :=
  slice?_isSome_iff.mp (extends_removalSpan h).isSome_slice?

/-- Removals of entries with a comma between any two of them are all applied, in
whatever order they are listed. -/
lemma skipped_removals {text : String} {entries : List Span} {edits : List Edit}
    (hslice : ∀ s ∈ entries, (s.slice? text.toList).isSome)
    (hparted : entries.Pairwise (Parted text.toList))
    (hedits : edits.Perm (entries.map (removeEntry text.toList))) :
    (applyEdits text edits).skipped = [] := by
  refine (applyEdits_of_apart (fun e he => ?_) ?_).1
  · obtain ⟨s, hs, rfl⟩ := List.mem_map.mp (hedits.mem_iff.mp he)
    exact inBounds_removeEntry (hslice s hs)
  · refine hedits.symm.pairwise (List.pairwise_map.mpr ?_) fun h => h.symm
    exact hparted.imp_of_mem fun hs ht h => Or.inl (h.removalSpan_before (hslice _ hs) (hslice _ ht))

/-- **A removal takes an entry and its separators only, and two removals never
collide.**  The span removed for an entry of a text covers whole characters, the
entry among them; in front of it and behind it there is white space only, with at
most one comma and at most one line end, and nothing of the lines around it unless
the entry is the first of its line.  Of two entries with a comma between them the
spans have no character in common, and neither removal is skipped for the other. -/
theorem removal_takes_filler_and_removals_stay_apart (text : String) :
    (∀ s : Span, (s.slice? text.toList).isSome →
      ((removalSpan text.toList s).slice? text.toList).isSome ∧
      ∃ p : Stretch, p.text = text.toList ∧ p.inner = s ∧ p.outer = removalSpan text.toList s ∧
        p.IsRemoval ∧ (∀ c ∈ p.front ++ p.tail, isBlank c = true ∨ c = ',') ∧
        (p.front ++ p.tail).count ',' ≤ 1 ∧ (p.front ++ p.tail).count '\n' ≤ 1) ∧
    ∀ s t : Span, (s.slice? text.toList).isSome → (t.slice? text.toList).isSome →
      Parted text.toList s t →
        (removalSpan text.toList s).stop ≤ (removalSpan text.toList t).start ∧
        ∀ edits : List Edit,
          edits.Perm [removeEntry text.toList s, removeEntry text.toList t] →
            (applyEdits text edits).skipped = [] := by
  constructor
  · intro s hs
    refine ⟨(extends_removalSpan hs).isSome_slice?, ?_⟩
    obtain ⟨p, htext, hinner, houter, hp⟩ := exists_isRemoval hs
    refine ⟨p, htext, hinner, houter, hp, fun c hc => ?_, hp.count_le⟩
    have hfiller : isFiller c = true :=
      (List.mem_append.mp hc).elim (hp.isModest.front c) (hp.isModest.tail c)
    simpa [isFiller] using hfiller
  · intro s t hs ht hparted
    refine ⟨(hparted.removalSpan_before hs ht).1, fun edits hedits => ?_⟩
    exact @skipped_removals text [s, t] edits (by simp [hs, ht]) (by simpa using hparted) hedits

/-- Of two entries on lines of their own each goes with its line, and the second
line begins where the first ends. -/
theorem neighbouring_lines_are_removed :
    let text := "\x7b\n  a: 1,\n  b: 2,\n\x7d"
    let first : Span := ⟨4, 8⟩
    let second : Span := ⟨12, 16⟩
    first.slice? text.toList = some "a: 1".toList ∧
      second.slice? text.toList = some "b: 2".toList ∧
      Parted text.toList first second ∧
      removalSpan text.toList first = ⟨2, 10⟩ ∧ removalSpan text.toList second = ⟨10, 18⟩ ∧
      (∃ p : Stretch, p.text = text.toList ∧ p.inner = first ∧ p.outer = ⟨2, 10⟩ ∧
        p.IsRemoval) ∧
      (applyEdits text
        [removeEntry text.toList second, removeEntry text.toList first]).skipped = [] := by
  intro text first second
  have hfirst : first.slice? text.toList = some "a: 1".toList := by decide +kernel
  have hsecond : second.slice? text.toList = some "b: 2".toList := by decide +kernel
  have hremoved : removalSpan text.toList first = ⟨2, 10⟩ := by decide +kernel
  have hparted : Parted text.toList first second :=
    ⟨⟨8, by decide, by decide, by decide +kernel⟩, 'b', by decide +kernel, by decide⟩
  obtain ⟨htakes, happly⟩ := removal_takes_filler_and_removals_stay_apart text
  obtain ⟨-, p, htext, hinner, houter, hp, -⟩ := htakes first (by rw [hfirst]; rfl)
  refine ⟨hfirst, hsecond, hparted, hremoved, by decide +kernel,
    ⟨p, htext, hinner, houter.trans hremoved, hp⟩, ?_⟩
  exact (happly first second (by rw [hfirst]; rfl) (by rw [hsecond]; rfl) hparted).2 _
    (List.Perm.swap ..)

end GraphMigrate
