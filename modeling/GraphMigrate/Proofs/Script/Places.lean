/-
Where documents and definitions stand.

Whatever is found in a script is found by spans, and edits are written to
these spans in the text as it was given.  The spans count from behind a
byte order mark, so they are spans of the text as long as it has none.

* `template_standsIn`: the first segment of a template stands where it is
  recorded, in the text behind a byte order mark;
* `places_of_parse`: **in a text without a byte order mark the segment of
  every document covers what stands between its marks, and the key of every
  definition covers the key as it is written**;
* `places_behind_mark_are_shifted`: behind a byte order mark they cover
  something else.
-/
import GraphMigrate.Proofs.Definitions.Places
import GraphMigrate.Proofs.Script.Reading.Statements
import GraphMigrate.Script.Template

namespace GraphMigrate

open Script

/-! ### Documents -/

lemma text_of_parse {language : Language} {text : String} {source : Source}
    (h : Source.parse language text = .ok source) :
    source.text = text.toList ∧ parseModule language text.toList = .ok source.script := by
  unfold Source.parse at h
  cases hscript : parseModule language text.toList with
  | error e =>
      rw [hscript] at h
      cases h
  | ok script =>
      rw [hscript] at h
      cases h
      exact ⟨rfl, rfl⟩

/-- The nodes of a text are what they say. -/
lemma items_agree_of_parse {language : Language} {text : String} {source : Source}
    (h : Source.parse language text = .ok source) :
    Agrees (dropByteOrderMark text.toList) source.script.items :=
  Module.agrees_of_parse (text_of_parse h).2

/-- Whatever a node of a text records is so in the text behind a byte order
mark. -/
lemma recordsIn_of_parse {language : Language} {text : String} {source : Source}
    (h : Source.parse language text = .ok source) {n : Node}
    (hn : n ∈ source.script.preorder) : n.RecordsIn (dropByteOrderMark text.toList) := by
  rw [Module.preorder, Node.preorderAll_eq_flatMap] at hn
  obtain ⟨item, hitem, hn⟩ := List.mem_flatMap.mp hn
  exact items_agree_of_parse h item hitem n hn

/-- A node that is a document is a template whose tag is a name among those
given. -/
lemma Script.Template.eq_tagged_of_ofNode? {tags : List String} {source : Source} {n : Node}
    {t : Template} (h : Template.ofNode? tags source n = some t) :
    t.tag ∈ tags ∧ t.text = source.quote t.segment ∧ ∃ s types parts,
      n = .tagged (.name t.tag s) types t.segment parts t.span ∧
        t.interpolated = !parts.isEmpty := by
  unfold Template.ofNode? at h
  split at h
  next tag s types segment parts span =>
    split at h
    next htag =>
      cases h
      exact ⟨List.contains_iff_mem.mp htag, rfl, s, types, parts, rfl, rfl⟩
    next => cases h
  next => cases h

/-- A document is a template among the nodes whose tag is a name. -/
lemma exists_tagged_of_mem_templates {tags : List String} {source : Source} {t : Template}
    (ht : t ∈ templates tags source) :
    ∃ s types parts,
      Node.tagged (.name t.tag s) types t.segment parts t.span ∈ source.script.preorder ∧
      t.text = source.quote t.segment := by
  obtain ⟨n, hn, hdocument⟩ := List.mem_filterMap.mp ht
  obtain ⟨-, htext, s, types, parts, rfl, -⟩ := Template.eq_tagged_of_ofNode? hdocument
  exact ⟨s, types, parts, hn, htext⟩

/-- The first segment of a template stands where it is recorded, in the text
behind a byte order mark. -/
lemma template_standsIn {language : Language} {text : String} {source : Source}
    (h : Source.parse language text = .ok source) {tags : List String} {t : Template}
    (ht : t ∈ templates tags source) :
    SegmentStandsIn (dropByteOrderMark text.toList) t.segment := by
  obtain ⟨s, types, parts, hnode, -⟩ := exists_tagged_of_mem_templates ht
  exact (recordsIn_of_parse h hnode).1

lemma dropByteOrderMark_of_unmarked {text : List Char} (h : text.head? ≠ some '\uFEFF') :
    dropByteOrderMark text = text := by
  unfold dropByteOrderMark
  split
  next c cs =>
    refine if_neg fun hc => h ?_
    have hchar : c = '\uFEFF' := Char.toNat_inj.mp hc
    rw [hchar, List.head?_cons]
  next => rfl

/-! ### Texts without a byte order mark -/

/-- The segment of every document covers the characters between its opening
mark and the mark that ends it, and the key of every definition covers a
token of the text, which is the key as it is written. -/
theorem places_of_parse {language : Language} {text : String} {source : Source}
    (h : Source.parse language text = .ok source) (hmark : text.toList.head? ≠ some '\uFEFF') :
    (∀ tags, ∀ t ∈ templates tags source, ∃ before raw rest,
      text.toList = before ++ '`' :: (raw ++ rest) ∧ Segment raw rest ∧
      t.segment.start = byteLength before + 1 ∧
      t.segment.slice? text.toList = some raw ∧ t.text = String.ofList raw) ∧
    ∀ vocabulary d, locate vocabulary source = .ok d → ∀ field ∈ d.allFields,
      ∃ kind written, StandsAt text.toList field.keySpan kind written ∧
        field.keySpan.slice? text.toList = some written ∧ Names field.key written kind := by
  have htext := (text_of_parse h).1
  have hdrop := dropByteOrderMark_of_unmarked hmark
  constructor
  · intro tags t ht
    have hstands := template_standsIn h ht
    rw [hdrop] at hstands
    obtain ⟨before, raw, rest, happend, hraw, hsegment⟩ := hstands
    have hslice : t.segment.slice? text.toList = some raw := by
      refine slice?_eq_some_iff.mpr ⟨before ++ ['`'], rest, by simp [happend], ?_, ?_⟩
      · rw [hsegment, byteLength_append]
        rfl
      · rw [hsegment, byteLength_append]
        rfl
    obtain ⟨-, -, -, -, hquote⟩ := exists_tagged_of_mem_templates ht
    refine ⟨before, raw, rest, happend, hraw, by rw [hsegment], hslice, ?_⟩
    rw [hquote, Source.quote, Span.sliceText, htext, hslice, Option.getD_some]
  · intro vocabulary d hd field hfield
    have hitems := items_agree_of_parse h
    rw [hdrop, ← htext] at hitems
    obtain ⟨kind, written, hstands, hnames⟩ :=
      Definitions.keyStandsIn_of_locate hitems hd hfield
    rw [htext] at hstands
    exact ⟨kind, written, hstands, hstands.slice?, hnames⟩

/-- A document and, in a constructor call, a definition. -/
def documentAndDefinition : String := "ab`c`;new A(\x7bfields:\x7b'b':0\x7d\x7d)"

/-- What is found in a text: documents with the tag `ab` and definitions by
the constructor `A`. -/
def found? (text : String) : Option (Source × List Template × Definitions) := do
  let source ← (Source.parse .javaScript text).toOption
  let d ← (locate { objectTypes := ["A"] } source).toOption
  some (source, templates ["ab"] source, d)

lemma found?_eq_some {text : String} {source : Source} {documents : List Template}
    {d : Definitions} (h : found? text = some (source, documents, d)) :
    Source.parse .javaScript text = .ok source ∧ templates ["ab"] source = documents ∧
      locate { objectTypes := ["A"] } source = .ok d := by
  simp only [found?, Option.bind_eq_bind, Option.bind_eq_some_iff, Option.some.injEq,
    Prod.mk.injEq] at h
  obtain ⟨found, hsource, e, hd, rfl, hdocuments, rfl⟩ := h
  exact ⟨eq_ok_of_toOption hsource, hdocuments, eq_ok_of_toOption hd⟩

/-- Both stand where they are recorded. -/
theorem places_of_parse_document_and_definition :
    ∃ source, Source.parse .javaScript documentAndDefinition = .ok source ∧
      documentAndDefinition.toList.head? ≠ some '\uFEFF' ∧
      (∃ t ∈ templates ["ab"] source, t.segment.slice? documentAndDefinition.toList = some ['c'] ∧
        t.text = "c") ∧
      ∃ d, locate { objectTypes := ["A"] } source = .ok d ∧ ∃ field ∈ d.allFields,
        ∃ kind written, StandsAt documentAndDefinition.toList field.keySpan kind written ∧
          Names "b" written kind := by
  have hmark : documentAndDefinition.toList.head? ≠ some '\uFEFF' := by decide
  have hcheck : (found? documentAndDefinition).any (fun found =>
      found.2.1.any (·.segment == ⟨3, 4⟩) && found.2.2.allFields.any (·.key == "b")) = true := by
    decide +kernel
  obtain ⟨⟨source, documents, d⟩, hfound, hholds⟩ := Option.any_eq_true _ _ |>.mp hcheck
  obtain ⟨hsource, rfl, hd⟩ := found?_eq_some hfound
  rw [Bool.and_eq_true, List.any_eq_true, List.any_eq_true] at hholds
  obtain ⟨⟨t, ht, hsegment⟩, field, hfield, hkey⟩ := hholds
  rw [beq_iff_eq] at hsegment hkey
  obtain ⟨hdocuments, hdefinitions⟩ := places_of_parse hsource hmark
  refine ⟨source, hsource, hmark, ⟨t, ht, ?_⟩, d, hd, field, hfield, ?_⟩
  · obtain ⟨before, raw, rest, -, -, -, hslice, htext⟩ := hdocuments _ t ht
    have hraw : raw = ['c'] := by
      rw [hsegment] at hslice
      have hc : Span.slice? ⟨3, 4⟩ documentAndDefinition.toList = some ['c'] := by decide
      exact Option.some.inj (hslice.symm.trans hc)
    subst hraw
    exact ⟨hslice, htext⟩
  · obtain ⟨kind, written, hstands, -, hnames⟩ := hdefinitions _ d hd field hfield
    exact ⟨kind, written, hstands, hkey ▸ hnames⟩

/-! ### Texts with a byte order mark -/

/-- Directly before a segment stands a backtick. -/
lemma slice?_mark_of_segmentStandsIn {text : List Char} {segment : Span}
    (h : SegmentStandsIn text segment) :
    Span.slice? ⟨segment.start - 1, segment.start⟩ text = some ['`'] := by
  obtain ⟨before, raw, rest, happend, -, rfl⟩ := h
  exact slice?_eq_some_iff.mpr ⟨before, raw ++ rest, by simp [happend], by simp, rfl⟩

/-- A token that is read where a key stands ends where the key does. -/
lemma KeyStandsIn.stop_eq {text before after : List Char} {name : String} {span : Span}
    (h : KeyStandsIn text name span) (hcut : cutAt? span.start text = some (before, after)) :
    (Token.read ⟨span.start, after⟩).2.offset = span.stop := by
  obtain ⟨kind, written, ⟨passed, rest, happend, hspan, hread⟩, -⟩ := h
  have hpassed : cutAt? span.start text = some (passed, written ++ rest) := by
    rw [happend, hspan, List.append_assoc]
    exact cutAt?_byteLength passed (written ++ rest)
  rw [hpassed] at hcut
  cases hcut
  rw [hread]

/-- Behind a byte order mark the segment of the document does not stand
where it is recorded, nor does the key of the definition. -/
theorem places_behind_mark_are_shifted :
    ∃ source, Source.parse .javaScript ("\uFEFF" ++ documentAndDefinition) = .ok source ∧
      (∃ t ∈ templates ["ab"] source, ¬ SegmentStandsIn source.text t.segment) ∧
      ∃ d, locate { objectTypes := ["A"] } source = .ok d ∧ ∃ field ∈ d.allFields,
        ¬ KeyStandsIn source.text field.key field.keySpan := by
  have hcheck : (found? ("\uFEFF" ++ documentAndDefinition)).any (fun found =>
      found.2.1.any (fun t =>
        Span.slice? ⟨t.segment.start - 1, t.segment.start⟩ found.1.text != some ['`']) &&
      found.2.2.allFields.any (fun field =>
        (cutAt? field.keySpan.start found.1.text).any fun parts =>
          (Token.read ⟨field.keySpan.start, parts.2⟩).2.offset != field.keySpan.stop)) = true := by
    decide +kernel
  obtain ⟨⟨source, documents, d⟩, hfound, hholds⟩ := Option.any_eq_true _ _ |>.mp hcheck
  obtain ⟨hsource, rfl, hd⟩ := found?_eq_some hfound
  rw [Bool.and_eq_true, List.any_eq_true, List.any_eq_true] at hholds
  obtain ⟨⟨t, ht, hslice⟩, field, hfield, htoken⟩ := hholds
  obtain ⟨⟨before, after⟩, hcut, hstop⟩ := Option.any_eq_true _ _ |>.mp htoken
  rw [bne_iff_ne] at hslice hstop
  exact ⟨source, hsource, ⟨t, ht, fun h => hslice (slice?_mark_of_segmentStandsIn h)⟩, d, hd,
    field, hfield, fun h => hstop (h.stop_eq hcut)⟩

end GraphMigrate
