/-
Object literals to which a property is added.

A property is added behind the last one, and behind the comma of the last one if
only white space stands before that comma; else a comma is added as well, close
to the last property and so in front of any comment.  A literal without properties
takes it behind its opening brace.

* `ObjectBody.isSpaced`: entries and commas with white space and comments around
  them, whatever the entries are;
* `ObjectBody.exists_goesOn`: behind its last entry a body may go on with any
  other one;
* `IsFollowedByComma`: a comma that only white space of ASCII stands before;
* `addLastProperty_of_comma`, `addLastProperty_of_not_comma`: where a property is
  inserted, and with which separators;
* `AddsProperty`, `SeparatesProperty`: an edit that adds a property to a body, and
  what stands between that property and the one before;
* `appended_property_leaves_object`: **a body with a property appended is a body of
  its entries and of that property**.
-/
import GraphMigrate.Proofs.Rewriting.ObjectLiteral

namespace GraphMigrate

open Script (isTrivia)

/-! ### Bodies -/

namespace ObjectBody

/-- White space and comments stand around the entries and commas, and nothing
else. -/
def isSpaced : ObjectBody → Bool
  | done gap => isTrivia gap
  | last lead _ trail => isTrivia lead && isTrivia trail
  | more lead _ trail rest => isTrivia lead && isTrivia trail && rest.isSpaced

/-- A written body is one with entries that neither begin nor end with white space
or a comment. -/
lemma isWritten_iff {body : ObjectBody} : body.isWritten = true ↔
    body.isSpaced = true ∧ ∀ entry ∈ body.entries, isEntryText entry = true := by
  induction body with
  | done gap => simp [isWritten, isSpaced, entries]
  | last lead entry trail =>
      simp only [isWritten, isSpaced, entries, Bool.and_eq_true, List.mem_singleton, forall_eq]
      tauto
  | more lead entry trail rest ih =>
      simp only [isWritten, isSpaced, entries, Bool.and_eq_true, List.forall_mem_cons, ih]
      tauto

/-- Behind its last entry a body may go on with any other body.  What stands there
is white space, comments and at most one comma. -/
lemma exists_goesOn {body : ObjectBody} (hspaced : body.isSpaced = true) {head : List Char}
    {e : PlacedEntry} (he : (body.placed (byteLength head)).getLast? = some e) :
    ∃ upTo trail later, body.text = upTo ++ (trail ++ later) ∧
      e.span.stop = byteLength (head ++ upTo) ∧ isTrivia trail = true ∧
      (later = [] ∨ ∃ gap, later = ',' :: gap ∧ isTrivia gap = true) ∧
      ∀ (trail' : List Char) (behind : ObjectBody), isTrivia trail' = true →
        behind.isSpaced = true → ∃ result : ObjectBody, result.isSpaced = true ∧
          result.text = upTo ++ (trail' ++ ',' :: behind.text) ∧
          result.entries = body.entries ++ behind.entries := by
  induction body generalizing head with
  | done gap => simp [placed] at he
  | last lead entry trail =>
      rw [placed_last, List.getLast?_singleton, Option.some.injEq] at he
      simp only [isSpaced, Bool.and_eq_true] at hspaced
      refine ⟨lead ++ entry, trail, [], by simp [text], ?_, hspaced.2, Or.inl rfl,
        fun trail' behind htrail' hbehind => ⟨.more lead entry trail' behind, ?_, by simp [text],
          rfl⟩⟩
      · rw [← he]
        simp
      · simp [isSpaced, hspaced, htrail', hbehind]
  | more lead entry trail rest ih =>
      simp only [isSpaced, Bool.and_eq_true] at hspaced
      obtain ⟨⟨hlead, htrail⟩, hrest⟩ := hspaced
      rw [placed_more, List.getLast?_cons] at he
      rcases hlast : (rest.placed (byteLength (head ++ lead ++ entry ++ trail ++ [',']))).getLast?
        with _ | last
      · -- the entry is the last one
        rw [hlast, Option.getD_none, Option.some.injEq] at he
        rw [List.getLast?_eq_none_iff] at hlast
        cases rest with
        | last lead entry trail => simp [placed] at hlast
        | more lead entry trail rest => simp [placed] at hlast
        | done gap =>
            refine ⟨lead ++ entry, trail, ',' :: gap, by simp [text], ?_, htrail,
              Or.inr ⟨gap, rfl, hrest⟩,
              fun trail' behind htrail' hbehind => ⟨.more lead entry trail' behind, ?_,
                by simp [text], rfl⟩⟩
            · rw [← he]
              simp
            · simp [isSpaced, hlead, htrail', hbehind]
      · rw [hlast, Option.getD_some, Option.some.injEq] at he
        subst he
        obtain ⟨upTo, trail', later, htext, hstop, htrail', hlater, hgoesOn⟩ := ih hrest hlast
        refine ⟨lead ++ entry ++ trail ++ ',' :: upTo, trail', later, by simp [text, htext], ?_,
          htrail', hlater, fun trail'' behind htrail'' hbehind => ?_⟩
        · rw [hstop]
          simp
        · obtain ⟨result, hresult, hresultText, hentries⟩ :=
            hgoesOn trail'' behind htrail'' hbehind
          refine ⟨.more lead entry trail result, ?_, by simp [text, hresultText],
            by simp [entries, hentries]⟩
          simp [isSpaced, hlead, htrail, hresult]

end ObjectBody

/-! ### The separators -/

/-- White space of ASCII is white space, in Unicode and in a script. -/
lemma isBlank_of_isAsciiBlank {c : Char} (h : isAsciiBlank c = true) :
    isBlank c = true ∧ (Script.isLineEnd c || Script.isGap c) = true := by
  simp only [isAsciiBlank, Bool.or_eq_true, beq_iff_eq] at h
  rcases h with (((rfl | rfl) | rfl) | rfl) | h
  · decide
  · decide
  · decide
  · decide
  · simp [isBlank, Script.isGap, h]

lemma isTrivia_of_forall_isAsciiBlank {cs : List Char} (h : ∀ c ∈ cs, isAsciiBlank c = true) :
    isTrivia cs = true :=
  Script.isTrivia_of_forall fun c hc => (isBlank_of_isAsciiBlank (h c hc)).2

/-- A comma follows, and nothing but white space of ASCII stands before it. -/
def IsFollowedByComma (text : List Char) : Prop :=
  ∃ blanks later, text = blanks ++ ',' :: later ∧ ∀ c ∈ blanks, isAsciiBlank c = true

lemma isFollowedByComma_iff {text : List Char} :
    IsFollowedByComma text ↔ (text.dropWhile isAsciiBlank).head? = some ',' := by
  constructor
  · rintro ⟨blanks, later, rfl, hblanks⟩
    rw [List.dropWhile_append_of_pos hblanks, List.dropWhile_cons_of_neg (by decide),
      List.head?_cons]
  · intro h
    obtain ⟨later, hlater⟩ := List.head?_eq_some_iff.mp h
    refine ⟨text.takeWhile isAsciiBlank, later, ?_, fun c hc => List.mem_takeWhile_imp hc⟩
    rw [← hlater, List.takeWhile_append_dropWhile]

lemma IsFollowedByComma.append {text : List Char} (h : IsFollowedByComma text)
    (more : List Char) : IsFollowedByComma (text ++ more) := by
  obtain ⟨blanks, later, rfl, hblanks⟩ := h
  exact ⟨blanks, later ++ more, by simp, hblanks⟩

lemma isFollowedByComma_of_head? {text : List Char} (h : text.head? = some ',') :
    IsFollowedByComma text := by
  obtain ⟨later, rfl⟩ := List.head?_eq_some_iff.mp h
  exact ⟨[], later, rfl, by simp⟩

/-- No comma follows where a comment or other white space stands before it, or where
something else does. -/
lemma not_isFollowedByComma {trail later : List Char} (htrail : isTrivia trail = true)
    (hlater : (∀ c ∈ trail, isAsciiBlank c = true) → ¬ IsFollowedByComma later) :
    ¬ IsFollowedByComma (trail ++ later) := by
  rw [isFollowedByComma_iff]
  refine head?_dropWhile_ne_comma (fun c hc => (isBlank_of_isAsciiBlank hc).2) htrail fun h => ?_
  exact fun hcomma => hlater h (isFollowedByComma_iff.mpr hcomma)

/-! ### The edit -/

/-- A property is laid out with white space and one comma: behind the comma that
follows the last property, if one does, with another comma behind it, and else
right behind the last property and a new comma. -/
lemma exists_addLastProperty (text : List Char) (object last : Span) (property : String) :
    ∃ gap : String, (∀ c ∈ gap.toList, isAsciiBlank c = true) ∧
      addLastProperty text object last property =
        if (restFrom (skip isAsciiBlank text last.stop) text).head? == some ',' then
          .insert (skip isAsciiBlank text last.stop + 1) (gap ++ property ++ ",")
        else .insert last.stop ("," ++ gap ++ property) := by
  have hindent : ∀ c ∈ ("\n" ++ lineIndent text last.start).toList, isAsciiBlank c = true := by
    intro c hc
    rw [String.toList_append, List.mem_append, lineIndent] at hc
    rcases hc with hc | hc
    · obtain rfl : c = '\n' := by simpa using hc
      decide
    · rw [String.toList_ofList] at hc
      have hblank := List.mem_takeWhile_imp hc
      rw [isInlineBlank, Bool.or_eq_true, beq_iff_eq, beq_iff_eq] at hblank
      rcases hblank with rfl | rfl <;> decide
  have hspace : ∀ c ∈ " ".toList, isAsciiBlank c = true := by
    intro c hc
    obtain rfl : c = ' ' := by simpa using hc
    decide
  have hline : ",\n" ++ lineIndent text last.start =
      "," ++ ("\n" ++ lineIndent text last.start) := by
    rw [← String.append_assoc]
    rfl
  rcases hlines : (Span.slice? ⟨object.start, last.start⟩ text).any (·.contains '\n') with _ | _
  · refine ⟨" ", hspace, ?_⟩
    rcases hcomma : (restFrom (skip isAsciiBlank text last.stop) text).head? == some ',' with _ | _
    all_goals
      simp only [addLastProperty, hlines, hcomma]
      rfl
  · refine ⟨"\n" ++ lineIndent text last.start, hindent, ?_⟩
    rcases hcomma : (restFrom (skip isAsciiBlank text last.stop) text).head? == some ',' with _ | _
    all_goals
      simp only [addLastProperty, hlines, hcomma, hline]
      rfl

section Place

variable {text front behind blanks later : List Char} {last : Span}

/-- What follows the white space behind the last property. -/
lemma head?_restFrom_skip (htext : text = front ++ behind) (hlast : last.stop = byteLength front) :
    (restFrom (skip isAsciiBlank text last.stop) text).head? =
      (behind.dropWhile isAsciiBlank).head? := by
  have hsplit : text = front ++ behind.takeWhile isAsciiBlank ++ behind.dropWhile isAsciiBlank := by
    rw [htext, List.append_assoc, List.takeWhile_append_dropWhile]
  have hskip : skip isAsciiBlank text last.stop =
      byteLength (front ++ behind.takeWhile isAsciiBlank) := by
    rw [hsplit, hlast]
    refine skip_append front (fun c hc => List.mem_takeWhile_imp hc) fun c hc => ?_
    have hnot := List.head?_dropWhile_not isAsciiBlank behind
    rw [hc] at hnot
    exact hnot
  rw [hskip, hsplit, restFrom_append]

/-- Behind a comma that is close the property goes, with a comma of its own. -/
lemma addLastProperty_of_comma (object : Span) (property : String)
    (htext : text = front ++ (blanks ++ ',' :: later)) (hlast : last.stop = byteLength front)
    (hblanks : ∀ c ∈ blanks, isAsciiBlank c = true) :
    ∃ gap : String, (∀ c ∈ gap.toList, isAsciiBlank c = true) ∧
      addLastProperty text object last property =
        .insert (byteLength (front ++ blanks ++ [','])) (gap ++ property ++ ",") := by
  obtain ⟨gap, hgap, hedit⟩ := exists_addLastProperty text object last property
  have hskip : skip isAsciiBlank text last.stop = byteLength (front ++ blanks) := by
    rw [htext, ← List.append_assoc, hlast]
    exact skip_append front hblanks (by simp; decide)
  have hcomma : IsFollowedByComma (blanks ++ ',' :: later) := ⟨blanks, later, rfl, hblanks⟩
  refine ⟨gap, hgap, ?_⟩
  rw [hedit, head?_restFrom_skip htext hlast, isFollowedByComma_iff.mp hcomma, beq_self_eq_true,
    if_pos rfl, hskip, byteLength_append (front ++ blanks)]
  rfl

/-- Where no comma is close the property goes right behind the last one. -/
lemma addLastProperty_of_not_comma (object : Span) (property : String)
    (htext : text = front ++ behind) (hlast : last.stop = byteLength front)
    (hnone : ¬ IsFollowedByComma behind) :
    ∃ gap : String, (∀ c ∈ gap.toList, isAsciiBlank c = true) ∧
      addLastProperty text object last property =
        .insert (byteLength front) ("," ++ gap ++ property) := by
  obtain ⟨gap, hgap, hedit⟩ := exists_addLastProperty text object last property
  rw [isFollowedByComma_iff] at hnone
  refine ⟨gap, hgap, ?_⟩
  rw [hedit, head?_restFrom_skip htext hlast, beq_eq_false_iff_ne.mpr hnone, hlast]
  rfl

end Place

/-- Applied on its own, an edit puts its text in the place of what its span
covers. -/
lemma applyEdits_spanBehind {text : String} {front gone back : List Char} {edit : Edit}
    (htext : text.toList = front ++ gone ++ back) (hspan : edit.span = spanBehind front gone) :
    (applyEdits text [edit]).text.toList = front ++ edit.text.toList ++ back ∧
      edit.span.slice? text.toList = some gone := by
  have hslice : edit.span.slice? text.toList = some gone :=
    slice?_eq_some_iff.mpr ⟨front, back, htext, by rw [hspan], by rw [hspan, ← byteLength_append]⟩
  refine ⟨?_, hslice⟩
  have hfits : edit.fits text.toList = true := by
    rw [Edit.fits, hslice]
    rfl
  rw [applyEdits_singleton hfits, String.toList_ofList, htext,
    splice_cons (by rw [hspan, Nat.zero_add]) (by rw [hspan]; exact byteLength_append ..), splice]

/-! ### The property -/

/-- An edit of a text with an object literal adds a property to it.  It deletes
white space between the braces at most, and it makes of the body another one, of
the entries there were and of the property. -/
structure AddsProperty (text : String) (before after : List Char) (body : ObjectBody)
    (property : List Char) (edit : Edit) (result : ObjectBody) : Prop where
  between : byteLength before + 1 ≤ edit.span.start ∧
    edit.span.stop ≤ byteLength before + 1 + byteLength body.text
  blank : ∃ gone, edit.span.slice? text.toList = some gone ∧ ∀ c ∈ gone, isBlank c = true
  text_eq : (applyEdits text [edit]).text.toList =
    before ++ '\x7b' :: (result.text ++ '\x7d' :: after)
  isSpaced : result.isSpaced = true
  entries : result.entries = body.entries ++ [property]

/-- A brace takes one byte. -/
lemma byteLength_behind_brace (before upTo : List Char) :
    byteLength (before ++ '\x7b' :: upTo) = byteLength before + 1 + byteLength upTo := by
  rw [byteLength_append, Nat.add_assoc]
  rfl

section Literal

variable {text : String} {before after : List Char} {body : ObjectBody} {property : String}

/-- An edit between the braces is one of the body. -/
lemma addsProperty_of_spanBehind (upTo gone back : List Char) {edit : Edit} {result : ObjectBody}
    (htext : text.toList = before ++ '\x7b' :: (body.text ++ '\x7d' :: after))
    (hbody : body.text = upTo ++ gone ++ back)
    (hspan : edit.span = spanBehind (before ++ '\x7b' :: upTo) gone)
    (hgone : ∀ c ∈ gone, isBlank c = true)
    (hresult : result.text = upTo ++ edit.text.toList ++ back)
    (hspaced : result.isSpaced = true)
    (hentries : result.entries = body.entries ++ [property.toList]) :
    AddsProperty text before after body property.toList edit result := by
  have hsplit : text.toList = before ++ '\x7b' :: upTo ++ gone ++ (back ++ '\x7d' :: after) := by
    rw [htext, hbody]
    simp
  obtain ⟨happly, hslice⟩ := applyEdits_spanBehind hsplit hspan
  refine ⟨?_, ⟨gone, hslice, hgone⟩, ?_, hspaced, hentries⟩
  · rw [hspan, hbody]
    simp only [byteLength_append (before ++ _), byteLength_behind_brace,
      byteLength_append (upTo ++ _), byteLength_append upTo]
    omega
  · rw [happly, hresult]
    simp

/-- A literal without properties takes one behind its opening brace. -/
lemma exists_addsProperty_first {gap : List Char} (hgap : isTrivia gap = true)
    (htext : text.toList = before ++ '\x7b' :: (gap ++ '\x7d' :: after)) (property : String) :
    ∃ result rest, AddsProperty text before after (.done gap) property.toList
        (addFirstProperty text.toList
          ⟨byteLength before, byteLength before + byteLength gap + 2⟩ property) result ∧
      result.text = ' ' :: property.toList ++ rest := by
  have hinner : Span.mk (byteLength before + 1) (byteLength before + byteLength gap + 2 - 1) =
      spanBehind (before ++ ['\x7b']) gap := by
    rw [spanBehind, List.append_assoc, List.singleton_append, byteLength_behind_brace,
      byteLength_behind_brace, Span.mk.injEq]
    exact ⟨rfl, by omega⟩
  have hslice : (spanBehind (before ++ ['\x7b']) gap).slice? text.toList = some gap :=
    slice?_eq_some_iff.mpr ⟨before ++ ['\x7b'], '\x7d' :: after, by rw [htext]; simp, rfl,
      byteLength_append ..⟩
  rw [addFirstProperty, hinner, hslice, Option.any_some]
  split
  · rename_i hblank
    refine ⟨.last [' '] property.toList [' '], [' '], ?_, by simp [ObjectBody.text]⟩
    refine addsProperty_of_spanBehind [] gap [] htext (by simp [ObjectBody.text]) rfl
      (isBlank_of_trim_isEmpty hblank) ?_ rfl rfl
    simp [ObjectBody.text, Edit.replace]
  · refine ⟨.more [' '] property.toList [] (.done gap), ',' :: gap, ?_, by simp [ObjectBody.text]⟩
    refine addsProperty_of_spanBehind [] [] gap htext (by simp [ObjectBody.text]) ?_ (by simp) ?_
      hgap rfl
    · simp [Edit.insert, Span.point, spanBehind, byteLength_behind_brace]
    · simp [ObjectBody.text, Edit.insert]

/-- What the text behind the last property of a body becomes: a comma, with white
space around it, the new property, and a rest that begins with a comma exactly where
one was close. -/
def SeparatesProperty (body result : ObjectBody) (property upTo : List Char) : Prop :=
  ∃ rest blanks blanks' rest', body.text = upTo ++ rest ∧
    result.text = upTo ++ (blanks ++ ',' :: blanks' ++ property ++ rest') ∧
    (∀ c ∈ blanks ++ blanks', isBlank c = true) ∧
    (rest'.head? = some ',' ↔ IsFollowedByComma rest)

/-- Where no comma is close the property is inserted with a comma in front of it. -/
lemma exists_addsProperty_of_not_comma {last object : Span} {upTo rest : List Char}
    (htext : text.toList = before ++ '\x7b' :: (body.text ++ '\x7d' :: after))
    (hbody : body.text = upTo ++ rest) (hlast : last.stop = byteLength (before ++ '\x7b' :: upTo))
    (hnone : ¬ IsFollowedByComma (rest ++ '\x7d' :: after))
    (hresult : ∀ gap, isTrivia gap = true → ∃ result : ObjectBody, result.isSpaced = true ∧
      result.text = upTo ++ (',' :: (gap ++ property.toList ++ rest)) ∧
      result.entries = body.entries ++ [property.toList]) :
    ∃ result, AddsProperty text before after body property.toList
        (addLastProperty text.toList object last property) result ∧
      SeparatesProperty body result property.toList upTo := by
  have htext' : text.toList = before ++ '\x7b' :: upTo ++ (rest ++ '\x7d' :: after) := by
    rw [htext, hbody]
    simp
  obtain ⟨gap, hgap, hedit⟩ := addLastProperty_of_not_comma object property htext' hlast hnone
  obtain ⟨result, hspaced, hresultText, hentries⟩ :=
    hresult gap.toList (isTrivia_of_forall_isAsciiBlank hgap)
  refine ⟨result, ?_, rest, [], gap.toList, rest, hbody, by simp [hresultText],
    fun c hc => (isBlank_of_isAsciiBlank (hgap c hc)).1,
    iff_of_false (fun h => ?_) fun h => hnone (h.append _)⟩
  · rw [hedit]
    refine addsProperty_of_spanBehind upTo [] rest htext (by simp [hbody]) ?_ (by simp) ?_ hspaced
      hentries
    · simp [Edit.insert, Span.point, spanBehind]
    · simp [Edit.insert, hresultText]
  · exact hnone ((isFollowedByComma_of_head? h).append _)

/-- Where a comma is close the property is inserted behind it, with a comma of its
own. -/
lemma exists_addsProperty_of_comma {last object : Span} {upTo blanks gap' : List Char}
    (htext : text.toList = before ++ '\x7b' :: (body.text ++ '\x7d' :: after))
    (hbody : body.text = upTo ++ (blanks ++ ',' :: gap'))
    (hlast : last.stop = byteLength (before ++ '\x7b' :: upTo))
    (hblanks : ∀ c ∈ blanks, isAsciiBlank c = true)
    (hresult : ∀ gap, isTrivia gap = true → ∃ result : ObjectBody, result.isSpaced = true ∧
      result.text = upTo ++ (blanks ++ ',' :: (gap ++ property.toList ++ ',' :: gap')) ∧
      result.entries = body.entries ++ [property.toList]) :
    ∃ result, AddsProperty text before after body property.toList
        (addLastProperty text.toList object last property) result ∧
      SeparatesProperty body result property.toList upTo := by
  have htext' : text.toList =
      before ++ '\x7b' :: upTo ++ (blanks ++ ',' :: (gap' ++ '\x7d' :: after)) := by
    rw [htext, hbody]
    simp
  obtain ⟨gap, hgap, hedit⟩ := addLastProperty_of_comma object property htext' hlast hblanks
  obtain ⟨result, hspaced, hresultText, hentries⟩ :=
    hresult gap.toList (isTrivia_of_forall_isAsciiBlank hgap)
  refine ⟨result, ?_, blanks ++ ',' :: gap', blanks, gap.toList, ',' :: gap', hbody,
    by simp [hresultText], fun c hc => ?_, iff_of_true rfl ⟨blanks, gap', rfl, hblanks⟩⟩
  · rw [hedit]
    refine addsProperty_of_spanBehind (upTo ++ blanks ++ [',']) [] gap' htext (by simp [hbody]) ?_
      (by simp) ?_ hspaced hentries
    · simp [Edit.insert, Span.point, spanBehind]
    · simp [Edit.insert, hresultText]
  · exact (isBlank_of_isAsciiBlank ((List.mem_append.mp hc).elim (hblanks c) (hgap c))).1

/-- A literal with properties takes one behind the last of them. -/
lemma exists_addsProperty_last (hspaced : body.isSpaced = true)
    (htext : text.toList = before ++ '\x7b' :: (body.text ++ '\x7d' :: after))
    (object : Span) (property : String) {e : PlacedEntry}
    (he : (body.placed (byteLength before + 1)).getLast? = some e) :
    ∃ result upTo, AddsProperty text before after body property.toList
        (addLastProperty text.toList object e.span property) result ∧
      e.span.stop = byteLength before + 1 + byteLength upTo ∧
      SeparatesProperty body result property.toList upTo := by
  have hoffset : byteLength before + 1 = byteLength (before ++ ['\x7b']) :=
    (byteLength_behind_brace before []).symm
  rw [hoffset] at he
  obtain ⟨upTo, trail, later, hbody, hstop, htrail, hlater, hgoesOn⟩ :=
    ObjectBody.exists_goesOn hspaced he
  rw [List.append_assoc, List.singleton_append] at hstop
  -- the property right behind the last one, with the white space and comments behind it
  have hbeside (hnone : ¬ IsFollowedByComma (trail ++ later ++ '\x7d' :: after)) :
      ∃ result, AddsProperty text before after body property.toList
          (addLastProperty text.toList object e.span property) result ∧
        SeparatesProperty body result property.toList upTo := by
    refine exists_addsProperty_of_not_comma htext hbody hstop hnone fun gap hgap => ?_
    rcases hlater with rfl | ⟨gap', rfl, hgap'⟩
    · simpa [ObjectBody.text, ObjectBody.entries] using
        hgoesOn [] (.last gap property.toList trail) rfl
          (by simp [ObjectBody.isSpaced, hgap, htrail])
    · simpa [ObjectBody.text, ObjectBody.entries] using
        hgoesOn [] (.more gap property.toList trail (.done gap')) rfl
          (by simp [ObjectBody.isSpaced, hgap, htrail, hgap'])
  rw [hstop, byteLength_behind_brace]
  suffices h : ∃ result, AddsProperty text before after body property.toList
      (addLastProperty text.toList object e.span property) result ∧
        SeparatesProperty body result property.toList upTo by
    obtain ⟨result, hadds, hseparates⟩ := h
    exact ⟨result, upTo, hadds, rfl, hseparates⟩
  rcases hlater with rfl | ⟨gap', rfl, hgap'⟩
  · refine hbeside ?_
    rw [List.append_nil]
    refine not_isFollowedByComma htrail fun _ => ?_
    rw [isFollowedByComma_iff, List.dropWhile_cons_of_neg (by decide), List.head?_cons]
    decide
  · by_cases hblanks : ∀ c ∈ trail, isAsciiBlank c = true
    · refine exists_addsProperty_of_comma htext hbody hstop hblanks fun gap hgap => ?_
      simpa [ObjectBody.text, ObjectBody.entries] using
        hgoesOn trail (.more gap property.toList [] (.done gap')) htrail
          (by simp [ObjectBody.isSpaced, hgap, hgap']; rfl)
    · refine hbeside ?_
      rw [List.append_assoc]
      exact not_isFollowedByComma htrail fun h => absurd h hblanks

end Literal

/-- **A body with a property appended is a body of its entries and of that
property.**  In a text with an object literal, with white space and comments anywhere
around its properties and commas, the edit that appends a property lies between the
braces and deletes white space at most.  It leaves a literal of the same properties
and of the new one, which stands in no comment: directly behind the opening brace if
there was no property, and else behind the last one, with white space and one comma
between the two.  A comma follows it right away exactly if one followed the last
property behind white space of ASCII. -/
theorem appended_property_leaves_object {text : String} {before after : List Char}
    {body : ObjectBody} (hspaced : body.isSpaced = true)
    (htext : text.toList = before ++ '\x7b' :: (body.text ++ '\x7d' :: after))
    {properties : List ConfigProperty}
    (hproperties : properties.map (·.span) =
      (body.placed (byteLength before + 1)).map (·.span)) (property : String) :
    ∃ result : ObjectBody,
      AddsProperty text before after body property.toList
        (appendProperty text.toList
          ⟨byteLength before, byteLength before + byteLength body.text + 2⟩ properties property)
        result ∧
      (body.isWritten = true → isEntryText property.toList = true → result.isWritten = true) ∧
      (properties = [] → ∃ rest, result.text = ' ' :: property.toList ++ rest) ∧
      ∀ last, properties.getLast? = some last → ∃ upTo,
        last.span.stop = byteLength before + 1 + byteLength upTo ∧
          SeparatesProperty body result property.toList upTo := by
  suffices h : ∃ result : ObjectBody,
      AddsProperty text before after body property.toList
        (appendProperty text.toList
          ⟨byteLength before, byteLength before + byteLength body.text + 2⟩ properties property)
        result ∧
      (properties = [] → ∃ rest, result.text = ' ' :: property.toList ++ rest) ∧
      ∀ last, properties.getLast? = some last → ∃ upTo,
        last.span.stop = byteLength before + 1 + byteLength upTo ∧
          SeparatesProperty body result property.toList upTo by
    obtain ⟨result, hadds, hfirst, hlast⟩ := h
    refine ⟨result, hadds, fun hwritten hproperty => ?_, hfirst, hlast⟩
    refine ObjectBody.isWritten_iff.mpr ⟨hadds.isSpaced, ?_⟩
    rw [hadds.entries, List.forall_mem_append, List.forall_mem_singleton]
    exact ⟨(ObjectBody.isWritten_iff.mp hwritten).2, hproperty⟩
  have hends : properties.getLast?.map (·.span) =
      (body.placed (byteLength before + 1)).getLast?.map (·.span) := by
    rw [← List.getLast?_map, hproperties, List.getLast?_map]
  rw [appendProperty]
  rcases hlast : properties.getLast? with _ | last
  · obtain rfl := List.getLast?_eq_none_iff.mp hlast
    cases body with
    | last lead entry trail => simp [ObjectBody.placed] at hproperties
    | more lead entry trail rest => simp [ObjectBody.placed] at hproperties
    | done gap =>
        obtain ⟨result, rest, hadds, hresult⟩ := exists_addsProperty_first hspaced htext property
        exact ⟨result, hadds, fun _ => ⟨rest, hresult⟩, by simp⟩
  · rw [hlast, Option.map_some, eq_comm, Option.map_eq_some_iff] at hends
    obtain ⟨e, he, hspan⟩ := hends
    obtain ⟨result, upTo, hadds, hstop, hseparates⟩ := exists_addsProperty_last hspaced htext
      ⟨byteLength before, byteLength before + byteLength body.text + 2⟩ property he
    rw [hspan] at hadds hstop
    refine ⟨result, hadds, fun hnil => ?_, fun last' hlast' => ?_⟩
    · simp [hnil] at hlast
    · exact ⟨upTo, Option.some.inj hlast' ▸ hstop, hseparates⟩

/-- A property with a comment behind it, and no comma. -/
def namedBody : ObjectBody :=
  .last "\n  ".toList "name: 1".toList " // given\n".toList

/-- The script around it. -/
def namedText : String := "f(\x7b\n  name: 1 // given\n\x7d)"

/-- A property goes in front of the comment, on a line of its own. -/
theorem appended_property_leaves_named :
    namedBody.isSpaced = true ∧
    namedText.toList = "f(".toList ++ '\x7b' :: (namedBody.text ++ '\x7d' :: ")".toList) ∧
    [(⟨some "name", ⟨6, 13⟩⟩ : ConfigProperty)].map (·.span) = (namedBody.placed 3).map (·.span) ∧
    (applyEdits namedText [appendProperty namedText.toList ⟨2, 24⟩ [⟨some "name", ⟨6, 13⟩⟩]
      "born: 2"]).text = "f(\x7b\n  name: 1,\n  born: 2 // given\n\x7d)" ∧
    ∃ result : ObjectBody,
      AddsProperty namedText "f(".toList ")".toList namedBody "born: 2".toList
        (appendProperty namedText.toList ⟨2, 24⟩ [⟨some "name", ⟨6, 13⟩⟩] "born: 2") result ∧
      result.isWritten = true ∧
      ∃ upTo, 13 = byteLength "f(".toList + 1 + byteLength upTo ∧
        SeparatesProperty namedBody result "born: 2".toList upTo := by
  have hspaced : namedBody.isSpaced = true := by decide
  have htext : namedText.toList =
      "f(".toList ++ '\x7b' :: (namedBody.text ++ '\x7d' :: ")".toList) := by decide
  have hproperties : [(⟨some "name", ⟨6, 13⟩⟩ : ConfigProperty)].map (·.span) =
      (namedBody.placed 3).map (·.span) := by decide
  obtain ⟨result, hadds, hwritten, -, hlast⟩ :=
    appended_property_leaves_object hspaced htext hproperties "born: 2"
  refine ⟨hspaced, htext, hproperties, by decide +kernel, result, hadds,
    hwritten (by decide) (by decide), ?_⟩
  exact hlast ⟨some "name", ⟨6, 13⟩⟩ rfl

end GraphMigrate
