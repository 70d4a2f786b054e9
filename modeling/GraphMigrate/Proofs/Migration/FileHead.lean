/-
The head of a file whose fixtures are typed.

The imports that are missing are put on top of a file, whatever it begins with.  All
else that is drafted stands behind the directives, and what stands in front of it
settles how the text begins.  So behind the imports the file has the head that it
had, but a head is in force only where a file begins.

* `Edit.LeavesBeginning`, `head_applyEdits`: edits that leave the head as it is;
* `leavesBeginning_helperCall`: what is drafted for a call is of that kind;
* `addedImports`, `text_of_importDraft`: the imports on top;
* `head_of_typeFixtures`: **the head stays in force exactly if nothing is imported
  or there is none**;
* `imports_stand_before_interpreter_and_directive`: a file that loses its head.
-/
import GraphMigrate.Migration.RawResponse
import GraphMigrate.Proofs.Definitions.Places
import GraphMigrate.Proofs.Migration.EarlyReturn
import GraphMigrate.Proofs.Script.FirmBeginnings
import GraphMigrate.Proofs.Script.Layout
import GraphMigrate.Proofs.Script.Places
import GraphMigrate.Proofs.Text.Recorded

namespace GraphMigrate

open Script

/-! ### Edits behind a beginning -/

/-- An edit of a text that begins at an offset leaves the beginning of the text as it is if
what stands in front of it, and stays, settles the beginning before and after. -/
def Edit.LeavesBeginning (offset : Nat) (r : List Char) (e : Edit) : Prop :=
  ∃ mid w s t, r = mid ++ w ++ s ∧ e.span.start = offset + byteLength mid ∧
    (e.span.start ≤ e.span.stop → offset + byteLength (mid ++ w) ≤ e.span.stop) ∧
    e.text.toList = w ++ t ∧
    IsFirm (mid ++ w) s ∧ ∀ more, IsFirm (mid ++ w) (t ++ more)

lemma Edit.LeavesBeginning.stop_pos {offset : Nat} {r : List Char} {e : Edit}
    (h : e.LeavesBeginning offset r) (hforward : e.span.start ≤ e.span.stop) :
    0 < e.span.stop := by
  obtain ⟨mid, w, s, t, -, -, hstop, -, hfirm, -⟩ := h
  have hpos : byteLength (mid ++ w) ≠ 0 := fun h => hfirm.nonempty (byteLength_eq_zero.mp h)
  have hle := hstop hforward
  omega

/-- Edits that leave the beginning of a text behind its directives leave the head. -/
lemma head_applyEdits {text : String} {pre r : List Char} {v : Token} {ds : List String}
    (htext : text.toList = pre ++ r)
    (hprologue : Token.Prologue (Token.next (skipInterpreterLine ⟨0, pre ++ r⟩)) ds v)
    (hv : v.start.chars = r) (hbegins : beginsToken r = true) {edits : List Edit}
    (hedits : ∀ e ∈ edits, e.LeavesBeginning (byteLength pre) r) :
    interpreterLine? (applyEdits text edits).text.toList = interpreterLine? text.toList ∧
      directives (applyEdits text edits).text.toList = directives text.toList := by
  rw [applyEdits_text]
  have hlaid := laid_appliedEdits text.toList edits
  cases happlied : appliedEdits text.toList edits with
  | nil => exact ⟨rfl, rfl⟩
  | cons e later =>
      rw [happlied] at hlaid
      have he : e ∈ edits := mem_of_mem_acceptedEdits (mem_appliedEdits_iff_mem_acceptedEdits.mp
        (happlied ▸ List.mem_cons_self))
      obtain ⟨mid, w, s, t, rfl, hstart, -, hnew, hfirm, hfirm'⟩ := hedits e he
      generalize text.toList = chars at hlaid htext ⊢
      cases hlaid with
      | @cons _ kept gone after _ _ hkept hgone hlater =>
          rw [Nat.zero_add] at hkept
          have hsame : kept ++ (gone ++ after) = (pre ++ mid) ++ (w ++ s) := by
            rw [← List.append_assoc, htext]
            simp
          obtain ⟨rfl, -⟩ := append_inj_of_byteLength hsame (by
            rw [← hkept, hstart, byteLength_append])
          rw [splice_cons (by rw [hkept, Nat.zero_add]) hgone, htext, hnew]
          generalize splice e.span.stop after later = rest
          have hkeeps := hfirm.keepsBeginning (hfirm' rest) hbegins
          have happend : pre ++ mid ++ (w ++ t) ++ rest = pre ++ (mid ++ w ++ (t ++ rest)) := by
            simp
          rw [happend]
          exact head_append hkeeps hprologue hv

/-! ### Edits at recorded places -/

section Places

variable {v : Token} {pre : List Char} {source : Source}

lemma isFirm_append_nil {p s : List Char} (h : IsFirm p s) : IsFirm (p ++ []) s := by
  rwa [List.append_nil]

/-- The characters of a template stand behind its mark. -/
lemma leavesBeginning_segment {segment : Span} (h : SegmentStandsIn v.blankBefore segment)
    (text : String) :
    (Edit.replace segment text).LeavesBeginning v.start.offset v.start.chars := by
  obtain ⟨mid, s, hchars, hstart⟩ := exists_firm_of_segment h
  have hfirm (s : List Char) : IsFirm (mid ++ ['`'] ++ []) s :=
    isFirm_append_nil (.of_mark (by decide) rfl mid s)
  refine ⟨mid ++ ['`'], [], s, text.toList, by simpa using hchars, hstart, ?_, rfl, hfirm s,
    fun more => hfirm _⟩
  rw [List.append_nil, ← hstart]
  exact id

/-- What is put behind a value begins with a space. -/
lemma leavesBeginning_stop {stop : Nat} (h : StopStandsIn v.blankBefore stop) {text : String}
    (htext : text.toList.head? = some ' ') :
    (Edit.insert stop text).LeavesBeginning v.start.offset v.start.chars := by
  obtain ⟨t, ht, hkind, rfl⟩ := h
  obtain ⟨mid, w, s, hchars, hspan, hfirm, hfirm'⟩ := exists_firm_of_token ht hkind
  have hstop : t.span.stop = v.start.offset + byteLength (mid ++ w) := by rw [hspan]
  refine ⟨mid ++ w, [], s, text.toList, by simpa using hchars, hstop, ?_, rfl,
    isFirm_append_nil hfirm, fun more => isFirm_append_nil (hfirm' _ fun d hd => ?_)⟩
  · rw [List.append_nil, ← hstop]
    exact id
  · rw [List.head?_append, htext] at hd
    cases hd
    decide

/-- What replaces a name on its own begins with the name. -/
lemma leavesBeginning_shorthand (htext : source.text = pre ++ v.start.chars)
    (hpre : byteLength pre = v.start.offset) {spelled : String} {span : Span}
    (h : Key.StandsIn v.blankBefore ⟨.name spelled, span⟩) {later : String}
    (hlater : later.toList.head? = some ':') :
    (Edit.replace span (source.quote span ++ later)).LeavesBeginning v.start.offset
      v.start.chars := by
  obtain h | ⟨t, ht, rfl, hfits⟩ := h
  · cases h
  have hkind : t.kind.EndsValue := by
    cases hkind : t.kind with
    | word => trivial
    | _ => rw [hkind] at hfits; exact hfits.elim
  obtain ⟨mid, w, s, hchars, hspan, hfirm, hfirm'⟩ := exists_firm_of_token ht hkind
  have hslice : Span.slice? t.span source.text = some w := by
    refine slice?_eq_some_iff.mpr ⟨pre ++ mid, s, ?_, ?_, ?_⟩
    · rw [htext, hchars]
      simp
    · simp [hspan, byteLength_append, hpre]
    · simp [hspan, byteLength_append, hpre, Nat.add_assoc]
  have hquote : source.quote t.span = String.ofList w := by
    rw [Source.quote, Span.sliceText, hslice, Option.getD_some]
  refine ⟨mid, w, s, later.toList, hchars, by rw [Edit.replace, hspan], fun _ => ?_, ?_, hfirm,
    fun more => hfirm' _ fun d hd => ?_⟩
  · rw [Edit.replace, hspan]
  · rw [Edit.replace, hquote, String.toList_append, String.toList_ofList]
  · rw [List.head?_append, hlater] at hd
    cases hd
    decide

/-- A cast leaves the beginning as it is. -/
lemma leavesBeginning_castValue {value : Node} (h : value.RecordsIn v.blankBefore)
    {typeName : String} {e : Edit} (he : e ∈ (castValue typeName value).edits) :
    e.LeavesBeginning v.start.offset v.start.chars := by
  have hlater : (" as " ++ typeName).toList.head? = some ' ' := by
    rw [String.toList_append]
    rfl
  unfold castValue at he
  split at he
  · cases he
  · obtain rfl := List.mem_singleton.mp he
    exact leavesBeginning_stop h hlater
  · obtain rfl := List.mem_singleton.mp he
    exact leavesBeginning_stop h hlater
  · obtain rfl := List.mem_singleton.mp he
    exact leavesBeginning_stop h hlater
  · cases he

lemma leavesBeginning_castDraft (htext : source.text = pre ++ v.start.chars)
    (hpre : byteLength pre = v.start.offset) {fixture : Node}
    (h : Agrees v.blankBefore fixture) {language : Language} {operation : String} {e : Edit}
    (he : e ∈ (castDraft language source fixture operation).edits) :
    e.LeavesBeginning v.start.offset v.start.chars := by
  obtain ⟨hrecords, hchildren⟩ := (agrees_node_iff fixture).mp h
  unfold castDraft at he
  split at he
  · split at he
    next spelled span =>
      obtain rfl := List.mem_singleton.mp he
      rw [String.append_assoc, String.append_assoc, String.append_assoc]
      refine leavesBeginning_shorthand htext hpre hrecords ?_
      rw [String.toList_append]
      rfl
    next key index value =>
      have hvalue : Agrees v.blankBefore value := hchildren value (by simp [Node.children])
      exact leavesBeginning_castValue ((agrees_node_iff value).mp hvalue).1 he
    next => cases he
  · cases he

lemma exists_of_mem_documentTyping {template : Template} {document : Document} {e : Edit}
    (he : e ∈ (documentTyping template document).1.draft.edits) :
    ∃ text, e = .replace template.segment text := by
  unfold documentTyping at he
  dsimp only at he
  split at he
  · cases he
  · split at he
    · cases he
    next text _ => exact ⟨text, List.mem_singleton.mp he⟩

/-- The directive that is put into a document leaves it as it is. -/
lemma leavesBeginning_queryTyping {tags : List String} {helper : Helper} {query : Node}
    (h : Agrees v.blankBefore query) {typing : Typing} {operation : Option String}
    (hquery : queryTyping tags source helper query = .ok (typing, operation)) {e : Edit}
    (he : e ∈ typing.draft.edits) : e.LeavesBeginning v.start.offset v.start.chars := by
  unfold queryTyping at hquery
  split at hquery
  · cases hquery
    cases he
  next template htemplate =>
    split at hquery
    · cases hquery
      cases he
    obtain ⟨document, -, hdocument⟩ := exists_ok_of_bind hquery
    obtain ⟨rfl, -⟩ := Prod.mk.inj (Except.ok.inj hdocument).symm
    unfold optionTemplate? at htemplate
    split at htemplate
    next key index value =>
      have hvalue : Agrees v.blankBefore value :=
        (agrees_node_iff _).mp h |>.2 value (by simp [Node.children])
      obtain ⟨-, -, s, types, parts, rfl, -⟩ := Script.Template.eq_tagged_of_ofNode? htemplate
      obtain ⟨text, rfl⟩ := exists_of_mem_documentTyping he
      exact leavesBeginning_segment ((agrees_node_iff _).mp hvalue).1.1 text
    next => cases htemplate

lemma mem_of_findOption? {options : List Node} {name : String} {option : Node}
    (h : findOption? source options name = some option) : option ∈ options :=
  List.mem_of_find?_eq_some h

lemma mem_of_fixture? {helper : Helper} {options : List Node} {fixture : Node} {note : Draft}
    (h : fixture? source helper options = some (fixture, note)) :
    fixture ∈ options ∧ note.edits = [] := by
  unfold fixture? at h
  split at h
  next option hoption =>
    cases h
    exact ⟨mem_of_findOption? hoption, rfl⟩
  next =>
    simp only [Option.bind_eq_bind, Option.bind_eq_some_iff, Option.pure_def, Option.some.injEq,
      Prod.mk.injEq] at h
    obtain ⟨former, -, option, hoption, rfl, rfl⟩ := h
    exact ⟨mem_of_findOption? hoption, rfl⟩

lemma leavesBeginning_optionsTyping (htext : source.text = pre ++ v.start.chars)
    (hpre : byteLength pre = v.start.offset) {options : List Node}
    (h : Agrees v.blankBefore options) {context : Context} {language : Language}
    {helper : Helper} {offset : Nat} {typing : Typing}
    (hoptions : optionsTyping context language source helper options offset = .ok typing)
    {e : Edit} (he : e ∈ typing.draft.edits) :
    e.LeavesBeginning v.start.offset v.start.chars := by
  unfold optionsTyping at hoptions
  split at hoptions
  · cases hoptions
  next query hfound =>
    obtain ⟨⟨asked, operation⟩, hquery, hoptions⟩ := exists_ok_of_bind hoptions
    have hasked {e : Edit} (he : e ∈ asked.draft.edits) :
        e.LeavesBeginning v.start.offset v.start.chars :=
      leavesBeginning_queryTyping (h query (mem_of_findOption? hfound)) hquery he
    cases operation with
    | none =>
        cases hoptions
        exact hasked he
    | some operation =>
        dsimp only at hoptions
        split at hoptions
        · cases hoptions
        next fixture note hfixture =>
          cases hoptions
          obtain ⟨hmem, hnote⟩ := mem_of_fixture? hfixture
          simp only [Typing.andThen, Draft.edits_append, hnote, List.append_nil] at he
          rcases List.mem_append.mp he with he | he
          · exact hasked he
          · exact leavesBeginning_castDraft htext hpre (h fixture hmem) he

lemma agrees_of_calledHelper? {text : List Char} {node : Node} (h : Agrees text node)
    {helper : Helper} {arguments : List Node} {offset : Nat}
    (hcalled : calledHelper? node = some (helper, arguments, offset)) :
    Agrees text arguments := by
  unfold calledHelper? at hcalled
  split at hcalled
  next callee span inside types whole =>
    obtain ⟨found, -, hfound⟩ := Option.map_eq_some_iff.mp hcalled
    cases hfound
    exact fun a ha => ((agrees_node_iff _).mp h).2 a (by simp [Node.children, ha])
  next => cases hcalled

/-- **Whatever is drafted for a call leaves the beginning of the text behind the directives
as it is.** -/
lemma leavesBeginning_helperCall (htext : source.text = pre ++ v.start.chars)
    (hpre : byteLength pre = v.start.offset) {node : Node} (h : Agrees v.blankBefore node)
    {context : Context} {language : Language} {typing : Typing}
    (hcall : helperCall context language source node = .ok typing) {e : Edit}
    (he : e ∈ typing.draft.edits) : e.LeavesBeginning v.start.offset v.start.chars := by
  unfold helperCall at hcall
  split at hcall
  · cases hcall
    cases he
  next helper arguments offset hcalled =>
    have harguments := agrees_of_calledHelper? h hcalled
    split at hcall
    next options span hoptions =>
      obtain ⟨first, hfirst, hvalue⟩ := Option.map_eq_some_iff.mp hoptions
      have hobject := argumentValue_agrees (harguments first (List.mem_of_mem_head? hfirst))
      rw [hvalue] at hobject
      exact leavesBeginning_optionsTyping htext hpre ((agrees_node_iff _).mp hobject).2 hcall he
    next => cases hcall

end Places

lemma agrees_of_mem_preorder {text : List Char} {script : Module}
    (h : Agrees text script.items) {node : Node} (hnode : node ∈ script.preorder) :
    Agrees text node := by
  rw [Module.preorder, Node.preorderAll_eq_flatMap] at hnode
  obtain ⟨item, hitem, hnode⟩ := List.mem_flatMap.mp hnode
  exact fun m hm => h item hitem m (Node.mem_preorder_trans hm hnode)

/-! ### Imports on top -/

/-- The operations whose types are imported on top of a file. -/
def addedImports (context : Context) (file : SourceFile) : Except MigrationError (List String) := do
  let source ← file.parse
  let typings ← source.script.preorder.mapM (helperCall context file.language source)
  return missingImports (importedNames source) (Typing.concat typings).operations

/-- The lines that import the types of operations. -/
def importText (operations : List String) : List Char :=
  (String.join (operations.map importLine)).toList

lemma importText_cons (operation : String) (operations : List String) :
    ∃ rest, importText (operation :: operations) = 'i' :: rest := by
  rw [importText, List.map_cons, String.join_cons, importLine]
  simp only [String.toList_append]
  exact ⟨_, rfl⟩

lemma importLines_eq (imported operations : List String) :
    (importLines imported operations).toList = importText (missingImports imported operations) :=
  rfl

/-- The imports come in front of what the other edits give. -/
lemma text_of_importDraft {text : String} {draft : Draft}
    (h : ∀ e ∈ draft.edits, e.span.start ≤ e.span.stop → 0 < e.span.stop)
    {imported operations : List String} :
    ((draft ++ importDraft imported operations).finish text).text.toList =
      importText (missingImports imported operations) ++
        (applyEdits text draft.edits).text.toList := by
  rw [← importLines_eq, Draft.finish, Draft.edits_append, importDraft]
  by_cases hempty : (importLines imported operations).isEmpty = true
  · rw [if_pos hempty, String.isEmpty_iff.mp hempty, Draft.empty, List.append_nil]
    rfl
  · rw [if_neg hempty]
    exact congrArg String.toList (applyEdits_concat_top h) |>.trans (String.toList_append ..)

/-- A text that begins with a word has no head. -/
lemma head_of_word {c : Char} (hc : isWordStart c = true) (cs : List Char) :
    interpreterLine? (c :: cs) = none ∧ directives (c :: cs) = [] := by
  have hline : interpreterLine? (c :: cs) = none := by
    rw [← Option.not_isSome_iff_eq_none, interpreterLine?_isSome_iff]
    rintro ⟨hhash, -⟩
    cases hhash
    exact absurd hc (by decide)
  have hends := endsGap_of_isWordStart hc
  simp only [endsGap, Bool.and_eq_true, Bool.not_eq_true', bne_iff_ne] at hends
  obtain ⟨⟨hslash, hend⟩, hgap⟩ := hends
  have hbegins : beginsToken (c :: cs) = true := by simp [beginsToken, hslash, hend, hgap]
  have hstart : (Token.next ⟨0, c :: cs⟩).start = ⟨0, c :: cs⟩ :=
    congrArg Prod.fst (skipGap_of_beginsToken hbegins false 0)
  have hstring : (Token.next ⟨0, c :: cs⟩).isString = false := by
    rw [Token.isString, hstart]
    refine Bool.eq_false_of_not_eq_true fun hquote => ?_
    simp only [List.head?_cons, Option.any_some, Bool.or_eq_true, beq_iff_eq] at hquote
    rcases hquote with rfl | rfl <;> exact absurd hc (by decide)
  refine ⟨hline, ?_⟩
  rw [directives, skipInterpreterLine_of_none hline]
  exact (Token.Prologue.none hstring).directivesFrom_eq (Token.isRead_next _) (by rw [hstart])

lemma typeFixtures_of_parse {context : Context} {file : SourceFile} {source : Source}
    {typings : List Typing} (hparse : file.parse = .ok source)
    (htypings : source.script.preorder.mapM (helperCall context file.language source) =
      .ok typings) :
    typeFixtures context file = .ok (((Typing.concat typings).draft ++
        importDraft (importedNames source) (Typing.concat typings).operations).finish file.text) ∧
      addedImports context file =
        .ok (missingImports (importedNames source) (Typing.concat typings).operations) := by
  rw [typeFixtures, addedImports, hparse]
  change (source.script.preorder.mapM (helperCall context file.language source) >>= _) = _ ∧
    (source.script.preorder.mapM (helperCall context file.language source) >>= _) = _
  rw [htypings]
  exact ⟨rfl, rfl⟩

/-- Without the imports on top, a file whose fixtures are typed has the head that it had. -/
lemma exists_body_of_typeFixtures {context : Context} {file : SourceFile} {outcome : Outcome}
    (h : typeFixtures context file = .ok outcome)
    (hmark : file.text.toList.head? ≠ some '\uFEFF') :
    ∃ added body, addedImports context file = .ok added ∧
      outcome.text.toList = importText added ++ body ∧
      interpreterLine? body = interpreterLine? file.text.toList ∧
      directives body = directives file.text.toList := by
  obtain ⟨source, hparse, h⟩ := exists_ok_of_bind h
  obtain ⟨typings, htypings, h⟩ := exists_ok_of_bind h
  cases h
  refine ⟨missingImports (importedNames source) (Typing.concat typings).operations,
    (applyEdits file.text (Typing.concat typings).draft.edits).text.toList,
    (typeFixtures_of_parse hparse htypings).2, ?_⟩
  obtain ⟨htext, hscript⟩ := text_of_parse (source_of_parse hparse)
  obtain ⟨ds, v, hprologue, ⟨c, hv⟩, hitems⟩ := Module.exists_prologue_of_parse hscript
  rw [dropByteOrderMark_of_unmarked hmark] at hprologue
  obtain ⟨pre, hpre, hoffset⟩ := (skipInterpreterLine_reaches ⟨0, file.text.toList⟩).trans
    ((Token.reaches_next _).trans (hprologue.reaches (Token.isRead_next _)))
  rw [Nat.zero_add] at hoffset
  dsimp only at hpre
  have hbegins : beginsToken v.start.chars = true := hv ▸ beginsToken_skipGap _ _ _ _
  have hedits : ∀ e ∈ (Typing.concat typings).draft.edits,
      e.LeavesBeginning (byteLength pre) v.start.chars := by
    intro e he
    obtain ⟨draft, hdraft, he⟩ := List.mem_flatMap.mp he
    obtain ⟨typing, htyping, rfl⟩ := List.mem_map.mp hdraft
    obtain ⟨node, hnode, hcall⟩ := exists_of_forall₂_right (forall₂_of_mapM htypings) htyping
    rw [← hoffset]
    exact leavesBeginning_helperCall (htext.trans hpre) hoffset.symm
      (agrees_of_mem_preorder hitems hnode) hcall he
  constructor
  · exact text_of_importDraft fun e he => (hedits e he).stop_pos
  · exact head_applyEdits hpre (hpre ▸ hprologue) rfl hbegins hedits

/-- **The head of a file stays in force exactly if nothing is imported, or there is none.**
What a file whose fixtures are typed begins with are the imports that were missing; behind
them comes the file with its own head.  So the line that names an interpreter is still the
first one exactly if there are no such imports, or no such line; and the directives are
still directives exactly if there are no such imports, or no directives. -/
theorem head_of_typeFixtures {context : Context} {file : SourceFile} {outcome : Outcome}
    (h : typeFixtures context file = .ok outcome)
    (hmark : file.text.toList.head? ≠ some '\uFEFF') :
    ∃ added body, addedImports context file = .ok added ∧
      outcome.text.toList = importText added ++ body ∧
      interpreterLine? body = interpreterLine? file.text.toList ∧
      directives body = directives file.text.toList ∧
      (interpreterLine? outcome.text.toList = interpreterLine? file.text.toList ↔
        added = [] ∨ interpreterLine? file.text.toList = none) ∧
      (directives outcome.text.toList = directives file.text.toList ↔
        added = [] ∨ directives file.text.toList = []) := by
  obtain ⟨added, body, hadded, htext, hline, hdirectives⟩ := exists_body_of_typeFixtures h hmark
  refine ⟨added, body, hadded, htext, hline, hdirectives, ?_⟩
  rw [htext]
  cases added with
  | nil => simp [importText, hline, hdirectives]
  | cons operation later =>
      obtain ⟨rest, hrest⟩ := importText_cons operation later
      obtain ⟨hnone, hnil⟩ := head_of_word (c := 'i') (by decide) (rest ++ body)
      rw [hrest, List.cons_append, hnone, hnil]
      simp only [reduceCtorEq, false_or]
      exact ⟨eq_comm, eq_comm⟩

/-! ### Runs -/

/-- The operations whose types a file lacks, and what is drafted for its calls. -/
def typedParts? (file : SourceFile) : Option (List String × Draft) := do
  let source ← file.parse.toOption
  let typings ← (source.script.preorder.mapM (helperCall {} file.language source)).toOption
  let typing := Typing.concat typings
  return (missingImports (importedNames source) typing.operations, typing.draft)

lemma exists_of_typedParts? {file : SourceFile} {added : List String} {draft : Draft}
    (h : typedParts? file = some (added, draft)) (hstops : ∀ e ∈ draft.edits, 0 < e.span.stop)
    (hsorted : (acceptedEdits file.chars draft.edits).Pairwise fun a b => a.precedes b = true) :
    ∃ outcome, typeFixtures {} file = .ok outcome ∧ addedImports {} file = .ok added ∧
      outcome.text.toList =
        importText added ++ splice 0 file.chars (acceptedEdits file.chars draft.edits) := by
  simp only [typedParts?, Option.bind_eq_bind, Option.bind_eq_some_iff, Option.pure_def,
    Option.some.injEq, Prod.mk.injEq] at h
  obtain ⟨source, hparse, typings, htypings, rfl, rfl⟩ := h
  have hparse := eq_ok_of_toOption hparse
  have htypings := eq_ok_of_toOption htypings
  obtain ⟨htyped, hadded⟩ := typeFixtures_of_parse hparse htypings
  refine ⟨_, htyped, hadded, ?_⟩
  rw [text_of_importDraft fun e he _ => hstops e he, applyEdits_text_of_pairwise hsorted,
    String.toList_ofList]
  rfl

/-- A script with a directive and a call of a test helper, whose type is imported. -/
def scriptWithImport : SourceFile :=
  ⟨"'a';import\x7bQRawResponse\x7dfrom'b';" ++ "createTestEnv(\x7bquery:graphql" ++
    "`query Q\x7ba\x7d`,defaultData:\x7b\x7d\x7d)", .typeScript⟩

/-- Nothing is imported, so the directive is still one, though the script is another. -/
theorem directive_of_scriptWithImport_stays :
    ∃ outcome, typeFixtures {} scriptWithImport = .ok outcome ∧
      scriptWithImport.text.toList.head? ≠ some '\uFEFF' ∧
      addedImports {} scriptWithImport = .ok [] ∧ outcome.text ≠ scriptWithImport.text ∧
      interpreterLine? outcome.text.toList = none ∧ directives outcome.text.toList = ["'a'"] := by
  have hmark : scriptWithImport.text.toList.head? ≠ some '\uFEFF' := by decide
  have hcheck : (typedParts? scriptWithImport).any (fun p =>
      let accepted := acceptedEdits scriptWithImport.chars p.2.edits
      decide (p.1 = []) && decide (∀ e ∈ p.2.edits, 0 < e.span.stop) &&
        decide (accepted.Pairwise fun a b => a.precedes b = true) &&
        decide (splice 0 scriptWithImport.chars accepted ≠ scriptWithImport.chars)) = true := by
    decide +kernel
  obtain ⟨⟨added, draft⟩, hparts, hholds⟩ := Option.any_eq_true _ _ |>.mp hcheck
  simp only [Bool.and_eq_true, decide_eq_true_eq] at hholds
  obtain ⟨⟨⟨rfl, hstops⟩, hsorted⟩, hchanged⟩ := hholds
  obtain ⟨outcome, htyped, hadded, htext⟩ := exists_of_typedParts? hparts hstops hsorted
  obtain ⟨added, body, hadded', -, -, -, hline, hdirectives⟩ := head_of_typeFixtures htyped hmark
  cases hadded.symm.trans hadded'
  refine ⟨outcome, htyped, hmark, hadded, fun hsame => hchanged ?_, ?_, ?_⟩
  · rw [hsame] at htext
    exact htext.symm
  · rw [hline.mpr (.inl rfl)]
    decide
  · rw [hdirectives.mpr (.inl rfl)]
    decide +kernel

/-- A script with an interpreter, a directive and a call of a test helper. -/
def scriptWithHead : SourceFile :=
  ⟨"#!x\n'a';createTestEnv" ++ "(\x7bquery:graphql`query Q\x7ba\x7d`" ++
    ",defaultData:\x7b\x7d\x7d)", .typeScript⟩

/-- Neither is in force where the import stands on top, and the text is no script anymore. -/
theorem imports_stand_before_interpreter_and_directive :
    ∃ outcome, typeFixtures {} scriptWithHead = .ok outcome ∧
      interpreterLine? scriptWithHead.chars = some ['#', '!', 'x'] ∧
      directives scriptWithHead.chars = ["'a'"] ∧
      interpreterLine? outcome.text.toList = none ∧ directives outcome.text.toList = [] ∧
      ∃ e, parseModule .typeScript outcome.text.toList = .error e := by
  have hcheck : (typedParts? scriptWithHead).any (fun p =>
      let accepted := acceptedEdits scriptWithHead.chars p.2.edits
      let result := importText p.1 ++ splice 0 scriptWithHead.chars accepted
      decide (∀ e ∈ p.2.edits, 0 < e.span.stop) &&
        decide (accepted.Pairwise fun a b => a.precedes b = true) &&
        decide (interpreterLine? result = none) && decide (directives result = []) &&
        (parseModule .typeScript result).toOption.isNone) = true := by
    decide +kernel
  obtain ⟨⟨added, draft⟩, hparts, hholds⟩ := Option.any_eq_true _ _ |>.mp hcheck
  simp only [Bool.and_eq_true, decide_eq_true_eq] at hholds
  obtain ⟨⟨⟨⟨hstops, hsorted⟩, hline⟩, hdirectives⟩, hparse⟩ := hholds
  obtain ⟨outcome, htyped, -, htext⟩ := exists_of_typedParts? hparts hstops hsorted
  rw [← htext] at hline hdirectives hparse
  refine ⟨outcome, htyped, by decide, by decide +kernel, hline, hdirectives, ?_⟩
  cases hresult : parseModule .typeScript outcome.text.toList with
  | error e => exact ⟨e, rfl⟩
  | ok script =>
      rw [hresult] at hparse
      cases hparse

end GraphMigrate
