/-
Values that are written and read again.

The text of a value without numbers is read as that value, whatever stands
behind it: a string ends with its quote, a list and an object with their
bracket, and a word with its last letter.  An object is read from the front,
so a key in it is read as long as everything in front of it is.

* `quoted?_escape`, `string?_quote`: strings;
* `items?_intercalate`: items with commas between them;
* `isPlain`: values without numbers that are nested at most to a depth;
* `value?_written`, `read?_written`: **the text of such a value is read as the
  value**;
* `key_mem_of_read?`: **a key behind such members is read with them**.
-/
import GraphMigrate.Data.Json
import Mathlib.Tactic

namespace GraphMigrate.Json

/-! ### Strings -/

lemma hexValue?_hexDigit : ∀ d < 16, hexValue? (hexDigit d) = some d := by decide

lemma numbered?_hexDigit {c : Char} (h : c.toNat < 32) (rest : List Char) :
    numbered? ('0' :: '0' :: hexDigit (c.toNat / 16) :: hexDigit (c.toNat % 16) :: rest) =
      some (c, rest) := by
  have hunit : unit? '0' '0' (hexDigit (c.toNat / 16)) (hexDigit (c.toNat % 16)) =
      some c.toNat := by
    rw [unit?, hexValue?_hexDigit _ (by omega), hexValue?_hexDigit _ (by omega)]
    change some (0 * 4096 + 0 * 256 + c.toNat / 16 * 16 + c.toNat % 16) = _
    congr 1
    omega
  rw [numbered?, hunit]
  change (if _ then _ else if _ then _ else some (Char.ofNat c.toNat, rest)) = _
  rw [if_neg (by omega), if_neg (by omega), Char.ofNat_toNat]

/-- A character is read from its written form, and the string goes on behind
it. -/
lemma quoted?_escape (bound : ℕ) (c : Char) (rest : List Char) :
    quoted? (bound + 1) (escape c ++ rest) =
      (quoted? bound rest).map fun (content, rest) => (c :: content, rest) := by
  have hsplit (e : Char) (cs : List Char) (h : escaped? cs = some (e, rest)) :
      quoted? (bound + 1) ('\\' :: cs) =
        (quoted? bound rest).map fun (content, rest) => (e :: content, rest) := by
    rw [quoted?, if_neg (by decide), if_pos rfl, h]
    change (quoted? bound rest).bind (fun (content, rest) => some (e :: content, rest)) = _
    cases quoted? bound rest <;> rfl
  rw [escape]
  split_ifs with hquote hbackslash hfeed hreturn htab hback hform hcontrol
  · subst hquote
    exact hsplit '"' ('"' :: rest) rfl
  · subst hbackslash
    exact hsplit '\\' ('\\' :: rest) rfl
  · subst hfeed
    exact hsplit '\n' ('n' :: rest) rfl
  · subst hreturn
    exact hsplit '\r' ('r' :: rest) rfl
  · subst htab
    exact hsplit '\t' ('t' :: rest) rfl
  · refine hsplit c ('b' :: rest) ?_
    rw [← Char.ofNat_toNat c, hback]
    rfl
  · refine hsplit c ('f' :: rest) ?_
    rw [← Char.ofNat_toNat c, hform]
    rfl
  · exact hsplit c ('u' :: '0' :: '0' :: _ :: _ :: rest) (numbered?_hexDigit hcontrol rest)
  · rw [List.singleton_append, quoted?, if_neg hquote, if_neg hbackslash, if_neg hcontrol]
    cases quoted? bound rest <;> rfl

lemma quoted?_flatMap_escape {bound : ℕ} (content rest : List Char) (h : content.length < bound) :
    quoted? bound (content.flatMap escape ++ '"' :: rest) = some (content, rest) := by
  induction content generalizing bound with
  | nil =>
      obtain ⟨bound, rfl⟩ := Nat.exists_eq_add_one_of_ne_zero (Nat.ne_zero_of_lt h)
      rw [List.flatMap_nil, List.nil_append, quoted?, if_pos rfl]
  | cons c content ih =>
      obtain ⟨bound, rfl⟩ := Nat.exists_eq_add_one_of_ne_zero (Nat.ne_zero_of_lt h)
      rw [List.flatMap_cons, List.append_assoc, quoted?_escape, ih (by simpa using h)]
      rfl

lemma toList_quote (content : String) :
    (quote content).toList = '"' :: (content.toList.flatMap escape ++ ['"']) := by
  rw [quote, String.toList_ofList, List.cons_append]

lemma escape_ne_nil (c : Char) : escape c ≠ [] := by
  rw [escape]
  split_ifs <;> exact List.cons_ne_nil _ _

lemma length_le_length_flatMap_escape (content : List Char) :
    content.length ≤ (content.flatMap escape).length := by
  induction content with
  | nil => exact le_rfl
  | cons c content ih =>
      have := List.length_pos_iff.mpr (escape_ne_nil c)
      rw [List.flatMap_cons, List.length_append, List.length_cons]
      omega

/-- A string in quotes is read as its content. -/
lemma string?_quote (content : String) (rest : List Char) :
    string? (content.toList.flatMap escape ++ '"' :: rest) = some (content, rest) := by
  have hlength := length_le_length_flatMap_escape content.toList
  have hbound : content.toList.length <
      (content.toList.flatMap escape ++ '"' :: rest).length + 1 := by
    rw [List.length_append]
    omega
  rw [string?, quoted?_flatMap_escape _ _ hbound]
  simp

/-! ### Items -/

section Items

variable {α : Type} {close : Char} {item? : Read α} {text : α → List Char}

/-- A text whose first character is neither white space nor a closing mark. -/
def StartsItem (close : Char) (cs : List Char) : Prop :=
  ∃ c rest, cs = c :: rest ∧ isGap c = false ∧ c ≠ close

lemma skipGap_cons {c : Char} (h : isGap c = false) (rest : List Char) :
    skipGap (c :: rest) = c :: rest := by
  rw [skipGap, List.dropWhile_cons_of_neg (by simpa using h)]

lemma skipGap_append {cs : List Char} (h : StartsItem close cs) (rest : List Char) :
    skipGap (cs ++ rest) = cs ++ rest := by
  obtain ⟨c, later, rfl, hc, -⟩ := h
  rw [List.cons_append, skipGap_cons hc]

lemma items?_comma {bound : ℕ} {a : α} {cs : List Char} (hstart : StartsItem close cs)
    (hitem : ∀ rest, item? (cs ++ rest) = some (a, rest)) (more : List Char) :
    items? close item? (bound + 1) (cs ++ ',' :: more) =
      (items? close item? bound more).map fun (later, final) => (a :: later, final) := by
  rw [items?, skipGap_append hstart, hitem]
  change (items? close item? bound more).bind (fun (later, final) => some (a :: later, final)) = _
  cases items? close item? bound more <;> rfl

lemma items?_close {bound : ℕ} {a : α} {cs : List Char} (hclose : isGap close = false)
    (hcomma : close ≠ ',') (hstart : StartsItem close cs)
    (hitem : ∀ rest, item? (cs ++ rest) = some (a, rest)) (rest : List Char) :
    items? close item? (bound + 1) (cs ++ close :: rest) = some ([a], rest) := by
  rw [items?, skipGap_append hstart, hitem]
  simp only [bind, Option.bind_some, skipGap_cons hclose, if_true]

/-- Items with commas between them are read up to the closing mark. -/
lemma items?_intercalate {bound : ℕ} {items : List α} (hclose : isGap close = false)
    (hcomma : close ≠ ',') (hne : items ≠ []) (hbound : items.length ≤ bound)
    (hstart : ∀ a ∈ items, StartsItem close (text a))
    (hitem : ∀ a ∈ items, ∀ rest, item? (text a ++ rest) = some (a, rest)) (rest : List Char) :
    items? close item? bound ([','].intercalate (items.map text) ++ close :: rest) =
      some (items, rest) := by
  induction items generalizing bound with
  | nil => exact absurd rfl hne
  | cons a items ih =>
      rw [List.length_cons] at hbound
      obtain ⟨bound, rfl⟩ := Nat.exists_eq_add_one_of_ne_zero (n := bound) (by omega)
      rw [List.forall_mem_cons] at hstart hitem
      cases items with
      | nil =>
          rw [List.map_singleton, List.intercalate_singleton]
          exact items?_close hclose hcomma hstart.1 hitem.1 rest
      | cons b items =>
          rw [List.map_cons, List.map_cons, List.intercalate_cons_cons, List.append_assoc,
            List.append_assoc, List.singleton_append, items?_comma hstart.1 hitem.1,
            ← List.map_cons, ih (List.cons_ne_nil _ _) (by omega) hstart.2 hitem.2]
          rfl

lemma length_le_length_intercalate {items : List α} (h : ∀ a ∈ items, text a ≠ []) :
    items.length ≤ ([','].intercalate (items.map text)).length := by
  induction items with
  | nil => exact le_rfl
  | cons a items ih =>
      rw [List.forall_mem_cons] at h
      have ha := List.length_pos_iff.mpr h.1
      cases items with
      | nil =>
          rw [List.map_singleton, List.intercalate_singleton]
          exact ha
      | cons b items =>
          have := ih h.2
          rw [List.map_cons, List.map_cons, List.intercalate_cons_cons, List.length_append,
            List.length_append, ← List.map_cons, List.length_cons]
          omega

/-- Items in brackets are read. -/
lemma bracketed?_intercalate {items : List α} (hclose : isGap close = false) (hcomma : close ≠ ',')
    (hstart : ∀ a ∈ items, StartsItem close (text a))
    (hitem : ∀ a ∈ items, ∀ rest, item? (text a ++ rest) = some (a, rest)) (rest : List Char) :
    bracketed? close item? ([','].intercalate (items.map text) ++ close :: rest) =
      some (items, rest) := by
  cases items with
  | nil =>
      rw [List.map_nil, List.intercalate_nil, List.nil_append, bracketed?, skipGap_cons hclose]
      exact if_pos rfl
  | cons a items =>
      have hne : ∀ b ∈ a :: items, text b ≠ [] := fun b hb => by
        obtain ⟨c, later, htext, -⟩ := hstart b hb
        rw [htext]
        exact List.cons_ne_nil _ _
      have hbound : (a :: items).length ≤
          ([','].intercalate ((a :: items).map text) ++ close :: rest).length + 1 := by
        have hlength := length_le_length_intercalate hne
        rw [List.length_append]
        omega
      have hitems := items?_intercalate hclose hcomma (List.cons_ne_nil _ _) hbound hstart hitem
        rest
      -- the first item does not start with the closing mark
      obtain ⟨c, more, htext, hc, hother⟩ : StartsItem close
          ([','].intercalate ((a :: items).map text) ++ close :: rest) := by
        obtain ⟨c, later, htext, hc, hother⟩ := hstart a List.mem_cons_self
        cases items with
        | nil => exact ⟨c, later ++ close :: rest, by simp [htext], hc, hother⟩
        | cons b items =>
            exact ⟨c, _, by
              rw [List.map_cons, List.map_cons, List.intercalate_cons_cons, htext]
              rfl, hc, hother⟩
      rw [htext] at hitems ⊢
      rw [bracketed?, skipGap_cons hc]
      simp only [if_neg hother]
      exact hitems

end Items

/-! ### Values -/

/-- Values without numbers that are nested at most to a depth. -/
def isPlain : ℕ → Data → Bool
  | 0, _ => false
  | _ + 1, .number _ => false
  | depth + 1, .list items => items.all (isPlain depth)
  | depth + 1, .object members => members.all fun member => isPlain depth member.2
  | _ + 1, _ => true

lemma writtenItems_eq_map (items : List Data) : writtenItems items = items.map written := by
  induction items with
  | nil => rfl
  | cons item items ih => rw [writtenItems, ih, List.map_cons]

lemma writtenMembers_eq_map (members : List (String × Data)) :
    writtenMembers members = members.map writtenMember := by
  induction members with
  | nil => rfl
  | cons member members ih => rw [writtenMembers, ih, List.map_cons]

lemma toList_written_list (items : List Data) :
    (written (.list items)).toList =
      '[' :: ([','].intercalate (items.map fun item => (written item).toList) ++ [']']) := by
  rw [written, writtenItems_eq_map]
  simp [String.toList_intercalate, Function.comp_def]

lemma toList_written_object (members : List (String × Data)) :
    (written (.object members)).toList =
      '\x7b' :: ([','].intercalate (members.map fun member => (writtenMember member).toList) ++
        ['\x7d']) := by
  rw [written, writtenMembers_eq_map]
  simp [String.toList_intercalate, Function.comp_def]

lemma toList_writtenMember (key : String) (value : Data) :
    (writtenMember (key, value)).toList =
      '"' :: (key.toList.flatMap escape ++ '"' :: ':' :: (written value).toList) := by
  rw [writtenMember]
  simp [toList_quote]

/-- The text of a value without numbers starts with a character that counts. -/
lemma startsItem_written {depth : ℕ} {data : Data} (h : isPlain depth data) :
    StartsItem ']' (written data).toList := by
  cases depth with
  | zero => cases h
  | succ depth =>
      cases data with
      | null => exact ⟨'n', _, rfl, by decide⟩
      | bool value => cases value <;> exact ⟨_, _, rfl, by decide⟩
      | number text => cases h
      | string content => exact ⟨'"', _, toList_quote content, by decide⟩
      | list items => exact ⟨'[', _, toList_written_list items, by decide⟩
      | object members => exact ⟨'\x7b', _, toList_written_object members, by decide⟩

lemma member?_writtenMember {value? : Read Data} {key : String} {value : Data}
    (hstart : StartsItem ']' (written value).toList)
    (hvalue : ∀ rest, value? ((written value).toList ++ rest) = some (value, rest))
    (rest : List Char) :
    member? value? ((writtenMember (key, value)).toList ++ rest) = some ((key, value), rest) := by
  rw [toList_writtenMember, List.cons_append, List.append_assoc, List.cons_append, member?,
    string?_quote]
  simp only [bind, Option.bind_some, List.cons_append, skipGap_cons (c := ':') (by decide),
    skipGap_append hstart, hvalue]
  rfl

/-- The text of a member starts with its key. -/
lemma startsItem_writtenMember (member : String × Data) :
    StartsItem '\x7d' (writtenMember member).toList :=
  ⟨'"', _, toList_writtenMember member.1 member.2, by decide⟩

/-- **The text of a value without numbers is read as the value**, whatever
stands behind it. -/
theorem value?_written {depth : ℕ} {data : Data} (h : isPlain depth data) (rest : List Char) :
    value? depth ((written data).toList ++ rest) = some (data, rest) := by
  induction depth generalizing data rest with
  | zero => cases h
  | succ depth ih =>
      cases data with
      | null => rfl
      | bool value => cases value <;> rfl
      | number text => cases h
      | string content =>
          rw [written, toList_quote, List.cons_append, List.append_assoc, value?, if_pos rfl,
            List.singleton_append, string?_quote]
          rfl
      | list items =>
          have hitems : ∀ item ∈ items, isPlain depth item := List.all_eq_true.mp h
          rw [toList_written_list, List.cons_append, List.append_assoc, List.singleton_append,
            value?, if_neg (by decide), if_pos rfl,
            bracketed?_intercalate (by decide) (by decide)
              (fun item hitem => startsItem_written (hitems item hitem))
              (fun item hitem => ih (hitems item hitem))]
          rfl
      | object members =>
          have hmembers : ∀ member ∈ members, isPlain depth member.2 := List.all_eq_true.mp h
          rw [toList_written_object, List.cons_append, List.append_assoc, List.singleton_append,
            value?, if_neg (by decide), if_neg (by decide), if_pos rfl,
            bracketed?_intercalate (by decide) (by decide)
              (fun member _ => startsItem_writtenMember member)
              (fun member hmember => member?_writtenMember
                (startsItem_written (hmembers member hmember))
                (ih (hmembers member hmember)))]
          rfl

/-- A text that is a value without numbers is read as the value. -/
lemma read?_written {data : Data} (h : isPlain depthLimit data) :
    read? (written data).toList = some data := by
  have hvalue := value?_written h []
  have hskip := skipGap_append (startsItem_written h) []
  rw [List.append_nil] at hvalue hskip
  rw [read?, hskip, hvalue]
  rfl

/-! ### Keys of objects -/

section Keys

variable {key : String} {found : List (String × Data)} {final rest : List Char}

/-- The text of a member up to its colon. -/
def keyText (key : String) : List Char := '"' :: (key.toList.flatMap escape ++ ['"', ':'])

lemma toList_writtenMember_eq (key : String) (value : Data) :
    (writtenMember (key, value)).toList = keyText key ++ (written value).toList := by
  rw [toList_writtenMember, keyText]
  simp

lemma exists_of_items? {α : Type} {close : Char} {item? : Read α} {bound : ℕ} {cs : List Char}
    {items : List α} (h : items? close item? bound cs = some (items, final)) :
    ∃ a rest, item? (skipGap cs) = some (a, rest) ∧ a ∈ items := by
  cases bound with
  | zero => cases h
  | succ bound =>
      rw [items?] at h
      obtain ⟨⟨a, rest⟩, hitem, h⟩ := Option.bind_eq_some_iff.mp h
      refine ⟨a, rest, hitem, ?_⟩
      dsimp only at h
      split at h
      · obtain ⟨⟨later, _⟩, -, h⟩ := Option.bind_eq_some_iff.mp h
        cases h
        exact List.mem_cons_self
      · split at h
        · cases h
          exact List.mem_cons_self
        · cases h
      · cases h

/-- Whatever stands behind the colon, a member has the key in front of it. -/
lemma key_of_member? {value? : Read Data} {member : String × Data}
    (h : member? value? (keyText key ++ rest) = some (member, final)) : member.1 = key := by
  have htext : keyText key ++ rest =
      '"' :: (key.toList.flatMap escape ++ '"' :: ':' :: rest) := by
    simp [keyText]
  rw [htext, member?, string?_quote] at h
  simp only [bind, Option.bind_some, skipGap_cons (c := ':') (by decide)] at h
  obtain ⟨⟨value, _⟩, -, h⟩ := Option.bind_eq_some_iff.mp h
  cases h
  rfl

/-- A key behind members that can be read is read with them. -/
lemma key_mem_of_items? {depth bound : ℕ} {front : List (String × Data)}
    (hfront : ∀ member ∈ front, isPlain depth member.2)
    (h : items? '\x7d' (member? (value? depth)) bound
      (front.flatMap (fun member => (writtenMember member).toList ++ [',']) ++
        (keyText key ++ rest)) = some (found, final)) :
    key ∈ found.map (·.1) := by
  induction front generalizing bound found with
  | nil =>
      obtain ⟨member, _, hmember, hmem⟩ := exists_of_items? h
      rw [List.flatMap_nil, List.nil_append, keyText, List.cons_append,
        skipGap_cons (by decide), ← List.cons_append, ← keyText] at hmember
      exact List.mem_map.mpr ⟨member, hmem, key_of_member? hmember⟩
  | cons member front ih =>
      rw [List.forall_mem_cons] at hfront
      cases bound with
      | zero => cases h
      | succ bound =>
          rw [List.flatMap_cons, List.append_assoc, List.append_assoc, List.singleton_append,
            items?_comma (startsItem_writtenMember member)
              (member?_writtenMember (startsItem_written hfront.1)
                (value?_written hfront.1))] at h
          obtain ⟨⟨later, _⟩, hlater, h⟩ := Option.map_eq_some_iff.mp h
          cases h
          exact List.mem_cons_of_mem _ (ih hfront.2 hlater)

lemma exists_intercalate_cons {α : Type} (separator head : List α) (later : List (List α)) :
    ∃ tail, separator.intercalate (head :: later) = head ++ tail := by
  cases later with
  | nil => exact ⟨[], by rw [List.intercalate_singleton, List.append_nil]⟩
  | cons next later =>
      exact ⟨_, by rw [List.intercalate_cons_cons, List.append_assoc]⟩

lemma intercalate_append_cons {α β : Type} (separator : List α) (text : β → List α)
    (front : List β) (head : List α) (later : List (List α)) :
    separator.intercalate (front.map text ++ head :: later) =
      front.flatMap (fun b => text b ++ separator) ++ separator.intercalate (head :: later) := by
  induction front with
  | nil => rfl
  | cons b front ih =>
      obtain ⟨next, more, hnext⟩ : ∃ next more, front.map text ++ head :: later = next :: more := by
        cases front <;> exact ⟨_, _, rfl⟩
      rw [List.map_cons, List.cons_append, hnext, List.intercalate_cons_cons, ← hnext, ih,
        List.flatMap_cons, List.append_assoc, List.append_assoc, List.append_assoc]

/-- The text of an object up to the colon of one of its keys. -/
lemma exists_toList_written_object (front back : List (String × Data)) (key : String)
    (value : Data) :
    ∃ rest, (written (.object (front ++ (key, value) :: back))).toList =
      '\x7b' :: (front.flatMap (fun member => (writtenMember member).toList ++ [',']) ++
        (keyText key ++ rest)) := by
  obtain ⟨tail, htail⟩ := exists_intercalate_cons [','] (writtenMember (key, value)).toList
    (back.map fun member => (writtenMember member).toList)
  refine ⟨(written value).toList ++ (tail ++ ['\x7d']), ?_⟩
  rw [toList_written_object, List.map_append, List.map_cons, intercalate_append_cons, htail,
    toList_writtenMember_eq]
  simp only [List.append_assoc]

/-- **A key behind members that can be read is read with them**, whatever its
value is and whatever follows. -/
theorem key_mem_of_read? {front back : List (String × Data)} {value data : Data}
    (hfront : ∀ member ∈ front, isPlain (depthLimit - 1) member.2)
    (h : read? (written (.object (front ++ (key, value) :: back))).toList = some data) :
    ∃ members, data = .object members ∧ key ∈ members.map (·.1) := by
  obtain ⟨rest, htext⟩ := exists_toList_written_object front back key value
  rw [read?, htext, skipGap_cons (by decide), depthLimit, value?, if_neg (by decide),
    if_neg (by decide), if_pos rfl] at h
  obtain ⟨⟨_, _⟩, hvalue, h⟩ := Option.bind_eq_some_iff.mp h
  obtain ⟨⟨members, _⟩, hmembers, hobject⟩ := Option.bind_eq_some_iff.mp hvalue
  cases hobject
  obtain rfl : Data.object members = data := by
    dsimp only at h
    split at h
    · exact Option.some.inj h
    · cases h
  refine ⟨members, rfl, ?_⟩
  -- what stands behind the brace starts with the quote of a key
  obtain ⟨more, hmore⟩ : ∃ more,
      front.flatMap (fun member => (writtenMember member).toList ++ [',']) ++
        (keyText key ++ rest) = '"' :: more := by
    cases front with
    | nil => exact ⟨_, rfl⟩
    | cons member front =>
        rw [List.flatMap_cons, toList_writtenMember]
        exact ⟨_, rfl⟩
  rw [hmore, bracketed?, skipGap_cons (by decide)] at hmembers
  simp only [if_neg (show '"' ≠ '\x7d' by decide)] at hmembers
  rw [← hmore] at hmembers
  exact key_mem_of_items? hfront hmembers

end Keys

end GraphMigrate.Json
