/-
Scanning in front of what may change.

Where a token begins is seen from two characters, and a string ends at its quote.  So
a gap and a string that are scanned in one text are scanned in every text that has the
same characters up to there.

* `beginsToken`: whether a token begins, without a gap;
* `Token.next_append`: **the next token begins where it did**;
* `GoodEscape`: the escapes that a string may hold;
* `readQuoted_append`: **a string is read whatever stands behind it**.
-/
import GraphMigrate.Proofs.Script.Trivia
import GraphMigrate.Script.Grammar

namespace GraphMigrate.Script

/-! ### Gaps -/

/-- Whether a token begins with these characters, without a gap. -/
def beginsToken : List Char → Bool
  | [] => true
  | c :: cs => !isLineEnd c && !isGap c &&
    (c != '/' || cs.head? != some '/' && cs.head? != some '*')

lemma skipGap_of_beginsToken {cs : List Char} (h : beginsToken cs = true) (broken : Bool)
    (offset : Nat) : skipGap broken offset .code cs = (⟨offset, cs⟩, broken) := by
  cases cs with
  | nil => rfl
  | cons c cs =>
      simp only [beginsToken, Bool.and_eq_true, Bool.not_eq_true', Bool.or_eq_true,
        bne_iff_ne] at h
      obtain ⟨⟨hline, hgap⟩, hslash⟩ := h
      rw [skipGap, hline, hgap]
      · rfl
      · rintro rest rfl rfl
        exact hslash.elim (· rfl) fun h => h.1 rfl
      · rintro rest rfl rfl
        exact hslash.elim (· rfl) fun h => h.2 rfl

lemma beginsToken_skipGap (broken : Bool) (offset : Nat) (mode : GapMode) (cs : List Char) :
    beginsToken (skipGap broken offset mode cs).1.chars = true := by
  fun_induction skipGap broken offset mode cs with
  | case1 => rfl
  | case6 broken offset c cs hline hblock hend hgap =>
      simp only [beginsToken, Bool.and_eq_true, Bool.not_eq_true', Bool.or_eq_true, bne_iff_ne]
      refine ⟨⟨Bool.eq_false_of_not_eq_true hend, Bool.eq_false_of_not_eq_true hgap⟩,
        or_iff_not_imp_left.mpr fun hc => ?_⟩
      obtain rfl := not_not.mp hc
      refine ⟨fun h => ?_, fun h => ?_⟩
      · obtain ⟨rest, rfl⟩ := List.head?_eq_some_iff.mp h
        exact hline rest rfl rfl
      · obtain ⟨rest, rfl⟩ := List.head?_eq_some_iff.mp h
        exact hblock rest rfl rfl
  | _ => assumption

lemma head?_append_congr {r r' : List Char} (y : List Char) (h : r'.head? = r.head?) :
    (y ++ r').head? = (y ++ r).head? := by
  cases y with
  | nil => exact h
  | cons => rfl

/-- Whether a token begins is seen from two characters. -/
lemma beginsToken_append {y r r' : List Char} (hhead : r'.head? = r.head?)
    (hbegins : beginsToken r' = true) (h : beginsToken (y ++ r) = true) :
    beginsToken (y ++ r') = true := by
  cases y with
  | nil => exact hbegins
  | cons d y =>
      rw [List.cons_append, beginsToken, head?_append_congr y hhead]
      exact h

/-- A token that begins among characters that are kept begins there whatever stands
behind them. -/
lemma Token.next_append {x y r r' : List Char} {offset : Nat} (hr : r ≠ [])
    (hy : (next ⟨offset, x ++ r⟩).start.chars = y ++ r) (hbegins : beginsToken (y ++ r') = true) :
    (next ⟨offset, x ++ r'⟩).start = ⟨(next ⟨offset, x ++ r⟩).start.offset, y ++ r'⟩ ∧
      (next ⟨offset, x ++ r'⟩).broken = (next ⟨offset, x ++ r⟩).broken := by
  have hstart (cs : List Char) :
      (next ⟨offset, cs⟩).start = (skipGap false offset .code cs).1 := rfl
  have hbroken (cs : List Char) :
      (next ⟨offset, cs⟩).broken = (skipGap false offset .code cs).2 := rfl
  have hfound : beginsToken (y ++ r) = true := by
    rw [← hy, hstart]
    exact beginsToken_skipGap _ _ _ _
  have hne : (skipGap false offset .code (x ++ r)).1.chars ≠ [] := by
    rw [← hstart, hy]
    exact fun h => hr (List.append_eq_nil_iff.mp h).2
  obtain ⟨gap, hgap, hx⟩ := exists_append_of_skipGap hne
  rw [← hstart, hy, ← List.append_assoc] at hx
  obtain rfl := List.append_cancel_right hx
  have hskip := skipGap_isTriviaFrom hgap false offset
  rw [hstart, hstart, hbroken, hbroken, List.append_assoc, List.append_assoc, hskip, hskip,
    skipGap_of_beginsToken hfound, skipGap_of_beginsToken hbegins]
  exact ⟨rfl, rfl⟩

/-! ### Strings -/

/-- Characters that stand for themselves in a string. -/
def isOrdinary (quote c : Char) : Bool := c != quote && c != '\\' && c != '\n' && c != '\r'

lemma readQuoted_cons {c : Char} (hc : c ≠ '\\') (quote : Char) (offset : Nat) (cs : List Char) :
    readQuoted quote offset (c :: cs) =
      if c = quote then (.quoted, ⟨offset + 1, cs⟩)
      else if c = '\n' ∨ c = '\r' then (.quoted, ⟨offset, c :: cs⟩)
      else readQuoted quote (offset + c.utf8Size) cs := by
  rw [readQuoted]
  · exact fun _ h => absurd h hc
  · exact fun _ _ h => absurd h hc

lemma readQuoted_ordinary {quote : Char} {p : List Char} (h : ∀ c ∈ p, isOrdinary quote c = true)
    (offset : Nat) (cs : List Char) :
    readQuoted quote offset (p ++ cs) = readQuoted quote (offset + byteLength p) cs := by
  induction p generalizing offset with
  | nil => rfl
  | cons c p ih =>
      rw [List.forall_mem_cons] at h
      obtain ⟨hc, hp⟩ := h
      simp only [isOrdinary, Bool.and_eq_true, bne_iff_ne] at hc
      obtain ⟨⟨⟨hquote, hescape⟩, hline⟩, hreturn⟩ := hc
      rw [List.cons_append, readQuoted_cons hescape, if_neg hquote,
        if_neg (by simp [hline, hreturn]), ih hp, byteLength, Nat.add_assoc]

lemma isOrdinary_of_hexValue? {quote c : Char} (hquote : quote = '"' ∨ quote = '\'')
    (h : (hexValue? c).isSome) : isOrdinary quote c = true := by
  have hne (d : Char) (hd : hexValue? d = none) : c ≠ d := by
    rintro rfl
    rw [hd] at h
    cases h
  simp only [isOrdinary, Bool.and_eq_true, bne_iff_ne]
  refine ⟨⟨⟨?_, hne _ rfl⟩, hne _ rfl⟩, hne _ rfl⟩
  rcases hquote with rfl | rfl <;> exact hne _ rfl

lemma hexValue?_of_hexNumber? {digits : List Char} (h : (hexNumber? digits).isSome) :
    ∀ c ∈ digits, (hexValue? c).isSome := by
  let step (n : Option Nat) (c : Char) : Option Nat :=
    n.bind fun n => (hexValue? c).map fun digit => n * 16 + digit
  have hnone (ds : List Char) : ds.foldl step none = none := by
    induction ds with
    | nil => rfl
    | cons d ds ih => exact ih
  have hfold (ds : List Char) (n : Nat) (hds : (ds.foldl step (some n)).isSome) :
      ∀ c ∈ ds, (hexValue? c).isSome := by
    induction ds generalizing n with
    | nil => exact List.forall_mem_nil _
    | cons d ds ih =>
        rw [List.foldl_cons] at hds
        cases hd : hexValue? d with
        | none =>
            have hstep : step (some n) d = none := by simp [step, hd]
            rw [hstep, hnone] at hds
            cases hds
        | some m =>
            have hstep : step (some n) d = some (n * 16 + m) := by simp [step, hd]
            rw [hstep] at hds
            exact List.forall_mem_cons.mpr ⟨hd ▸ rfl, ih _ hds⟩
  have hstep : (fun n c => do return (← n) * 16 + (← hexValue? c)) = step := by
    funext n c
    simp only [step]
    cases n <;> cases hexValue? c <;> rfl
  rw [hexNumber?, hstep] at h
  split at h
  · cases h
  · exact hfold digits 0 h

/-- The escapes that are well formed, by what stands behind their backslash. -/
inductive GoodEscape : List Char → Prop
  | byte (a b : Char) (cs : List Char) (h : (hexNumber? [a, b]).isSome) :
      GoodEscape ('x' :: ([a, b] ++ cs))
  | braced (digits cs : List Char) (hplain : '\x7d' ∉ digits)
      (h : (hexNumber? digits).any (· ≤ 0x10FFFF) = true) :
      GoodEscape ('u' :: ('\x7b' :: digits ++ ['\x7d'] ++ cs))
  | code (a b c d : Char) (cs : List Char) (ha : a ≠ '\x7b')
      (h : (hexNumber? [a, b, c, d]).isSome) : GoodEscape ('u' :: ([a, b, c, d] ++ cs))
  | other (c : Char) (cs : List Char) (hx : c ≠ 'x') (hu : c ≠ 'u') : GoodEscape (c :: cs)

lemma goodEscape_of_isBadEscape {c : Char} {cs : List Char} (h : isBadEscape (c :: cs) = false) :
    GoodEscape (c :: cs) := by
  rw [isBadEscape.eq_def] at h
  split at h
  next a b w heq =>
    obtain ⟨rfl, rfl⟩ := List.cons.inj heq
    exact .byte a b w (by simpa using h)
  next => cases h
  next w heq =>
    obtain ⟨rfl, rfl⟩ := List.cons.inj heq
    rw [Bool.or_eq_false_iff] at h
    obtain ⟨hclosed, hnumber⟩ := h
    have hw := List.takeWhile_append_dropWhile (p := (· != '\x7d')) (l := w)
    have hplain : '\x7d' ∉ w.takeWhile (· != '\x7d') := fun hmem => by
      simpa using List.mem_takeWhile_imp hmem
    generalize w.takeWhile (· != '\x7d') = digits at hw hclosed hnumber hplain
    cases hrest : w.dropWhile (· != '\x7d') with
    | nil =>
        rw [hrest, List.append_nil] at hw
        rw [hw, List.drop_length] at hclosed
        cases hclosed
    | cons d rest =>
        have hd : d = '\x7d' := by
          have hhead := List.head_dropWhile_not (p := (· != '\x7d')) (l := w) (by simp [hrest])
          simpa [hrest] using hhead
        have hgood := GoodEscape.braced digits rest hplain (by simpa using hnumber)
        rw [← hw, hrest, hd]
        simpa using hgood
  next a b d e w hbrace heq =>
    obtain ⟨rfl, rfl⟩ := List.cons.inj heq
    exact .code a b d e w hbrace (by simpa using h)
  next => cases h
  next h1 h2 h3 h4 h5 =>
    refine .other c cs ?_ ?_
    · rintro rfl
      exact h2 cs rfl
    · rintro rfl
      exact h5 cs rfl

lemma isBadEscape_of_goodEscape {cs : List Char} (h : GoodEscape cs) : isBadEscape cs = false := by
  cases h with
  | byte a b cs h => simpa [isBadEscape] using h
  | braced digits cs hplain h =>
      have htake : (digits ++ '\x7d' :: cs).takeWhile (· != '\x7d') = digits := by
        rw [List.takeWhile_append_of_pos]
        · simp
        · rintro d hd
          exact bne_iff_ne.mpr fun heq => hplain (heq ▸ hd)
      simp [isBadEscape, htake, h]
  | code a b c d cs ha h =>
      rw [List.cons_append, List.cons_append, List.cons_append, List.cons_append, isBadEscape]
      · simpa using h
      · exact fun h => absurd h ha
  | other c cs hx hu =>
      rw [isBadEscape.eq_def]
      split <;> simp_all

/-- What is left of a longer text is left of what is kept. -/
lemma exists_append_of_length_le {p x r cs : List Char} (h : x ++ r = p ++ cs)
    (hlong : r.length ≤ cs.length) : ∃ x', x = p ++ x' ∧ cs = x' ++ r := by
  rcases List.append_eq_append_iff.mp h with ⟨more, hp, hr⟩ | ⟨more, hx, hcs⟩
  · have hlength := congrArg List.length hr
    rw [List.length_append] at hlength
    obtain rfl := List.length_eq_zero_iff.mp (Nat.le_zero.mp (by omega : more.length ≤ 0))
    exact ⟨[], by rw [hp]; simp, hr.symm⟩
  · exact ⟨more, hx, hcs⟩

/-- Ordinary characters are passed, so they are among those that are kept. -/
lemma exists_append_of_ordinary {quote : Char} {cs r p w : List Char} {offset : Nat}
    {later : Cursor} {kind : TokenKind} (hsize : quote.utf8Size = 1)
    (hread : readQuoted quote offset (cs ++ r) = (kind, later))
    (hlong : r.length ≤ later.chars.length) (hp : ∀ d ∈ p, isOrdinary quote d = true)
    (happend : cs ++ r = p ++ w) : ∃ more, cs = p ++ more := by
  obtain ⟨passed, hpassed, -⟩ := readQuoted_reaches quote (offset + byteLength p) w hsize
  rw [happend, readQuoted_ordinary hp] at hread
  rw [hread] at hpassed
  have hlength := congrArg List.length hpassed
  simp only [List.length_append] at hlength
  obtain ⟨more, hmore, -⟩ := exists_append_of_length_le happend (by omega)
  exact ⟨more, hmore⟩

/-- An escape that is well formed is seen from the characters up to where the string
goes on. -/
lemma goodEscape_append {quote c : Char} {cs r : List Char} {offset : Nat} {later : Cursor}
    {kind : TokenKind} (r' : List Char) (hquote : quote = '"' ∨ quote = '\'')
    (h : GoodEscape (c :: (cs ++ r)))
    (hread : readQuoted quote offset (cs ++ r) = (kind, later))
    (hlong : r.length ≤ later.chars.length) : GoodEscape (c :: (cs ++ r')) := by
  have hsize : quote.utf8Size = 1 := by rcases hquote with rfl | rfl <;> rfl
  have hkept {p w : List Char} (hp : ∀ d ∈ p, isOrdinary quote d = true)
      (happend : cs ++ r = p ++ w) : ∃ more, cs = p ++ more :=
    exists_append_of_ordinary hsize hread hlong hp happend
  have hhex {ds : List Char} (h : (hexNumber? ds).isSome) :
      ∀ d ∈ ds, isOrdinary quote d = true := fun d hd =>
    isOrdinary_of_hexValue? hquote (hexValue?_of_hexNumber? h d hd)
  have hbrace (d : Char) (hd : d = '\x7b' ∨ d = '\x7d') : isOrdinary quote d = true := by
    rcases hquote with rfl | rfl <;> rcases hd with rfl | rfl <;> rfl
  generalize happend : cs ++ r = w at h
  cases h with
  | byte a b w h =>
      obtain ⟨more, rfl⟩ := hkept (hhex h) happend
      exact .byte a b (more ++ r') h
  | braced digits w hplain h =>
      have hdigits : (hexNumber? digits).isSome := by
        cases hnumber : hexNumber? digits with
        | none => rw [hnumber] at h; cases h
        | some n => rfl
      have hordinary : ∀ d ∈ '\x7b' :: digits ++ ['\x7d'], isOrdinary quote d = true := by
        simp only [List.cons_append, List.mem_cons, List.mem_append, List.not_mem_nil, or_false]
        rintro d (hd | hd | hd)
        · exact hbrace d (.inl hd)
        · exact hhex hdigits d hd
        · exact hbrace d (.inr hd)
      obtain ⟨more, rfl⟩ := hkept hordinary happend
      rw [List.append_assoc]
      exact .braced digits (more ++ r') hplain h
  | code a b c d w ha h =>
      obtain ⟨more, rfl⟩ := hkept (hhex h) happend
      exact .code a b c d (more ++ r') ha h
  | other c w hx hu => exact .other c _ hx hu

/-- A string that ends among characters that are kept is read whatever stands behind
them. -/
lemma readQuoted_append {quote : Char} {x z r r' : List Char} {offset : Nat} {later : Cursor}
    (hquote : quote = '"' ∨ quote = '\'') (hr : r ≠ []) (hhead : r'.head? = r.head?)
    (hbegins : beginsToken r = true) (h : readQuoted quote offset (x ++ r) = (.quoted, later))
    (hlater : later.chars = z ++ r) :
    readQuoted quote offset (x ++ r') = (.quoted, ⟨later.offset, z ++ r'⟩) := by
  have hsize : quote.utf8Size = 1 := by rcases hquote with rfl | rfl <;> rfl
  have hplain : quote ≠ '\\' := by rcases hquote with rfl | rfl <;> decide
  have hlong {offset : Nat} {cs : List Char} (h : readQuoted quote offset cs = (.quoted, later)) :
      r.length ≤ cs.length := by
    obtain ⟨passed, hpassed, -⟩ := readQuoted_reaches quote offset cs hsize
    rw [h, hlater] at hpassed
    have hlength := congrArg List.length hpassed
    simp only [List.length_append] at hlength
    omega
  generalize hcs : x ++ r = cs at h
  fun_induction readQuoted quote offset cs generalizing x with
  | case1 => exact absurd (List.append_eq_nil_iff.mp hcs).2 hr
  | case2 offset cs ih =>
      obtain ⟨x, rfl, rfl⟩ := exists_append_of_length_le (p := ['\\', '\r', '\n']) hcs (hlong h)
      exact ih rfl h
  | case3 => cases h
  | case4 offset c cs hreturn hgood ih =>
      obtain ⟨x, rfl, rfl⟩ := exists_append_of_length_le (p := ['\\', c]) hcs (hlong h)
      have hlater' : r.length ≤ later.chars.length := by rw [hlater]; simp
      have hgood' := isBadEscape_of_goodEscape (goodEscape_append r' hquote
        (goodEscape_of_isBadEscape (Bool.eq_false_of_not_eq_true hgood)) h hlater')
      rw [List.append_assoc, List.cons_append, List.cons_append, List.nil_append, readQuoted,
        if_neg (by simp [hgood'])]
      · exact ih rfl h
      · intro rest hc hrest
        have hsame : (x ++ r).head? = some '\n' := by
          rw [← head?_append_congr x hhead, hrest]
          rfl
        obtain ⟨rest, hrest⟩ := List.head?_eq_some_iff.mp hsame
        exact hreturn rest hc hrest
  | case5 offset cs hescape hreturn =>
      cases h
      dsimp only at hlater
      subst hlater
      rw [← List.cons_append] at hcs
      obtain rfl := List.append_cancel_right hcs
      rw [List.cons_append, readQuoted_cons hplain, if_pos rfl]
  | case6 offset c cs hescape hreturn hne hline =>
      cases h
      obtain rfl := List.append_cancel_right (hcs.trans hlater)
      cases x with
      | nil =>
          -- a line end begins no token
          obtain rfl := List.nil_append r ▸ hcs
          rcases hline with rfl | rfl <;> cases hbegins
      | cons d x =>
          obtain ⟨rfl, rfl⟩ := List.cons.inj hcs
          have hd : d ≠ '\\' := by rcases hline with rfl | rfl <;> decide
          rw [List.cons_append, readQuoted_cons hd, if_neg hne, if_pos hline]
  | case7 offset c cs hescape hreturn hne hline ih =>
      obtain ⟨x, rfl, rfl⟩ := exists_append_of_length_le (p := [c]) hcs (hlong h)
      have hc : c ≠ '\\' := fun hc => by
        obtain ⟨d, rest, hrest⟩ := List.exists_cons_of_ne_nil (l := x ++ r)
          fun hnil => hr (List.append_eq_nil_iff.mp hnil).2
        exact hreturn d rest hc hrest
      rw [List.append_assoc, List.cons_append, List.nil_append, readQuoted_cons hc, if_neg hne,
        if_neg hline]
      exact ih rfl h

end GraphMigrate.Script
