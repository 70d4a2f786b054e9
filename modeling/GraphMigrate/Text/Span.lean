/-
Byte spans of a text.

All offsets count bytes of the UTF-8 form of a text.  A text is cut
by walking its characters: `cutAt? n` splits a list of characters
after exactly `n` bytes and has no answer where that would split a
character or run past the end.

* `cutAt?`: the two halves of a text at a byte offset;
* `Span`: a half-open byte range, and `Span.slice?`, the characters
  it covers;
* `byteLength`: the number of bytes of a text;
* `cutAt?_zero`, `byteLength_append`, `append_of_cutAt?`,
  `byteLength_of_cutAt?` and `cutAt?_byteLength`: a cut loses nothing,
  its first half has the length asked for, and every such splitting is
  found.
-/

namespace GraphMigrate

/-- The number of bytes of a list of characters. -/
def byteLength : List Char → Nat
  | [] => 0
  | c :: cs => c.utf8Size + byteLength cs

/-- Splits a list of characters after exactly `n` bytes.  There is no
answer when the offset lies inside a character or past the end. -/
def cutAt? : Nat → List Char → Option (List Char × List Char)
  | 0, cs => some ([], cs)
  | _ + 1, [] => none
  | n + 1, c :: cs =>
    if c.utf8Size ≤ n + 1 then
      (cutAt? (n + 1 - c.utf8Size) cs).map fun (before, after) => (c :: before, after)
    else
      none

/-- A half-open range of byte offsets. -/
structure Span where
  start : Nat
  stop : Nat
  deriving DecidableEq, Repr, Inhabited

namespace Span

/-- The empty span at an offset. -/
def point (offset : Nat) : Span := ⟨offset, offset⟩

/-- The number of bytes between the ends. -/
def length (s : Span) : Nat := s.stop - s.start

/-- A span that starts where it stops. -/
def isEmpty (s : Span) : Bool := s.start == s.stop

/-- The characters that a span covers.  There are none to give when
the span is reversed, leaves the text or splits a character. -/
def slice? (s : Span) (cs : List Char) : Option (List Char) :=
  if s.start ≤ s.stop then do
    let (_, rest) ← cutAt? s.start cs
    let (inside, _) ← cutAt? (s.stop - s.start) rest
    some inside
  else
    none

/-- The text that a span covers, empty where there is none to give. -/
def sliceText (s : Span) (cs : List Char) : String :=
  String.ofList ((s.slice? cs).getD [])

/-- A span is written as its two ends with two dots between. -/
def display (s : Span) : String :=
  toString s.start ++ ".." ++ toString s.stop

end Span

/-! ### Laws of cutting -/

theorem utf8Size_pos (c : Char) : 0 < c.utf8Size := Char.utf8Size_pos c

@[simp] theorem cutAt?_zero (cs : List Char) : cutAt? 0 cs = some ([], cs) := by
  cases cs <;> rfl

theorem byteLength_append (xs ys : List Char) :
    byteLength (xs ++ ys) = byteLength xs + byteLength ys := by
  induction xs with
  | nil => simp [byteLength]
  | cons c cs ih => simp [byteLength, ih, Nat.add_assoc]

/-- A cut loses nothing. -/
theorem append_of_cutAt? {n : Nat} {cs before after : List Char}
    (h : cutAt? n cs = some (before, after)) : before ++ after = cs := by
  fun_induction cutAt? n cs generalizing before after with
  | case1 => simp_all
  | case2 => simp at h
  | case3 n c cs hc ih =>
    obtain ⟨⟨b, a⟩, hb, heq⟩ := Option.map_eq_some_iff.1 h
    obtain ⟨rfl, rfl⟩ := Prod.mk.inj heq
    simp [ih hb]
  | case4 => simp at h

/-- The first half of a cut has the length asked for. -/
theorem byteLength_of_cutAt? {n : Nat} {cs before after : List Char}
    (h : cutAt? n cs = some (before, after)) : byteLength before = n := by
  fun_induction cutAt? n cs generalizing before after with
  | case1 => simp_all [byteLength]
  | case2 => simp at h
  | case3 n c cs hc ih =>
    obtain ⟨⟨b, a⟩, hb, heq⟩ := Option.map_eq_some_iff.1 h
    obtain ⟨rfl, rfl⟩ := Prod.mk.inj heq
    have := ih hb
    simp only [byteLength]
    omega
  | case4 => simp at h

/-- Every splitting of a text is found at the length of its first half. -/
theorem cutAt?_byteLength (before after : List Char) :
    cutAt? (byteLength before) (before ++ after) = some (before, after) := by
  induction before with
  | nil => simp [byteLength]
  | cons c cs ih =>
    have hpos := utf8Size_pos c
    obtain ⟨k, hk⟩ : ∃ k, c.utf8Size + byteLength cs = k + 1 :=
      ⟨c.utf8Size + byteLength cs - 1, by omega⟩
    have hle : c.utf8Size ≤ k + 1 := by omega
    have hsub : k + 1 - c.utf8Size = byteLength cs := by omega
    simp [byteLength, hk, cutAt?, hle, hsub, ih]

end GraphMigrate
