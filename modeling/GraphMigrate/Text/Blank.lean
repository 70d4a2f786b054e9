/-
White space and the edges of lines.

* `isBlank`: the characters of the Unicode property White_Space;
* `isAsciiBlank`: space, tab, line feed, carriage return, form feed;
* `isInlineBlank`: space and tab;
* `trimStart`, `trimEnd`, `trim`: a text without the white space at its ends.
-/
namespace GraphMigrate

/-- A character of the Unicode property White_Space. -/
def isBlank (c : Char) : Bool :=
  let n := c.toNat
  (9 ≤ n && n ≤ 13) || n == 0x20 || n == 0x85 || n == 0xA0 || n == 0x1680 ||
    (0x2000 ≤ n && n ≤ 0x200A) || n == 0x2028 || n == 0x2029 || n == 0x202F ||
    n == 0x205F || n == 0x3000

/-- A white space character of ASCII; the vertical tab is not one. -/
def isAsciiBlank (c : Char) : Bool :=
  c == ' ' || c == '\t' || c == '\n' || c == '\r' || c.toNat == 12

/-- A space or a tab. -/
def isInlineBlank (c : Char) : Bool := c == ' ' || c == '\t'

/-- A text without the white space at its start. -/
def trimStart (cs : List Char) : List Char := cs.dropWhile isBlank

/-- A text without the white space at its end. -/
def trimEnd (cs : List Char) : List Char := (cs.reverse.dropWhile isBlank).reverse

/-- A text without the white space at its ends. -/
def trim (cs : List Char) : List Char := trimEnd (trimStart cs)

/-- Every white space character of core is one here. -/
theorem isBlank_of_isWhitespace {c : Char} (h : c.isWhitespace = true) : isBlank c = true := by
  simp only [Char.isWhitespace, Bool.or_eq_true, decide_eq_true_eq] at h
  rcases h with ((h | h) | h) | h <;> subst h <;> decide

end GraphMigrate
