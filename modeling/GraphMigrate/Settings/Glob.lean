/-
Patterns of paths.

A star stands for any characters, slashes included, a question mark for
one character, and brackets for one out of a set.  Two stars are a whole
part of a path and stand for any number of parts.  Letters match without
regard to their case.

* `Glob.parse?`: the pattern that a text stands for; `GlobError`: what is
  wrong with a text that stands for none;
* `Glob.isMatch`: whether a path matches a pattern.
-/
namespace GraphMigrate

/-- A character, or a range of characters, in brackets. -/
inductive CharRange where
  | single (c : Char)
  | range (first last : Char)
  deriving DecidableEq, Repr

/-- A part of a pattern. -/
inductive GlobToken where
  | char (c : Char)
  | anyChar
  | anySequence
  | anyParts
  | oneOf (ranges : List CharRange)
  | noneOf (ranges : List CharRange)
  deriving DecidableEq, Repr

/-- A pattern. -/
structure Glob where
  tokens : List GlobToken
  deriving DecidableEq, Repr

/-- What is wrong with a text that is no pattern, at which character. -/
inductive GlobError where
  | tooManyStars (position : Nat)
  | partialStars (position : Nat)
  | openRange (position : Nat)
  deriving DecidableEq, Repr

namespace GlobError

/-- The wording of an error. -/
def message : GlobError → String
  | tooManyStars p => at' p ++ "wildcards are either regular `*` or recursive `**`"
  | partialStars p => at' p ++ "recursive wildcards must form a single path component"
  | openRange p => at' p ++ "invalid range pattern"
where
  at' (position : Nat) : String :=
    "Pattern syntax error near position " ++ toString position ++ ": "

end GlobError

namespace Glob

/-! ### Reading patterns -/

/-- The characters and ranges in brackets. -/
def ranges : List Char → List CharRange
  | a :: '-' :: b :: cs => .range a b :: ranges cs
  | a :: cs => .single a :: ranges cs
  | [] => []

/-- The characters up to a closing bracket behind the first one, which
may be a closing bracket itself, and the text behind them. -/
def bracketed? : List Char → Option (List Char × List Char)
  | [] => none
  | c :: cs =>
    let inside := cs.takeWhile (· != ']')
    match cs.drop inside.length with
    | _ :: rest => some (c :: inside, rest)
    | [] => none

/-- The token of a bracket, from behind it. -/
def bracket? : List Char → Option (GlobToken × List Char)
  | '!' :: cs => do
    let (inside, rest) ← bracketed? cs
    return (.noneOf (ranges inside), rest)
  | cs => do
    let (inside, rest) ← bracketed? cs
    return (.oneOf (ranges inside), rest)

/-- The text behind two stars, if they are a whole part of a path. -/
def partEnd? : List Char → Option (List Char)
  | '/' :: cs => some cs
  | [] => some []
  | _ => none

/-- The tokens of a text from a position on, given the character in front
of it. -/
def tokensFrom (position : Nat) (before : Option Char) :
    Nat → List Char → Except GlobError (List GlobToken)
  | 0, _ => .ok []
  | _ + 1, [] => .ok []
  | bound + 1, c :: cs =>
    if c = '?' then
      return .anyChar :: (← tokensFrom (position + 1) (some c) bound cs)
    else if c = '*' then
      let more := cs.takeWhile (· == '*')
      let rest := cs.drop more.length
      match more.length with
      | 0 => return .anySequence :: (← tokensFrom (position + 1) (some '*') bound rest)
      | 1 =>
        if before.all (· == '/') then
          match partEnd? rest with
          | some final =>
            let used := 2 + (rest.length - final.length)
            return .anyParts :: (← tokensFrom (position + used) (some '/') bound final)
          | none => .error (.partialStars (position + 2))
        else
          .error (.partialStars (position - 1))
      | _ => .error (.tooManyStars (position + 2))
    else if c = '[' then
      match bracket? cs with
      | none => .error (.openRange position)
      | some (token, rest) =>
        let used := 1 + (cs.length - rest.length)
        return token :: (← tokensFrom (position + used) (some ']') bound rest)
    else
      return .char c :: (← tokensFrom (position + 1) (some c) bound cs)

/-- The pattern that a text stands for. -/
def parse (text : String) : Except GlobError Glob := do
  return ⟨← tokensFrom 0 none (text.length + 1) text.toList⟩

/-! ### Matching -/

/-- Whether a character is one of ASCII. -/
def isAscii (c : Char) : Bool := c.toNat < 128

/-- Equality of characters without regard to the case of ASCII letters. -/
def sameChar (a b : Char) : Bool := a == b || (isAscii a && isAscii b && a.toLower == b.toLower)

/-- Whether a character lies between two others. -/
def isBetween (first last c : Char) : Bool := first.toNat ≤ c.toNat && c.toNat ≤ last.toNat

/-- Whether a character is in a range.  A range from a letter to a letter
holds both cases of what it holds. -/
def inRange (c : Char) : CharRange → Bool
  | .single d => sameChar c d
  | .range first last =>
    isBetween first last c
      || (isAscii c && first.isAlpha && last.isAlpha
        && isBetween first.toLower last.toLower c.toLower)

/-- Whether a token stands for a character. -/
def holds (c : Char) : GlobToken → Bool
  | .char d => sameChar c d
  | .anyChar => true
  | .anySequence | .anyParts => false
  | .oneOf rs => rs.any (inRange c)
  | .noneOf rs => !rs.any (inRange c)

/-- The rests of a text that it leaves to drop any number of characters. -/
def suffixes : List Char → List (List Char)
  | [] => [[]]
  | c :: cs => (c :: cs) :: suffixes cs

/-- The rests of a text that it leaves to drop parts that end in a slash,
and nothing at all. -/
def partSuffixes : List Char → List (List Char)
  | [] => []
  | c :: cs => if c = '/' then cs :: partSuffixes cs else partSuffixes cs

/-- Whether a text matches tokens. -/
def matchesTokens : List GlobToken → List Char → Bool
  | [], cs => cs.isEmpty
  | .anySequence :: ts, cs => (suffixes cs).any (matchesTokens ts)
  | .anyParts :: ts, cs => (cs :: partSuffixes cs ++ [[]]).any (matchesTokens ts)
  | _ :: _, [] => false
  | t :: ts, c :: cs => holds c t && matchesTokens ts cs

/-- Whether a path matches a pattern. -/
def isMatch (glob : Glob) (path : String) : Bool := matchesTokens glob.tokens path.toList

end Glob

end GraphMigrate
