import Packrat.Regex.CharSet

/-!
# Regular expressions

The tree of a regular expression: sets of characters and tests of the place between two characters,
joined in sequence, as alternatives in order of preference, and by repetition.
-/

set_option autoImplicit false

namespace Packrat

namespace Regex

/-- Which characters count as the characters of a word. -/
inductive Alphabet
  | ascii
  | unicode
  deriving DecidableEq, Repr

/-- Whether a character belongs to a word. -/
def Alphabet.isWord : Alphabet → Char → Bool
  | ascii, c => c.isAlphanum || c = '_'
  | unicode, c => Unicode.isWord c

/-- A test of the place between two characters. -/
inductive Look
  | textStart
  | textStop
  | lineStart
  | lineStop
  /-- As `lineStart`, where a line ends in CR, LF or CR LF. -/
  | lineStartCrlf
  /-- As `lineStop`, where a line ends in CR, LF or CR LF. -/
  | lineStopCrlf
  | wordBoundary (alphabet : Alphabet)
  | notWordBoundary (alphabet : Alphabet)
  | wordStart (alphabet : Alphabet)
  | wordStop (alphabet : Alphabet)
  /-- No character of a word comes before. -/
  | wordStartHalf (alphabet : Alphabet)
  /-- No character of a word comes after. -/
  | wordStopHalf (alphabet : Alphabet)
  deriving DecidableEq, Repr

/-- Whether the test passes between the characters `before` and `after`, either of which is missing
at an end of the text. -/
def Look.holds (look : Look) (before after : Option Char) : Bool :=
  let inWord (alphabet : Alphabet) (c : Option Char) : Bool := c.any alphabet.isWord
  match look with
  | textStart => before.isNone
  | textStop => after.isNone
  | lineStart => before.isNone || before = some '\n'
  | lineStop => after.isNone || after = some '\n'
  | lineStartCrlf =>
    before.isNone || before = some '\n' || (before = some '\r' && after != some '\n')
  | lineStopCrlf =>
    after.isNone || after = some '\r' || (after = some '\n' && before != some '\r')
  | wordBoundary alphabet => inWord alphabet before != inWord alphabet after
  | notWordBoundary alphabet => inWord alphabet before == inWord alphabet after
  | wordStart alphabet => !inWord alphabet before && inWord alphabet after
  | wordStop alphabet => inWord alphabet before && !inWord alphabet after
  | wordStartHalf alphabet => !inWord alphabet before
  | wordStopHalf alphabet => !inWord alphabet after

end Regex

/-- A regular expression. -/
inductive Regex
  /-- Matches the empty text. -/
  | empty
  /-- Matches one character of the set. -/
  | charIn (set : Regex.CharSet)
  /-- Matches the empty text where the test passes. -/
  | test (look : Regex.Look)
  | concat (first second : Regex)
  /-- `first` is preferred to `second`. -/
  | alternation (first second : Regex)
  /-- From `min` to `max` copies, as many as possible or, if not `greedy`, as few. -/
  | repetition (body : Regex) (min : Nat) (max : Option Nat) (greedy : Bool)
  deriving DecidableEq, Repr

namespace Regex

/-- Whether the expression may match the empty text. -/
def nullable : Regex → Bool
  | empty => true
  | charIn _ => false
  | test _ => true
  | concat first second => first.nullable && second.nullable
  | alternation first second => first.nullable || second.nullable
  | repetition body min _ _ => min = 0 || body.nullable

/-- Whether the expression matches nothing but the empty text. -/
def consumesNothing : Regex → Bool
  | empty => true
  | charIn _ => false
  | test _ => true
  | concat first second => first.consumesNothing && second.consumesNothing
  | alternation first second => first.consumesNothing && second.consumesNothing
  | repetition body _ max _ => max = some 0 || body.consumesNothing

/-- The repetition of an expression. A body that consumes nothing is repeated at most once, since
further copies add nothing. -/
def repeated (body : Regex) (min : Nat) (max : Option Nat) (greedy : Bool) : Regex :=
  let (min, max) :=
    if body.consumesNothing then (Nat.min min 1, some ((max.getD 1).min 1)) else (min, max)
  if max = some 0 then empty
  else if min = 1 ∧ max = some 1 then body
  else repetition body min max greedy

end Regex

end Packrat
