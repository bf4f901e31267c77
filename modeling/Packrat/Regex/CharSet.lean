import Packrat.Unicode.CaseFolding
import Packrat.Unicode.Property

/-!
# Sets of characters in regular expressions

Sets are kept as they were written, as operations on ranges and properties, and `contains` decides
membership by following them.
-/

set_option autoImplicit false

namespace Packrat.Regex

/-- A property of characters that a regular expression can name. -/
inductive Property
  /-- A character whose general category is in the list. -/
  | category (categories : List Unicode.Category)
  | alphabetic
  | lowercase
  | uppercase
  | whiteSpace
  | word
  | xidStart
  | xidContinue
  deriving DecidableEq, Repr

/-- Whether a character has the property. -/
def Property.holds : Property → Char → Bool
  | category categories, c => categories.contains (Unicode.category c)
  | alphabetic, c => Unicode.isAlphabetic c
  | lowercase, c => Unicode.isLowercase c
  | uppercase, c => Unicode.isUppercase c
  | whiteSpace, c => Unicode.isWhiteSpace c
  | word, c => Unicode.isWord c
  | xidStart, c => Unicode.isXidStart c
  | xidContinue, c => Unicode.isXidContinue c

/-- A set of characters. -/
inductive CharSet
  | none
  /-- The characters from `lo` to `hi`, both included. -/
  | range (lo hi : Char)
  | property (p : Property)
  | union (a b : CharSet)
  | intersection (a b : CharSet)
  | complement (a : CharSet)
  /-- The characters of the set and those that differ from one of them only in case. -/
  | anyCase (a : CharSet)
  /-- The same, for the case of ASCII letters alone. -/
  | anyAsciiCase (a : CharSet)
  deriving DecidableEq, Repr

namespace CharSet

/-- Whether a character is in the set. -/
def contains : CharSet → Char → Bool
  | none, _ => false
  | range lo hi, c => lo ≤ c && c ≤ hi
  | property p, c => p.holds c
  | union a b, c => a.contains c || b.contains c
  | intersection a b, c => a.contains c && b.contains c
  | complement a, c => !a.contains c
  | anyCase a, c => (Unicode.caseVariants c).any a.contains
  | anyAsciiCase a, c => a.contains c || a.contains c.toLower || a.contains c.toUpper

/-- The set of one character. -/
def single (c : Char) : CharSet := range c c

/-- The characters in one of the ranges. -/
def ofRanges (ranges : List (Char × Char)) : CharSet :=
  ranges.foldl (fun set (lo, hi) => set.union (range lo hi)) none

/-- The characters that exactly one of the sets contains. -/
def symmetricDifference (a b : CharSet) : CharSet :=
  (a.intersection b.complement).union (b.intersection a.complement)

/-- Every character. -/
def all : CharSet := complement none

end CharSet

end Packrat.Regex
