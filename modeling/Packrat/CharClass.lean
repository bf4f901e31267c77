import Packrat.Text.Quoted
import Packrat.Unicode.Property

/-!
# Character classes

A class accepts single atoms and describes what it accepts. It is a part, or the complement of one,
and a part may be a union of parts. A class that joins a union on its left is added to it; what
joins a class on its left stays a part of its own, even if it is a union. A complemented class that
joins a union does so as a test.
-/

set_option autoImplicit false

namespace Packrat

/-- What a character class consists of. -/
inductive CharClass.Part
  /-- The digits `0` to `9`. -/
  | digit
  | alphabetic
  | alphanumeric
  | whitespace
  | xidStart
  | xidContinue
  /-- The characters from `lo` to `hi`, both included. -/
  | range (lo hi : Char)
  | oneOf (chars : List Char)
  | predicate (description : String) (test : Char → Bool)
  | union (parts : List CharClass.Part)

namespace CharClass.Part

mutual

/-- Whether the part accepts a character. -/
def accepts : Part → Char → Bool
  | digit, c => c.isDigit
  | alphabetic, c => Unicode.isAlphabetic c
  | alphanumeric, c => Unicode.isAlphanumeric c
  | whitespace, c => Unicode.isWhiteSpace c
  | xidStart, c => Unicode.isXidStart c
  | xidContinue, c => Unicode.isXidContinue c
  | range lo hi, c => lo ≤ c && c ≤ hi
  | oneOf chars, c => chars.contains c
  | predicate _ test, c => test c
  | union parts, c => anyAccepts parts c

/-- Whether one of the parts accepts a character. -/
def anyAccepts : List Part → Char → Bool
  | [], _ => false
  | part :: parts, c => part.accepts c || anyAccepts parts c

end

mutual

/-- What the part accepts, in words. -/
def description : Part → String
  | digit => "digit"
  | alphabetic => "letter"
  | alphanumeric => "letter or digit"
  | whitespace => "whitespace"
  | xidStart => "identifier start"
  | xidContinue => "identifier character"
  | range lo hi => Text.quotedChar lo ++ ".." ++ Text.quotedChar hi
  | oneOf chars => "one of " ++ ", ".intercalate (chars.map Text.quotedChar)
  | predicate description _ => description
  | union parts => " or ".intercalate (descriptions parts)

/-- What each of the parts accepts, in words. -/
def descriptions : List Part → List String
  | [] => []
  | part :: parts => part.description :: descriptions parts

end

/-- The parts of a union of two parts. The first one gives way to its own parts if it is a union,
and so does the second one if the first one is. -/
def unionParts : Part → Part → List Part
  | union left, union right => left ++ right
  | union left, right => left ++ [right]
  | left, right => [left, right]

theorem anyAccepts_append (left right : List Part) (c : Char) :
    anyAccepts (left ++ right) c = (anyAccepts left c || anyAccepts right c) := by
  induction left with
  | nil => rfl
  | cons part left ih => rw [List.cons_append, anyAccepts, anyAccepts, ih, Bool.or_assoc]

theorem descriptions_append (left right : List Part) :
    descriptions (left ++ right) = descriptions left ++ descriptions right := by
  induction left with
  | nil => rfl
  | cons part left ih => rw [List.cons_append, descriptions, descriptions, ih, List.cons_append]

theorem anyAccepts_unionParts (left right : Part) (c : Char) :
    anyAccepts (left.unionParts right) c = (left.accepts c || right.accepts c) := by
  cases left <;> cases right <;> simp [unionParts, accepts, anyAccepts, anyAccepts_append]

end CharClass.Part

/-- A class of characters: a part, or its complement. -/
structure CharClass where
  part : CharClass.Part
  complemented : Bool := false

namespace CharClass

/-- Whether the class accepts a character. -/
def accepts (cls : CharClass) (c : Char) : Bool := cls.part.accepts c != cls.complemented

/-- What the class accepts, in words. -/
def description (cls : CharClass) : String :=
  if cls.complemented then "not " ++ cls.part.description else cls.part.description

/-- The class in a form for diagnosis. -/
def inspect (cls : CharClass) : String := s!"CharClass({cls.description})"

/-- The digits `0` to `9`. -/
def digit : CharClass := ⟨.digit, false⟩

/-- The alphabetic characters. -/
def alphabetic : CharClass := ⟨.alphabetic, false⟩

/-- The alphabetic characters and the numbers. -/
def alphanumeric : CharClass := ⟨.alphanumeric, false⟩

/-- The white space characters. -/
def whitespace : CharClass := ⟨.whitespace, false⟩

/-- The characters that start an identifier. -/
def xidStart : CharClass := ⟨.xidStart, false⟩

/-- The characters that continue an identifier. -/
def xidContinue : CharClass := ⟨.xidContinue, false⟩

/-- The characters from `lo` to `hi`, both included. -/
def range (lo hi : Char) : CharClass := ⟨.range lo hi, false⟩

/-- The characters of a text. -/
def oneOf (chars : String) : CharClass := ⟨.oneOf chars.toList, false⟩

/-- The characters that pass a test, under a description of the caller's. -/
def predicate (description : String) (test : Char → Bool) : CharClass :=
  ⟨.predicate description test, false⟩

/-- The class as a part of a union. A complement becomes a test of its own, for a union has no
complements. -/
def asPart (cls : CharClass) : Part :=
  if cls.complemented then
    .predicate ("not " ++ cls.part.description) fun c => !cls.part.accepts c
  else cls.part

/-- The characters that either class accepts. -/
def or (a b : CharClass) : CharClass := ⟨.union (a.asPart.unionParts b.asPart), false⟩

/-- The characters that the class accepts and those of a text. -/
def orOneOf (cls : CharClass) (chars : String) : CharClass := cls.or (oneOf chars)

/-- The characters that the class does not accept. -/
def negate (cls : CharClass) : CharClass := { cls with complemented := !cls.complemented }

theorem accepts_asPart (cls : CharClass) (c : Char) : cls.asPart.accepts c = cls.accepts c := by
  unfold asPart
  split <;> simp_all [accepts, Part.accepts]

theorem description_asPart (cls : CharClass) : cls.asPart.description = cls.description := by
  unfold asPart description
  split <;> rfl

theorem accepts_or (a b : CharClass) (c : Char) :
    (a.or b).accepts c = (a.accepts c || b.accepts c) := by
  rw [← accepts_asPart a, ← accepts_asPart b, ← Part.anyAccepts_unionParts]
  simp [or, accepts, Part.accepts]

theorem accepts_negate (cls : CharClass) (c : Char) : cls.negate.accepts c = !cls.accepts c := by
  simp [negate, accepts]

end CharClass

end Packrat
