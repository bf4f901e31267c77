import Packrat.Input

/-!
# Cursors

A position in an input that is known not to lie beyond its end. Moving gives a new cursor and
leaves the old one as it was.
-/

set_option autoImplicit false

namespace Packrat

/-- A position of `input`, at most its end. -/
structure Cursor (input : Input) where
  position : Nat
  le_length : position ≤ input.length

namespace Cursor

variable {input : Input}

/-- The cursor before the first atom. -/
def start : Cursor input := ⟨0, Nat.zero_le _⟩

/-- The cursor at a position; beyond the end it stands at the end. -/
def ofPosition (pos : Nat) : Cursor input := ⟨input.clamp pos, input.clamp_le pos⟩

/-- The number of atoms after the cursor. -/
def remaining (cursor : Cursor input) : Nat := input.length - cursor.position

/-- Whether no atom follows. -/
def atEnd (cursor : Cursor input) : Bool := cursor.position = input.length

/-- The atom after the cursor. -/
def peek? (cursor : Cursor input) : Option Char := input.atom? cursor.position

/-- The atoms after the cursor. -/
def rest (cursor : Cursor input) : List Char := input.rest cursor.position

/-- The text after the cursor. -/
def restText (cursor : Cursor input) : String := String.ofList cursor.rest

/-- The cursor `count` atoms further on, if so many follow. -/
def advance? (cursor : Cursor input) (count : Nat) : Option (Cursor input) :=
  if h : cursor.position + count ≤ input.length then some ⟨cursor.position + count, h⟩ else none

/-- The cursor in a form for diagnosis: its position and the length of its input. -/
def inspect (cursor : Cursor input) : String :=
  s!"Cursor \x7b pos: {cursor.position}, len: {input.length} \x7d"

end Cursor

end Packrat
