/-!
# Input

The text to be matched, as a sequence of atoms. An atom is one character, a position is the number
of atoms before it, and positions beyond the end stand for the end. Byte offsets are those of the
text's UTF-8 form.
-/

set_option autoImplicit false

namespace Packrat

/-- A text as a sequence of atoms. -/
structure Input where
  atoms : Array Char
  deriving DecidableEq

/-- A line and a column of a text, both counted from one. -/
structure LineColumn where
  line : Nat
  column : Nat
  deriving DecidableEq, Repr

/-- A line of a text: its number, counted from one, and the position of its first atom. -/
structure Line where
  number : Nat
  start : Nat

namespace Line

/-- The line after one more atom, the one at a position: a line feed ends its line. -/
def next (line : Line) (pos : Nat) (c : Char) : Line :=
  if c = '\n' then ⟨line.number + 1, pos + 1⟩ else line

/-- The line after more atoms, the first of which is the one at a position. -/
def after : (line : Line) → (pos : Nat) → List Char → Line
  | line, _, [] => line
  | line, pos, c :: cs => after (line.next pos c) (pos + 1) cs

end Line

namespace Input

/-- The atoms of a text. -/
def ofString (text : String) : Input := ⟨text.toList.toArray⟩

/-- The number of atoms. -/
def length (input : Input) : Nat := input.atoms.size

/-- Whether there are no atoms. -/
def isEmpty (input : Input) : Bool := input.atoms.isEmpty

/-- The text. -/
def text (input : Input) : String := String.ofList input.atoms.toList

/-- The atom at a position before the end. -/
def atom? (input : Input) (pos : Nat) : Option Char := input.atoms[pos]?

/-- The position itself, or the end for a position beyond it. -/
def clamp (input : Input) (pos : Nat) : Nat := min pos input.length

/-- The atoms from a position to the end. -/
def rest (input : Input) (pos : Nat) : List Char :=
  (input.atoms.extract pos input.length).toList

/-- The number of bytes before a position. -/
def byteOffset (input : Input) (pos : Nat) : Nat :=
  (input.atoms.extract 0 pos).foldl (fun bytes c => bytes + c.utf8Size) 0

/-- The number of atoms that start before a byte offset. -/
def positionOfByte (input : Input) (offset : Nat) : Nat := go input.atoms.toList offset
where
  /-- The number of the atoms in a list that start within the first `offset` bytes. -/
  go : List Char → Nat → Nat
    | [], _ => 0
    | c :: cs, offset => if offset = 0 then 0 else go cs (offset - c.utf8Size) + 1

/-- The text between two positions, which must not stand in the wrong order. -/
def slice? (input : Input) (start stop : Nat) : Option String :=
  if input.clamp start ≤ input.clamp stop then
    some (String.ofList (input.atoms.extract start stop).toList)
  else none

/-- The line of a position. A line feed belongs to the line that it ends. -/
def lineAt (input : Input) (pos : Nat) : Line :=
  Line.after ⟨1, 0⟩ 0 (input.atoms.extract 0 pos).toList

/-- The line and column of a position. -/
def lineColumn (input : Input) (pos : Nat) : LineColumn :=
  let pos := input.clamp pos
  let line := input.lineAt pos
  ⟨line.number, pos - line.start + 1⟩

@[simp] theorem length_ofString (text : String) : (ofString text).length = text.toList.length := by
  simp [ofString, length]

@[simp] theorem text_ofString (text : String) : (ofString text).text = text := by
  simp [ofString, Input.text]

theorem rest_eq_drop (input : Input) (pos : Nat) :
    input.rest pos = input.atoms.toList.drop pos := by
  simp only [rest, length, Array.toList_extract, List.extract_eq_take_drop]
  exact List.take_of_length_le (by simp)

theorem clamp_le (input : Input) (pos : Nat) : input.clamp pos ≤ input.length :=
  Nat.min_le_right _ _

theorem clamp_of_le {input : Input} {pos : Nat} (h : pos ≤ input.length) :
    input.clamp pos = pos := Nat.min_eq_left h

end Input

end Packrat
