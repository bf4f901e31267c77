import Packrat.Proofs.Terminal

/-!
# Positions and byte offsets

The byte offset of a position is the UTF-8 length of the atoms before it, and every position within
the input is found again from its byte offset (`Input.positionOfByte_byteOffset`). So a match of a
pattern may be measured in bytes of the rest of the text just as well as in atoms: both end at the
same position (`Context.matchPattern_bytes`).
-/

set_option autoImplicit false

namespace Packrat

/-- The number of bytes of the characters in UTF-8. -/
def utf8Length : List Char → Nat
  | [] => 0
  | c :: cs => c.utf8Size + utf8Length cs

@[simp] theorem utf8Length_nil : utf8Length [] = 0 := rfl

@[simp] theorem utf8Length_cons (c : Char) (cs : List Char) :
    utf8Length (c :: cs) = c.utf8Size + utf8Length cs := rfl

theorem utf8Length_append (cs cs' : List Char) :
    utf8Length (cs ++ cs') = utf8Length cs + utf8Length cs' := by
  induction cs with
  | nil => simp
  | cons c cs ih => simp [ih, Nat.add_assoc]

namespace Input

variable (input : Input)

theorem byteOffset_eq_utf8Length (pos : Nat) :
    input.byteOffset pos = utf8Length (input.atoms.toList.take pos) := by
  have sum (chars : List Char) (bytes : Nat) :
      chars.foldl (fun bytes c => bytes + c.utf8Size) bytes = bytes + utf8Length chars := by
    induction chars generalizing bytes with
    | nil => rfl
    | cons c cs ih => rw [List.foldl_cons, ih, utf8Length_cons, Nat.add_assoc]
  unfold byteOffset
  rw [← Array.foldl_toList, sum, Nat.zero_add, Array.toList_extract, List.extract_eq_take_drop,
    Nat.sub_zero, List.drop_zero]

theorem byteOffset_add (pos count : Nat) :
    input.byteOffset (pos + count) =
      input.byteOffset pos + utf8Length ((input.rest pos).take count) := by
  simp only [byteOffset_eq_utf8Length, rest_eq_drop, List.take_add, utf8Length_append]

/-- The atoms of a list that start within the bytes of its first ones are those. -/
theorem positionOfByte_go_take {chars : List Char} {count : Nat} (h : count ≤ chars.length) :
    positionOfByte.go chars (utf8Length (chars.take count)) = count := by
  induction chars generalizing count with
  | nil => exact (Nat.le_zero.1 h).symm
  | cons c cs ih =>
    cases count with
    | zero => simp [positionOfByte.go]
    | succ count =>
      have hpos := c.utf8Size_pos
      rw [List.take_succ_cons, utf8Length_cons, positionOfByte.go, if_neg (by omega),
        Nat.add_sub_cancel_left, ih (Nat.le_of_succ_le_succ h)]

/-- **A position is found again from its byte offset.** -/
theorem positionOfByte_byteOffset {pos : Nat} (h : pos ≤ input.length) :
    input.positionOfByte (input.byteOffset pos) = pos := by
  rw [byteOffset_eq_utf8Length]
  exact positionOfByte_go_take (by rwa [Array.length_toList])

end Input

/-- The number of bytes up to the end of the match in a text. -/
def Pattern.matchBytes? (pattern : Pattern) (text : List Char) : Option Nat :=
  (pattern.matchLength? text).map fun length => utf8Length (text.take length)

/-- **A pattern's match measured in bytes ends at the same atom.** -/
theorem Context.matchPattern_bytes (context : Context) (pattern : Pattern) {pos : Nat}
    (hpos : pos ≤ context.input.length) (session : Session) :
    context.matchPattern pattern pos session =
      match pattern.matchBytes? (context.input.rest pos) with
      | some bytes =>
        session.accept pos (context.input.positionOfByte (context.input.byteOffset pos + bytes))
      | none => session.fail pos pattern.description := by
  unfold matchPattern Pattern.matchBytes?
  cases hlength : pattern.matchLength? (context.input.rest pos) with
  | none => rfl
  | some length =>
    have hle := Pattern.matchLength?_le hlength
    rw [Input.rest_length] at hle
    simp only [Option.map_some]
    rw [← Input.byteOffset_add, Input.positionOfByte_byteOffset _ (by omega)]

end Packrat
