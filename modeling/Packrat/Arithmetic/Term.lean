import Packrat.Node

/-!
# Arithmetic terms

Numbers joined by the operators `+ - * / %`. A term is read off the tree that a grammar for
arithmetic gives, and is evaluated in a word of limited range, from the left to the right and
operands first. Where a number or a result does not fit, or a divisor is zero, the evaluation ends.
-/

set_option autoImplicit false

namespace Packrat.Arithmetic

/-- An operator between two terms. -/
inductive Operator
  | add
  | sub
  | mul
  | div
  | mod
  deriving DecidableEq, Repr

/-- The operator of a sign. -/
def Operator.ofText? : String → Option Operator
  | "+" => some .add
  | "-" => some .sub
  | "*" => some .mul
  | "/" => some .div
  | "%" => some .mod
  | _ => none

/-- A term. An operation keeps the position where the text of the operator and its right operand
starts, white space before the operator included. -/
inductive Term
  | number (digits : String)
  | operation (operator : Operator) (position : Nat) (left right : Term)
  deriving DecidableEq, Repr

namespace Term

mutual

/-- The term of a tree, if its root is a rule that stands for one. -/
def ofTree? (input : Input) : Node → Option Term
  | ⟨.rule "calculator", _, _, _ :: expr :: _, _⟩ => ofTree? input expr
  | ⟨.rule "expr", _, _, [first, ⟨_, _, _, operations, _⟩], _⟩ => do
    extend? input (← ofTree? input first) operations
  | ⟨.rule "term", _, _, [first, ⟨_, _, _, operations, _⟩], _⟩ => do
    extend? input (← ofTree? input first) operations
  | ⟨.rule "factor", _, _, _ :: _ :: inner :: _, some 0⟩ => ofTree? input inner
  | ⟨.rule "factor", _, _, [digits], some 1⟩ => ofTree? input digits
  | ⟨.rule "num", start, stop, _, _⟩ => (input.slice? start stop).map .number
  | _ => none

/-- A term extended to the right by the operations of a list of trees, each of which holds white
space, an operator, white space and an operand. -/
def extend? (input : Input) (left : Term) : List Node → Option Term
  | [] => some left
  | ⟨_, start, _, _ :: operator :: _ :: right :: _, _⟩ :: rest => do
    let right ← ofTree? input right
    let operator ← Operator.ofText? (← operator.text? input)
    extend? input (.operation operator start left right) rest
  | _ => none

end

end Term

/-- The least and the greatest number of a word. -/
structure WordRange where
  least : Int
  greatest : Int
  deriving DecidableEq, Repr

/-- Signed words of 64 bits. -/
def WordRange.signed64 : WordRange := ⟨-9223372036854775808, 9223372036854775807⟩

/-- Unsigned words of 64 bits. -/
def WordRange.unsigned64 : WordRange := ⟨0, 18446744073709551615⟩

/-- Why a term has no value. -/
inductive Fault
  /-- The number is too large for the word. -/
  | number (digits : String)
  /-- The result of the operation at a position does not fit, or its divisor is zero. -/
  | operation (position : Nat)
  deriving DecidableEq, Repr

namespace WordRange

/-- A number that fits in the word. -/
def fit? (range : WordRange) (value : Int) : Option Int :=
  if range.least ≤ value ∧ value ≤ range.greatest then some value else none

/-- The result of an operation, if it fits in the word. A division cuts off towards zero, and a
remainder goes with the quotient, so it needs one that fits. -/
def compute? (range : WordRange) (operator : Operator) (a b : Int) : Option Int :=
  match operator with
  | .add => range.fit? (a + b)
  | .sub => range.fit? (a - b)
  | .mul => range.fit? (a * b)
  | .div => if b = 0 then none else range.fit? (a.tdiv b)
  | .mod => if b = 0 then none else (range.fit? (a.tdiv b)).map fun _ => a.tmod b

end WordRange

/-- The number that digits stand for. -/
def digitsValue (digits : String) : Nat :=
  digits.toList.foldl (fun value c => value * 10 + (c.toNat - '0'.toNat)) 0

/-- The value of a term in a word, or why there is none: the first fault in the order of
evaluation. -/
def Term.evaluate (range : WordRange) : Term → Except Fault Int
  | number digits =>
    match range.fit? (digitsValue digits) with
    | some value => .ok value
    | none => .error (.number digits)
  | operation operator position left right => do
    let a ← left.evaluate range
    let b ← right.evaluate range
    match range.compute? operator a b with
    | some value => .ok value
    | none => .error (.operation position)

end Packrat.Arithmetic
