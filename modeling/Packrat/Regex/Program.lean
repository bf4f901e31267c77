import Packrat.Regex.Basic

/-!
# Programs for regular expressions

A regular expression as a list of instructions, run by threads that each stand at one of them.
`emit` lays out the instructions for an expression; a thread that leaves them at their end has
matched it. Where a thread can go on in two ways it prefers the first.
-/

set_option autoImplicit false

namespace Packrat.Regex

/-- What a thread does at one place of a program. -/
inductive Instruction
  /-- Consumes one character of the set and goes on to the next instruction. -/
  | consume (set : CharSet)
  /-- Goes on to the next instruction where the test passes. -/
  | test (look : Look)
  /-- Goes on to the first target and, if that fails, to the second. -/
  | split (first second : Nat)
  | jump (target : Nat)
  /-- The whole expression has matched. -/
  | accept
  deriving DecidableEq, Repr

/-- The instructions of a regular expression; threads start at the first one. -/
structure Program where
  code : Array Instruction
  deriving DecidableEq, Repr

/-- A split that prefers to enter a repeated body, or to leave it if not greedy. -/
def branch (greedy : Bool) (enter leave : Nat) : Instruction :=
  if greedy then .split enter leave else .split leave enter

/-- The number of instructions for an expression. -/
def length : Regex → Nat
  | empty => 0
  | charIn _ => 1
  | test _ => 1
  | concat first second => first.length + second.length
  | alternation first second => first.length + second.length + 2
  | repetition body min none _ => if min = 0 then body.length + 2 else min * body.length + 1
  | repetition body min (some max) _ => min * body.length + (max - min) * (body.length + 1)

/-- The code with the instructions for an expression at its end. The repetition of a body that may
match the empty text enters the body before it tests for another copy, so that an empty copy does
not hide the copies that consume something. -/
def emit : Regex → Array Instruction → Array Instruction
  | empty, code => code
  | charIn set, code => code.push (.consume set)
  | test look, code => code.push (.test look)
  | concat first second, code => second.emit (first.emit code)
  | alternation first second, code =>
    let secondStart := code.size + 1 + first.length + 1
    let code := first.emit (code.push (.split (code.size + 1) secondStart))
    second.emit (code.push (.jump (secondStart + second.length)))
  | repetition body 0 none greedy, code =>
    let start := code.size
    let stop := start + body.length + 2
    let code := body.emit (code.push (branch greedy (start + 1) stop))
    if body.nullable then code.push (branch greedy (start + 1) stop)
    else code.push (.jump start)
  | repetition body (min + 1) none greedy, code =>
    let code := Nat.repeat body.emit min code
    let start := code.size
    let code := body.emit code
    code.push (branch greedy start (code.size + 1))
  | repetition body min (some max) greedy, code =>
    let code := Nat.repeat body.emit min code
    let stop := code.size + (max - min) * (body.length + 1)
    Nat.repeat (fun code => body.emit (code.push (branch greedy (code.size + 1) stop))) (max - min)
      code

/-- An estimate of the bytes that a set takes in a program. -/
def CharSet.weight : CharSet → Nat
  | none => 32
  | range _ hi => if hi.toNat < 128 then 32 else 256
  | property (.category [.nd]) => 4000
  | property .whiteSpace => 800
  | property _ => 46000
  | union a b => a.weight + b.weight
  | intersection a b => a.weight + b.weight
  | complement a => a.weight + 480
  | anyCase a => 2 * a.weight
  | anyAsciiCase a => a.weight

/-- An estimate of the bytes that the program of an expression takes. -/
def weight : Regex → Nat
  | empty => 32
  | charIn set => set.weight
  | test _ => 32
  | concat first second => first.weight + second.weight
  | alternation first second => first.weight + second.weight + 48
  | repetition body min none _ => (min + 1) * body.weight + 48
  | repetition body min (some max) _ => min * body.weight + (max - min) * (body.weight + 40)

/-- The greatest weight of an expression that has a program, ten mebibytes. -/
def maxWeight : Nat := 10485760

/-- The program of an expression that is not too large. -/
def compile? (regex : Regex) : Option Program :=
  if regex.weight ≤ maxWeight then some ⟨(regex.emit #[]).push .accept⟩ else none

end Packrat.Regex
