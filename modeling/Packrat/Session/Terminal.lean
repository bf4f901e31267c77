import Packrat.Session.Basic

/-!
# Terminals

Matching of expressions that hold no others. A failure is noted in the session.
-/

set_option autoImplicit false

namespace Packrat

/-- How many of the characters stand in the input from a position on. -/
def Input.agreement (input : Input) : List Char → Nat → Nat
  | [], _ => 0
  | c :: cs, pos => if input.atom? pos = some c then input.agreement cs (pos + 1) + 1 else 0

namespace Context

/-- Matches a text. It fails at the first atom that differs. -/
def matchLiteral (context : Context) (text : String) (pos : Nat) (session : Session) :
    Result Outcome :=
  let chars := text.toList
  let agreed := context.input.agreement chars pos
  if agreed = chars.length then session.accept pos (pos + agreed)
  else session.fail (pos + agreed) (Text.quoted text)

/-- Matches one atom that passes a test. -/
def matchAtom (context : Context) (test : Char → Bool) (expected : String) (pos : Nat)
    (session : Session) : Result Outcome :=
  if (context.input.atom? pos).any test then session.accept pos (pos + 1)
  else session.fail pos expected

/-- Matches nothing at the end of the input. -/
def matchEnd (context : Context) (pos : Nat) (session : Session) : Result Outcome :=
  if pos = context.input.length then session.pass pos
  else session.fail pos Expr.endOfInput.describe

/-- Matches what a pattern matches in the rest of the input. -/
def matchPattern (context : Context) (pattern : Pattern) (pos : Nat) (session : Session) :
    Result Outcome :=
  match pattern.matchLength? (context.input.rest pos) with
  | some length => session.accept pos (pos + length)
  | none => session.fail pos pattern.description

end Context

end Packrat
