import Packrat.Failure
import Packrat.Node

/-!
# Outcomes

What comes of matching one expression at one position, and of parsing a whole input.
-/

set_option autoImplicit false

namespace Packrat

/-- What comes of matching an expression at a position. -/
inductive Outcome
  /-- The atoms up to `stop` matched. What matches nothing may leave no node. -/
  | success (stop : Nat) (node? : Option Node)
  | failure (failure : Failure)
  deriving DecidableEq

namespace Outcome

/-- Success without a node. -/
def nothing (pos : Nat) : Outcome := success pos none

/-- Success of something that is matched as a whole. -/
def terminal (start stop : Nat) : Outcome := success stop (some { label := .terminal, start, stop })

/-- Whether there was a match. -/
def isSuccess : Outcome → Bool
  | success _ _ => true
  | failure _ => false

/-- The position after the match. -/
def stop? : Outcome → Option Nat
  | success stop _ => some stop
  | failure _ => none

/-- The tree of the match. -/
def node? : Outcome → Option Node
  | success _ node? => node?
  | failure _ => none

end Outcome

/-- What comes of a parse. -/
inductive ParseResult
  /-- The start rule matched the whole input. -/
  | complete (tree : Node)
  /-- The start rule matched the first `consumed` atoms. The furthest failure tells what stopped
  it. -/
  | partialMatch (tree : Node) (consumed : Nat) (furthest? : Option Failure)
  /-- The start rule did not match. -/
  | failed (failure : Failure)
  deriving DecidableEq

namespace ParseResult

/-- Whether the whole input matched. -/
def isComplete : ParseResult → Bool
  | complete _ => true
  | _ => false

/-- The tree of the match. -/
def tree? : ParseResult → Option Node
  | complete tree => some tree
  | partialMatch tree _ _ => some tree
  | failed _ => none

/-- The tree of a match of the whole input. -/
def completeTree? : ParseResult → Option Node
  | complete tree => some tree
  | _ => none

/-- The failure that explains why not the whole input matched. -/
def failure? : ParseResult → Option Failure
  | complete _ => none
  | partialMatch _ _ furthest? => furthest?
  | failed failure => some failure

/-- The result in words. -/
def summary : ParseResult → String
  | complete _ => "complete"
  | partialMatch _ consumed _ => s!"partial ({consumed} atoms)"
  | failed failure => failure.message

end ParseResult

end Packrat
