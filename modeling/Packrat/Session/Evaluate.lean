import Packrat.Cursor
import Packrat.Session.RuleCall
import Packrat.Session.Terminal

/-!
# Evaluation

`Context.step` says what one expression does in terms of an evaluator for the expressions inside
it, and `Context.evaluate` ties the two up to a number of nested evaluations.
-/

set_option autoImplicit false

namespace Packrat

namespace Context

/-- Matches an expression, given an evaluator for the expressions inside it and for the bodies of
rules. -/
def step (context : Context) (eval : Evaluator) (expr : Expr) (pos : Nat) (session : Session) :
    Result Outcome :=
  match expr with
  | .literal text => context.matchLiteral text pos session
  | .oneIn cls => context.matchAtom cls.accepts cls.description pos session
  | .any => context.matchAtom (fun _ => true) Expr.any.describe pos session
  | .endOfInput => context.matchEnd pos session
  | .regex pattern => context.matchPattern pattern pos session
  | .sequence exprs => context.matchSequence eval pos exprs pos [] session
  | .choice exprs =>
    let (result, session) := matchChoice eval pos exprs 0 none session
    (result.map Prod.fst, session)
  | .zeroOrMore expr => context.matchZeroOrMore eval expr pos session
  | .oneOrMore expr => context.matchOneOrMore eval expr pos session
  | .optional expr => matchOptional eval expr pos session
  | .followedBy expr => matchFollowedBy eval expr pos session
  | .notFollowedBy expr => matchNotFollowedBy eval expr pos session
  | .ruleRef name => context.matchRule eval name pos session

/-- Matches an expression with at most `depth` nested evaluations, itself included. -/
def evaluate (context : Context) : (depth : Nat) → Evaluator
  | 0 => fun _ pos session => (.error (.recursionLimit context.options.maxDepth pos), session)
  | depth + 1 => context.step (evaluate context depth)

/-- Matches an expression at a position, with as many nested evaluations as the options allow. -/
def matchAt (context : Context) (expr : Expr) (pos : Nat) (session : Session) : Result Outcome :=
  context.evaluate context.options.maxDepth expr pos session

/-- Matches an expression at a cursor. -/
def matchExpr (context : Context) (expr : Expr) (cursor : Cursor context.input)
    (session : Session) : Result Outcome := context.matchAt expr cursor.position session

end Context

/-- Matches an expression at a cursor with the default options, over a cache of the caller's. -/
def matchExpr (grammar : Grammar) {input : Input} (expr : Expr) (cursor : Cursor input)
    (cache : Cache) : Result Outcome :=
  Context.matchExpr { grammar, input } expr cursor { cache }

end Packrat
