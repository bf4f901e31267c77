import Packrat.Session.Basic

/-!
# Combinations

Matching of sequences, choices, repetitions, optional expressions and lookahead, given an evaluator
for the expressions that they combine.
-/

set_option autoImplicit false

namespace Packrat.Context

/-! ## Sequences and choices -/

/-- Matches expressions one after the other. `children` are the nodes so far, the last one
first. -/
def matchSequence (context : Context) (eval : Evaluator) (start : Nat) :
    List Expr → (pos : Nat) → (children : List Node) → Session → Result Outcome
  | [], pos, children, session =>
    let node := { label := .sequence, start, stop := pos, children := children.reverse }
    (.ok (.success pos (some node)), session)
  | expr :: exprs, pos, children, session =>
    match eval expr pos session with
    | (.ok (.success stop node?), session) =>
      matchSequence context eval start exprs (context.input.clamp stop)
        (node?.toList ++ children) session
    | stopped => stopped

/-- Tries alternatives at one position, the first of which has the index `index`. The first that
matches wins and is returned with its index; if none does, their failures are merged with
`failure?`, the failures of those before. -/
def matchChoice (eval : Evaluator) (pos : Nat) :
    List Expr → (index : Nat) → (failure? : Option Failure) → Session → Result (Outcome × Nat)
  | [], index, failure?, session =>
    (.ok (.failure (failure?.getD ⟨pos, ∅⟩), index), session)
  | expr :: exprs, index, failure?, session =>
    match eval expr pos session with
    | (.error error, session) => (.error error, session)
    | (.ok (.failure failure), session) =>
      matchChoice eval pos exprs (index + 1) (Failure.mergeOption failure? (some failure)) session
    | (.ok outcome, session) => (.ok (outcome, index), session)

/-! ## Repetitions -/

/-- Success of a repetition. -/
def repeated (start stop : Nat) (children : List Node) (session : Session) : Result Outcome :=
  let node := { label := .repetition, start, stop, children := children.reverse }
  (.ok (.success stop (some node)), session)

/-- Matches an expression again and again, until it fails or matches nothing. At most `attempts`
attempts are made, which is no limit if there are more of them than atoms left. -/
def matchRepeatedly (context : Context) (eval : Evaluator) (expr : Expr) (start : Nat) :
    (attempts : Nat) → (pos : Nat) → (children : List Node) → Session → Result Outcome
  | 0, pos, children, session => repeated start pos children session
  | attempts + 1, pos, children, session =>
    match eval expr pos session with
    | (.error error, session) => (.error error, session)
    | (.ok (.failure _), session) => repeated start pos children session
    | (.ok (.success stop node?), session) =>
      if stop = pos then repeated start pos children session
      else
        matchRepeatedly context eval expr start attempts (context.input.clamp stop)
          (node?.toList ++ children) session

/-- More attempts than there are atoms from a position on. -/
def attempts (context : Context) (pos : Nat) : Nat := context.input.length - pos + 1

/-- Matches an expression any number of times. -/
def matchZeroOrMore (context : Context) (eval : Evaluator) (expr : Expr) (pos : Nat)
    (session : Session) : Result Outcome :=
  matchRepeatedly context eval expr pos (context.attempts pos) pos [] session

/-- Matches an expression at least once. A first match of nothing counts, and ends the
repetition. -/
def matchOneOrMore (context : Context) (eval : Evaluator) (expr : Expr) (pos : Nat)
    (session : Session) : Result Outcome :=
  match eval expr pos session with
  | (.ok (.success stop node?), session) =>
    if stop = pos then repeated pos pos node?.toList session
    else
      matchRepeatedly context eval expr pos (context.attempts pos) (context.input.clamp stop)
        node?.toList session
  | stopped => stopped

/-- Matches an expression or nothing. -/
def matchOptional (eval : Evaluator) (expr : Expr) (pos : Nat) (session : Session) :
    Result Outcome :=
  match eval expr pos session with
  | (.ok (.failure _), session) => session.pass pos
  | other => other

/-! ## Lookahead -/

/-- Whether an expression matches. The failures met on the way are forgotten. -/
def lookahead (eval : Evaluator) (expr : Expr) (pos : Nat) (session : Session) : Result Bool :=
  let (result, after) := eval expr pos session.withoutFurthest
  (result.map Outcome.isSuccess, { after with furthest? := session.furthest? })

/-- Matches nothing where an expression matches. -/
def matchFollowedBy (eval : Evaluator) (expr : Expr) (pos : Nat) (session : Session) :
    Result Outcome :=
  match lookahead eval expr pos session with
  | (.error error, session) => (.error error, session)
  | (.ok true, session) => session.pass pos
  | (.ok false, session) => session.fail pos expr.describe

/-- Matches nothing where an expression does not match. -/
def matchNotFollowedBy (eval : Evaluator) (expr : Expr) (pos : Nat) (session : Session) :
    Result Outcome :=
  match lookahead eval expr pos session with
  | (.error error, session) => (.error error, session)
  | (.ok true, session) => session.fail pos ("not " ++ expr.describe)
  | (.ok false, session) => session.pass pos

end Packrat.Context
