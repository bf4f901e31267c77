import Packrat.Session.Combination

/-!
# Calls of rules

Matching of references to rules: the look-up in the cache, the evaluation of the body, the node
that is put around it, and the share of the rule in the furthest failure, which is kept with its
outcome so that a use of the cache reports what the evaluation would have reported.
-/

set_option autoImplicit false

namespace Packrat.Context

/-- The node of a rule around the node of its body. A sequence or a repetition that is the whole
body gives way to its children. -/
def ruleNode (name : String) (start stop : Nat) (alternative : Option Nat) (body? : Option Node) :
    Node :=
  let children := match body? with
    | none => []
    | some body =>
      match body.label with
      | .sequence => body.children
      | .repetition => body.children
      | _ => [body]
  { label := .rule name, start, stop, children, alternative }

/-- The outcome of a rule from the outcome of its body. -/
def ruleOutcome (name : String) (start : Nat) (alternative : Option Nat) : Outcome → Outcome
  | .success stop body? => .success stop (some (ruleNode name start stop alternative body?))
  | .failure failure => .failure failure

/-- How many alternatives of a choice have an index that is recorded. -/
def recordedAlternatives : Nat := 65536

/-- The index of an alternative as it is recorded. -/
def recordedIndex (index : Nat) : Option Nat :=
  if index < recordedAlternatives then some index else none

/-- Matches the body of a rule. The alternatives of a choice that is the whole body are evaluated
as the body itself would be, and the index of the one that matches is recorded. -/
def matchBody (eval : Evaluator) (name : String) (body : Expr) (pos : Nat) (session : Session) :
    Result Outcome :=
  match body with
  | .choice exprs =>
    let (result, session) := matchChoice eval pos exprs 0 none session
    (result.map fun (outcome, index) => ruleOutcome name pos (recordedIndex index) outcome,
      session)
  | body =>
    let (result, session) := eval body pos session
    (result.map (ruleOutcome name pos none), session)

/-- Evaluates a rule and, if outcomes are kept, keeps its outcome. -/
def enterRule (context : Context) (eval : Evaluator) (name : String) (body : Expr) (pos : Nat)
    (session : Session) : Result Outcome :=
  let session := session.report (.ruleEntered name pos)
  let (result, inner) := matchBody eval name body pos session.withoutFurthest
  let after := { inner with furthest? := Failure.mergeOption session.furthest? inner.furthest? }
  match result with
  | .ok outcome =>
    (.ok outcome,
      if context.options.memoize then after.keep name pos ⟨outcome, inner.furthest?⟩ else after)
  | .error error => (.error error, after)

/-- Matches the rule of a name, from the cache if outcomes are kept and this one has been. -/
def matchRule (context : Context) (eval : Evaluator) (name : String) (pos : Nat)
    (session : Session) : Result Outcome :=
  match context.grammar.resolve name with
  | .error error => (.error error, session)
  | .ok body =>
    if context.options.memoize then
      match session.lookup name pos with
      | (some entry, session) =>
        (.ok entry.outcome, (session.report (.cacheHit name pos)).note entry.furthest?)
      | (none, session) => enterRule context eval name body pos session
    else enterRule context eval name body pos session

end Packrat.Context
