import Packrat.Proofs.Semantics

/-!
# Attempts

What matching an expression has matched in its turn, told by the semantics alone.
`Grammar.Attempts` relates an evaluation to those nested directly in it outside of lookahead,
`Grammar.Evaluates` adds those in a lookahead, and `Grammar.Fails` holds of the failure that an
expression raises of its own, as terminals and predicates do. All of them stay within the input
(`Attempts.within`, `Evaluates.within`).
-/

set_option autoImplicit false

namespace Packrat

/-- Matching an expression at a position has a part of it matched, outside of lookahead. The
alternatives of a choice that is the whole body of a rule take the place of the body. -/
inductive Grammar.Attempts (grammar : Grammar) (input : Input) : Expr → Nat → Expr → Nat → Prop
  | sequence_first {expr : Expr} {exprs : List Expr} {pos : Nat} :
      Attempts grammar input (.sequence (expr :: exprs)) pos expr pos
  | sequence_rest {expr part : Expr} {exprs : List Expr} {pos stop place : Nat}
      (first : grammar.Derives input expr pos (.success stop))
      (rest : Attempts grammar input (.sequence exprs) stop part place) :
      Attempts grammar input (.sequence (expr :: exprs)) pos part place
  | choice_first {expr : Expr} {exprs : List Expr} {pos : Nat} :
      Attempts grammar input (.choice (expr :: exprs)) pos expr pos
  | choice_rest {expr part : Expr} {exprs : List Expr} {pos place : Nat}
      (first : grammar.Derives input expr pos .failure)
      (rest : Attempts grammar input (.choice exprs) pos part place) :
      Attempts grammar input (.choice (expr :: exprs)) pos part place
  | zeroOrMore_round {expr : Expr} {pos : Nat} :
      Attempts grammar input (.zeroOrMore expr) pos expr pos
  | zeroOrMore_rest {expr part : Expr} {pos stop place : Nat}
      (round : grammar.Derives input expr pos (.success stop)) (h : stop ≠ pos)
      (rest : Attempts grammar input (.zeroOrMore expr) stop part place) :
      Attempts grammar input (.zeroOrMore expr) pos part place
  | oneOrMore_round {expr : Expr} {pos : Nat} :
      Attempts grammar input (.oneOrMore expr) pos expr pos
  | oneOrMore_rest {expr part : Expr} {pos stop place : Nat}
      (round : grammar.Derives input expr pos (.success stop)) (h : stop ≠ pos)
      (rest : Attempts grammar input (.zeroOrMore expr) stop part place) :
      Attempts grammar input (.oneOrMore expr) pos part place
  | optional_inner {expr : Expr} {pos : Nat} : Attempts grammar input (.optional expr) pos expr pos
  | ruleRef_body {name : String} {rule : Rule} {pos : Nat} (h : grammar.rule? name = some rule)
      (hbody : ∀ exprs, rule.body ≠ .choice exprs) :
      Attempts grammar input (.ruleRef name) pos rule.body pos
  | ruleRef_alternative {name : String} {rule : Rule} {exprs : List Expr} {part : Expr}
      {pos place : Nat} (h : grammar.rule? name = some rule) (hbody : rule.body = .choice exprs)
      (alternative : Attempts grammar input (.choice exprs) pos part place) :
      Attempts grammar input (.ruleRef name) pos part place

/-- Matching an expression at a position has a part of it matched, in a lookahead or not. -/
inductive Grammar.Evaluates (grammar : Grammar) (input : Input) : Expr → Nat → Expr → Nat → Prop
  | attempted {expr part : Expr} {pos place : Nat}
      (h : grammar.Attempts input expr pos part place) :
      Evaluates grammar input expr pos part place
  | followedBy {expr : Expr} {pos : Nat} : Evaluates grammar input (.followedBy expr) pos expr pos
  | notFollowedBy {expr : Expr} {pos : Nat} :
      Evaluates grammar input (.notFollowedBy expr) pos expr pos

/-- Matching an expression at a position raises a failure of its own: a terminal that does not
match, or a predicate that does not hold. -/
inductive Grammar.Fails (grammar : Grammar) (input : Input) : Expr → Nat → Failure → Prop
  | literal {text : String} {pos agreed : Nat}
      (hagreed : text.toList.take agreed <+: input.rest pos)
      (hdiffers : ¬ text.toList.take (agreed + 1) <+: input.rest pos) :
      Fails grammar input (.literal text) pos (.single (pos + agreed) (Text.quoted text))
  | oneIn {cls : CharClass} {pos : Nat}
      (h : ∀ c, input.atom? pos = some c → cls.accepts c = false) :
      Fails grammar input (.oneIn cls) pos (.single pos cls.description)
  | any {pos : Nat} (h : input.atom? pos = none) :
      Fails grammar input .any pos (.single pos Expr.any.describe)
  | endOfInput {pos : Nat} (h : pos ≠ input.length) :
      Fails grammar input .endOfInput pos (.single pos Expr.endOfInput.describe)
  | regex {pattern : Pattern} {pos : Nat} (h : pattern.matchLength? (input.rest pos) = none) :
      Fails grammar input (.regex pattern) pos (.single pos pattern.description)
  | followedBy {expr : Expr} {pos : Nat} (h : grammar.Derives input expr pos .failure) :
      Fails grammar input (.followedBy expr) pos (.single pos expr.describe)
  | notFollowedBy {expr : Expr} {pos stop : Nat}
      (h : grammar.Derives input expr pos (.success stop)) :
      Fails grammar input (.notFollowedBy expr) pos (.single pos ("not " ++ expr.describe))

variable {grammar : Grammar} {input : Input}

namespace Grammar

theorem Attempts.within {expr part : Expr} {pos place : Nat}
    (h : grammar.Attempts input expr pos part place) (hpos : pos ≤ input.length) :
    place ≤ input.length := by
  induction h with
  | sequence_rest first _ ih => exact ih (first.within hpos).2
  | choice_rest _ _ ih => exact ih hpos
  | zeroOrMore_rest round _ _ ih => exact ih (round.within hpos).2
  | oneOrMore_rest round _ _ ih => exact ih (round.within hpos).2
  | ruleRef_alternative _ _ _ ih => exact ih hpos
  | _ => exact hpos

theorem Evaluates.within {expr part : Expr} {pos place : Nat}
    (h : grammar.Evaluates input expr pos part place) (hpos : pos ≤ input.length) :
    place ≤ input.length := by
  cases h with
  | attempted h => exact h.within hpos
  | followedBy => exact hpos
  | notFollowedBy => exact hpos

end Grammar

end Packrat
