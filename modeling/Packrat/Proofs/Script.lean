import Packrat.Session.Evaluate

/-!
# Scripts

What matching an expression asks of its parts, apart from who answers: a `Script` notes failures,
has other expressions matched and goes on with their outcomes. `Script.run` plays a script with an
evaluator and a session.

* `Context.step_eq_run`: one step of the engine is the run of `Script.ofExpr`, for every expression
  but a reference to a rule.
* `Context.matchBody_eq_run`: the body of a rule is matched by the run of `Script.ofBody`;
  `matchRule_hit`, `matchRule_miss`, `enterRule_ok` and their like say what is done around it.

What holds of every construct alike is proved by induction on scripts, in four cases. What a
construct does is read off its script, in which no session occurs.
-/

set_option autoImplicit false

namespace Packrat

/-- The course of an evaluation up to its value. -/
inductive Script (α : Type)
  | done (value : α)
  /-- Notes a failure. -/
  | note (failure : Failure) (next : Script α)
  /-- Matches an expression and goes on with the outcome. -/
  | call (expr : Expr) (pos : Nat) (next : Outcome → Script α)
  /-- Asks whether an expression matches. The failures met on the way are forgotten. -/
  | peek (expr : Expr) (pos : Nat) (next : Bool → Script α)

namespace Script

variable {α β : Type}

/-- Plays a script with an evaluator for the expressions that it calls. An error ends it. -/
def run (eval : Evaluator) : Script α → Session → Result α
  | done value, session => (.ok value, session)
  | note failure next, session => next.run eval (session.note (some failure))
  | call expr pos next, session =>
    match eval expr pos session with
    | (.ok outcome, session) => (next outcome).run eval session
    | (.error error, session) => (.error error, session)
  | peek expr pos next, session =>
    match Context.lookahead eval expr pos session with
    | (.ok matched, session) => (next matched).run eval session
    | (.error error, session) => (.error error, session)

section
variable {eval : Evaluator} {expr : Expr} {pos : Nat} {session session' : Session}
  {outcome : Outcome} {error : ParseError}

theorem run_call_ok {next : Outcome → Script α}
    (h : eval expr pos session = (.ok outcome, session')) :
    (call expr pos next).run eval session = (next outcome).run eval session' := by
  simp only [run, h]

theorem run_call_error {next : Outcome → Script α}
    (h : eval expr pos session = (.error error, session')) :
    (call expr pos next).run eval session = (.error error, session') := by
  simp only [run, h]

theorem run_peek_ok {next : Bool → Script α}
    (h : eval expr pos session.withoutFurthest = (.ok outcome, session')) :
    (peek expr pos next).run eval session =
      (next outcome.isSuccess).run eval { session' with furthest? := session.furthest? } := by
  simp only [run, Context.lookahead, h, Except.map]

theorem run_peek_error {next : Bool → Script α}
    (h : eval expr pos session.withoutFurthest = (.error error, session')) :
    (peek expr pos next).run eval session =
      (.error error, { session' with furthest? := session.furthest? }) := by
  simp only [run, Context.lookahead, h, Except.map]

end

/-- The script with its value passed through a function. -/
def map (f : α → β) : Script α → Script β
  | done value => done (f value)
  | note failure next => note failure (next.map f)
  | call expr pos next => call expr pos fun outcome => (next outcome).map f
  | peek expr pos next => peek expr pos fun matched => (next matched).map f

theorem run_map (eval : Evaluator) (f : α → β) (script : Script α) (session : Session) :
    (script.map f).run eval session =
      ((script.run eval session).1.map f, (script.run eval session).2) := by
  induction script generalizing session with
  | done value => rfl
  | note failure next ih => exact ih _
  | call expr pos next ih =>
    simp only [map, run]
    split
    · exact ih _ _
    · rfl
  | peek expr pos next ih =>
    simp only [map, run]
    split
    · exact ih _ _
    · rfl

/-! ## The scripts of the constructs -/

/-- Fails for one expectation. -/
def fail (pos : Nat) (expected : String) : Script Outcome :=
  note (.single pos expected) (done (.failure (.single pos expected)))

def ofLiteral (input : Input) (text : String) (pos : Nat) : Script Outcome :=
  let agreed := input.agreement text.toList pos
  if agreed = text.toList.length then done (.terminal pos (pos + agreed))
  else fail (pos + agreed) (Text.quoted text)

/-- The script of one atom that passes a test. -/
def ofAtom (input : Input) (test : Char → Bool) (expected : String) (pos : Nat) :
    Script Outcome :=
  if (input.atom? pos).any test then done (.terminal pos (pos + 1)) else fail pos expected

def ofEnd (input : Input) (pos : Nat) : Script Outcome :=
  if pos = input.length then done (.nothing pos) else fail pos Expr.endOfInput.describe

def ofPattern (input : Input) (pattern : Pattern) (pos : Nat) : Script Outcome :=
  match pattern.matchLength? (input.rest pos) with
  | some length => done (.terminal pos (pos + length))
  | none => fail pos pattern.description

/-- The script of the rest of a sequence, after `children`. -/
def ofSequence (input : Input) (start : Nat) : List Expr → (pos : Nat) → (children : List Node) →
    Script Outcome
  | [], pos, children =>
    let node := { label := .sequence, start, stop := pos, children := children.reverse }
    done (.success pos (some node))
  | expr :: exprs, pos, children =>
    call expr pos fun
      | .success stop node? =>
        ofSequence input start exprs (input.clamp stop) (node?.toList ++ children)
      | .failure failure => done (.failure failure)

/-- The script of the rest of a choice, after the failures `failure?`. -/
def ofChoice (pos : Nat) : List Expr → (index : Nat) → (failure? : Option Failure) →
    Script (Outcome × Nat)
  | [], index, failure? => done (.failure (failure?.getD ⟨pos, ∅⟩), index)
  | expr :: exprs, index, failure? =>
    call expr pos fun
      | .failure failure =>
        ofChoice pos exprs (index + 1) (Failure.mergeOption failure? (some failure))
      | outcome => done (outcome, index)

/-- Success of a repetition. -/
def repeated (start stop : Nat) (children : List Node) : Script Outcome :=
  let node := { label := .repetition, start, stop, children := children.reverse }
  done (.success stop (some node))

/-- The script of the rest of a repetition, after `children`. -/
def ofRepetition (input : Input) (expr : Expr) (start : Nat) : (attempts : Nat) → (pos : Nat) →
    (children : List Node) → Script Outcome
  | 0, pos, children => repeated start pos children
  | attempts + 1, pos, children =>
    call expr pos fun
      | .failure _ => repeated start pos children
      | .success stop node? =>
        if stop = pos then repeated start pos children
        else
          ofRepetition input expr start attempts (input.clamp stop) (node?.toList ++ children)

/-- The script of an expression. That of a reference only calls the reference: rules are not
matched by a script. -/
def ofExpr (input : Input) (expr : Expr) (pos : Nat) : Script Outcome :=
  match expr with
  | .literal text => ofLiteral input text pos
  | .oneIn cls => ofAtom input cls.accepts cls.description pos
  | .any => ofAtom input (fun _ => true) Expr.any.describe pos
  | .endOfInput => ofEnd input pos
  | .regex pattern => ofPattern input pattern pos
  | .sequence exprs => ofSequence input pos exprs pos []
  | .choice exprs => (ofChoice pos exprs 0 none).map Prod.fst
  | .zeroOrMore expr => ofRepetition input expr pos (input.length - pos + 1) pos []
  | .oneOrMore expr =>
    call expr pos fun
      | .failure failure => done (.failure failure)
      | .success stop node? =>
        if stop = pos then repeated pos pos node?.toList
        else
          ofRepetition input expr pos (input.length - pos + 1) (input.clamp stop) node?.toList
  | .optional expr =>
    call expr pos fun
      | .failure _ => done (.nothing pos)
      | outcome => done outcome
  | .followedBy expr =>
    peek expr pos fun matched => if matched then done (.nothing pos) else fail pos expr.describe
  | .notFollowedBy expr =>
    peek expr pos fun matched =>
      if matched then fail pos ("not " ++ expr.describe) else done (.nothing pos)
  | .ruleRef name => call (.ruleRef name) pos done

def ofBody (name : String) (body : Expr) (pos : Nat) : Script Outcome :=
  match body with
  | .choice exprs =>
    (ofChoice pos exprs 0 none).map fun (outcome, index) =>
      Context.ruleOutcome name pos (Context.recordedIndex index) outcome
  | body => (call body pos done).map (Context.ruleOutcome name pos none)

end Script

/-- The session after a look-up that found an entry. -/
def Session.hit (session : Session) : Session :=
  { session with cache := { session.cache with hits := session.cache.hits + 1 } }

/-- The session after a look-up that found none. -/
def Session.missed (session : Session) : Session :=
  { session with cache := { session.cache with misses := session.cache.misses + 1 } }

/-- The session with its furthest failure merged into an earlier one. -/
def Session.mergedInto (session : Session) (earlier? : Option Failure) : Session :=
  { session with furthest? := Failure.mergeOption earlier? session.furthest? }

/-! ## The engine runs scripts -/

theorem Expr.ruleRef_or_not (expr : Expr) :
    (∃ name, expr = .ruleRef name) ∨ ∀ name, expr ≠ .ruleRef name := by
  cases expr <;> simp

namespace Context

variable (context : Context) (eval : Evaluator)

theorem matchSequence_eq_run (start : Nat) (exprs : List Expr) (pos : Nat) (children : List Node)
    (session : Session) :
    context.matchSequence eval start exprs pos children session =
      (Script.ofSequence context.input start exprs pos children).run eval session := by
  induction exprs generalizing pos children session with
  | nil => rfl
  | cons expr exprs ih =>
    simp only [matchSequence, Script.ofSequence, Script.run]
    rcases eval expr pos session with ⟨_ | (⟨stop, node?⟩ | failure), after⟩
    · rfl
    · exact ih _ _ _
    · rfl

theorem matchChoice_eq_run (pos : Nat) (exprs : List Expr) (index : Nat)
    (failure? : Option Failure) (session : Session) :
    matchChoice eval pos exprs index failure? session =
      (Script.ofChoice pos exprs index failure?).run eval session := by
  induction exprs generalizing index failure? session with
  | nil => rfl
  | cons expr exprs ih =>
    simp only [matchChoice, Script.ofChoice, Script.run]
    rcases eval expr pos session with ⟨_ | (⟨stop, node?⟩ | failure), after⟩
    · rfl
    · rfl
    · exact ih _ _ _

theorem matchRepeatedly_eq_run (expr : Expr) (start attempts pos : Nat) (children : List Node)
    (session : Session) :
    context.matchRepeatedly eval expr start attempts pos children session =
      (Script.ofRepetition context.input expr start attempts pos children).run eval session := by
  induction attempts generalizing pos children session with
  | zero => rfl
  | succ attempts ih =>
    simp only [matchRepeatedly, Script.ofRepetition, Script.run]
    rcases eval expr pos session with ⟨_ | (⟨stop, node?⟩ | failure), after⟩
    · rfl
    · simp only
      split
      · rfl
      · exact ih _ _ _
    · rfl

theorem matchOneOrMore_eq_run (expr : Expr) (pos : Nat) (session : Session) :
    context.matchOneOrMore eval expr pos session =
      (Script.ofExpr context.input (.oneOrMore expr) pos).run eval session := by
  simp only [matchOneOrMore, Script.ofExpr, Script.run]
  rcases eval expr pos session with ⟨_ | (⟨stop, node?⟩ | failure), after⟩
  · rfl
  · simp only
    split
    · rfl
    · exact matchRepeatedly_eq_run context eval expr pos _ _ _ after
  · rfl

theorem step_eq_run {expr : Expr} (h : ∀ name, expr ≠ .ruleRef name) (pos : Nat)
    (session : Session) :
    context.step eval expr pos session =
      (Script.ofExpr context.input expr pos).run eval session := by
  cases expr with
  | literal text => simp only [step, matchLiteral, Script.ofExpr, Script.ofLiteral]; split <;> rfl
  | oneIn cls => simp only [step, matchAtom, Script.ofExpr, Script.ofAtom]; split <;> rfl
  | any => simp only [step, matchAtom, Script.ofExpr, Script.ofAtom]; split <;> rfl
  | endOfInput => simp only [step, matchEnd, Script.ofExpr, Script.ofEnd]; split <;> rfl
  | regex pattern =>
    simp only [step, matchPattern, Script.ofExpr, Script.ofPattern]
    cases pattern.matchLength? (context.input.rest pos) <;> rfl
  | sequence exprs => exact matchSequence_eq_run context eval pos exprs pos [] session
  | choice exprs =>
    simp only [step, Script.ofExpr, Script.run_map, matchChoice_eq_run]
  | zeroOrMore expr => exact matchRepeatedly_eq_run context eval expr pos _ pos [] session
  | oneOrMore expr => exact matchOneOrMore_eq_run context eval expr pos session
  | optional expr =>
    simp only [step, matchOptional, Script.ofExpr, Script.run]
    rcases eval expr pos session with ⟨_ | (⟨stop, node?⟩ | failure), after⟩ <;> rfl
  | followedBy expr =>
    simp only [step, matchFollowedBy, Script.ofExpr, Script.run]
    rcases lookahead eval expr pos session with ⟨_ | (_ | _), after⟩ <;> rfl
  | notFollowedBy expr =>
    simp only [step, matchNotFollowedBy, Script.ofExpr, Script.run]
    rcases lookahead eval expr pos session with ⟨_ | (_ | _), after⟩ <;> rfl
  | ruleRef name => exact absurd rfl (h name)

theorem matchBody_eq_run (name : String) (body : Expr) (pos : Nat) (session : Session) :
    matchBody eval name body pos session = (Script.ofBody name body pos).run eval session := by
  have called (expr : Expr) : (Script.call expr pos Script.done).run eval session =
      eval expr pos session := by
    simp only [Script.run]
    rcases eval expr pos session with ⟨_ | _, after⟩ <;> rfl
  cases body with
  | choice exprs => simp only [matchBody, Script.ofBody, Script.run_map, matchChoice_eq_run]
  | _ => simp only [matchBody, Script.ofBody, Script.run_map, called]

/-! ## Calls of rules -/

variable {context eval} {name : String} {rule : Rule} {body : Expr} {pos : Nat}
  {session inner : Session}

theorem enterRule_ok {outcome : Outcome}
    (h : (Script.ofBody name body pos).run eval
      (session.report (.ruleEntered name pos)).withoutFurthest = (.ok outcome, inner)) :
    context.enterRule eval name body pos session =
      (.ok outcome,
        if context.options.memoize then
          (inner.mergedInto session.furthest?).keep name pos ⟨outcome, inner.furthest?⟩
        else inner.mergedInto session.furthest?) := by
  simp only [enterRule, matchBody_eq_run, h]
  rfl

theorem enterRule_error {error : ParseError}
    (h : (Script.ofBody name body pos).run eval
      (session.report (.ruleEntered name pos)).withoutFurthest = (.error error, inner)) :
    context.enterRule eval name body pos session =
      (.error error, inner.mergedInto session.furthest?) := by
  simp only [enterRule, matchBody_eq_run, h]
  rfl

theorem matchRule_undefined (h : context.grammar.rule? name = none) :
    context.matchRule eval name pos session = (.error (.undefinedRule name), session) := by
  simp only [matchRule, Grammar.resolve, h]

theorem matchRule_unmemoized (h : context.grammar.rule? name = some rule)
    (hm : context.options.memoize = false) :
    context.matchRule eval name pos session =
      context.enterRule eval name rule.body pos session := by
  simp only [matchRule, Grammar.resolve, h, hm, Bool.false_eq_true, if_false]

theorem matchRule_hit {entry : CacheEntry} (h : context.grammar.rule? name = some rule)
    (hm : context.options.memoize = true) (hc : session.cache.get? name pos = some entry) :
    context.matchRule eval name pos session =
      (.ok entry.outcome, (session.hit.report (.cacheHit name pos)).note entry.furthest?) := by
  simp only [matchRule, Grammar.resolve, h, hm, if_true, Session.lookup, Cache.lookup, hc]
  rfl

theorem matchRule_miss (h : context.grammar.rule? name = some rule)
    (hm : context.options.memoize = true) (hc : session.cache.get? name pos = none) :
    context.matchRule eval name pos session =
      context.enterRule eval name rule.body pos session.missed := by
  simp only [matchRule, Grammar.resolve, h, hm, if_true, Session.lookup, Cache.lookup, hc]
  rfl

end Context

end Packrat
