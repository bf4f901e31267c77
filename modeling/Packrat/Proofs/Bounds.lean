import Packrat.Proofs.Diagnosis
import Packrat.Proofs.Spans
import Packrat.Proofs.UndefinedRules

/-!
# Positions stay in bounds

Whatever a match from a position comes to, the positions in it lie between that one and the end of
the input: where it stops, where it fails, where it ran out of depth, and the failures that it
notes (`Context.matchExpr_within`).

* What an expression raises lies there (`Grammar.Raises.between`), and a run notes nothing else,
  even if it runs out of depth (`Inside`).
* The engine sets a position back to the end of the input if it lies beyond. `evaluateUnclamped` is
  the engine without that, and does the same: scripts that differ only in this are alike
  (`Script.Alike`), as nothing that they call stops beyond the end.
-/

set_option autoImplicit false

namespace Packrat

/-! ## Failures that are raised -/

namespace Grammar

variable {grammar : Grammar} {input : Input} {expr : Expr} {pos : Nat}

theorem Attempts.between {part : Expr} {place : Nat}
    (h : grammar.Attempts input expr pos part place) (hpos : pos ≤ input.length) :
    pos ≤ place ∧ place ≤ input.length := by
  refine ⟨?_, h.within hpos⟩
  induction h with
  | sequence_rest first _ ih =>
    obtain ⟨hle, hstop⟩ := first.within hpos
    exact Nat.le_trans hle (ih hstop)
  | choice_rest _ _ ih => exact ih hpos
  | zeroOrMore_rest round _ _ ih =>
    obtain ⟨hle, hstop⟩ := round.within hpos
    exact Nat.le_trans hle (ih hstop)
  | oneOrMore_rest round _ _ ih =>
    obtain ⟨hle, hstop⟩ := round.within hpos
    exact Nat.le_trans hle (ih hstop)
  | ruleRef_alternative _ _ _ ih => exact ih hpos
  | _ => exact Nat.le_refl _

theorem Evaluates.between {part : Expr} {place : Nat}
    (h : grammar.Evaluates input expr pos part place) (hpos : pos ≤ input.length) :
    pos ≤ place ∧ place ≤ input.length := by
  cases h with
  | attempted h => exact h.between hpos
  | followedBy => exact ⟨Nat.le_refl _, hpos⟩
  | notFollowedBy => exact ⟨Nat.le_refl _, hpos⟩

/-- A text fails no further on than it agrees with the input. -/
theorem Fails.between {failure : Failure} (h : grammar.Fails input expr pos failure)
    (hpos : pos ≤ input.length) : pos ≤ failure.position ∧ failure.position ≤ input.length := by
  cases h with
  | @literal text _ agreed hagreed hdiffers =>
    have hshort : agreed < text.toList.length := by
      by_contra hlong
      rw [List.take_of_length_le (by omega)] at hagreed hdiffers
      exact hdiffers hagreed
    have hlength := hagreed.length_le
    rw [Input.rest_length, List.length_take] at hlength
    simp only [Failure.single]
    omega
  | _ => exact ⟨Nat.le_refl _, hpos⟩

/-- **Failures are raised between the position and the end of the input.** -/
theorem Raises.between {failure : Failure} (h : grammar.Raises input expr pos failure)
    (hpos : pos ≤ input.length) : pos ≤ failure.position ∧ failure.position ≤ input.length := by
  induction h with
  | own h => exact h.between hpos
  | attempted h _ ih =>
    obtain ⟨hle, hplace⟩ := h.between hpos
    obtain ⟨hfailure, hlength⟩ := ih hplace
    exact ⟨Nat.le_trans hle hfailure, hlength⟩

end Grammar

/-! ## Going on where a part has stopped -/

namespace Script

/-- The script of the rest of a sequence that goes on where a part has stopped, wherever that
is. -/
def ofSequenceUnclamped (start : Nat) : List Expr → (pos : Nat) → (children : List Node) →
    Script Outcome
  | [], pos, children =>
    let node := { label := .sequence, start, stop := pos, children := children.reverse }
    done (.success pos (some node))
  | expr :: exprs, pos, children =>
    call expr pos fun
      | .success stop node? => ofSequenceUnclamped start exprs stop (node?.toList ++ children)
      | .failure failure => done (.failure failure)

/-- The script of the rest of a repetition that goes on where a round has stopped, wherever that
is. -/
def ofRepetitionUnclamped (expr : Expr) (start : Nat) : (attempts : Nat) → (pos : Nat) →
    (children : List Node) → Script Outcome
  | 0, pos, children => repeated start pos children
  | attempts + 1, pos, children =>
    call expr pos fun
      | .failure _ => repeated start pos children
      | .success stop node? =>
        if stop = pos then repeated start pos children
        else ofRepetitionUnclamped expr start attempts stop (node?.toList ++ children)

/-- The script of an expression that goes on where a part has stopped, wherever that is. -/
def ofExprUnclamped (input : Input) (expr : Expr) (pos : Nat) : Script Outcome :=
  match expr with
  | .sequence exprs => ofSequenceUnclamped pos exprs pos []
  | .zeroOrMore expr => ofRepetitionUnclamped expr pos (input.length - pos + 1) pos []
  | .oneOrMore expr =>
    call expr pos fun
      | .failure failure => done (.failure failure)
      | .success stop node? =>
        if stop = pos then repeated pos pos node?.toList
        else ofRepetitionUnclamped expr pos (input.length - pos + 1) stop node?.toList
  | expr => ofExpr input expr pos

end Script

/-- The engine, but that it never sets a position back to the end of the input. -/
def Context.evaluateUnclamped (context : Context) : (depth : Nat) → Evaluator
  | 0 => context.evaluate 0
  | depth + 1 => fun expr pos session =>
    match expr with
    | .ruleRef name => context.matchRule (evaluateUnclamped context depth) name pos session
    | expr =>
      (Script.ofExprUnclamped context.input expr pos).run (evaluateUnclamped context depth) session

/-! ## Alike scripts -/

namespace Script

variable {α : Type}

/-- Two scripts do the same, provided that what they call spans what it should in an input of
`bound` atoms. -/
inductive Alike (bound : Nat) : Script α → Script α → Prop
  | done (value : α) : Alike bound (done value) (done value)
  | note {failure : Failure} {next next' : Script α} (h : Alike bound next next') :
      Alike bound (note failure next) (note failure next')
  | call {expr : Expr} {pos : Nat} {next next' : Outcome → Script α}
      (h : ∀ outcome, outcome.Spans bound pos → Alike bound (next outcome) (next' outcome)) :
      Alike bound (call expr pos next) (call expr pos next')
  | peek {expr : Expr} {pos : Nat} {next next' : Bool → Script α}
      (h : ∀ matched, Alike bound (next matched) (next' matched)) :
      Alike bound (peek expr pos next) (peek expr pos next')

namespace Alike

theorem refl (bound : Nat) (script : Script α) : Alike bound script script := by
  induction script with
  | done value => exact .done value
  | note failure next ih => exact .note ih
  | call expr pos next ih => exact .call fun outcome _ => ih outcome
  | peek expr pos next ih => exact .peek ih

variable {input : Input}

theorem sequence (start : Nat) (exprs : List Expr) (pos : Nat) (children : List Node) :
    Alike input.length (ofSequence input start exprs pos children)
      (ofSequenceUnclamped start exprs pos children) := by
  induction exprs generalizing pos children with
  | nil => exact .done _
  | cons expr exprs ih =>
    refine .call fun outcome ho => ?_
    cases outcome with
    | success stop node? =>
      simp only [Input.clamp_of_le ho.le.2]
      exact ih _ _
    | failure failure => exact .done _

theorem repetition (expr : Expr) (start attempts pos : Nat) (children : List Node) :
    Alike input.length (ofRepetition input expr start attempts pos children)
      (ofRepetitionUnclamped expr start attempts pos children) := by
  induction attempts generalizing pos children with
  | zero => exact .done _
  | succ attempts ih =>
    refine .call fun outcome ho => ?_
    cases outcome with
    | success stop node? =>
      simp only [Input.clamp_of_le ho.le.2]
      split
      · exact .done _
      · exact ih _ _
    | failure failure => exact .done _

/-- **The scripts of an expression are alike**, clamped and unclamped. -/
theorem script (input : Input) (expr : Expr) (pos : Nat) :
    Alike input.length (ofExpr input expr pos) (ofExprUnclamped input expr pos) := by
  cases expr with
  | sequence exprs => exact sequence pos exprs pos []
  | zeroOrMore expr => exact repetition expr pos _ pos []
  | oneOrMore expr =>
    refine .call fun outcome ho => ?_
    cases outcome with
    | success stop node? =>
      simp only [Input.clamp_of_le ho.le.2]
      split
      · exact .done _
      · exact repetition expr pos _ stop _
    | failure failure => exact .done _
  | _ => exact .refl _ _

end Alike

end Script

/-! ## Runs inside the input -/

theorem Evaluator.IsTruthful.of_ok {eval : Evaluator} {grammar : Grammar} {input : Input}
    {memoize : Bool} (htruthful : eval.IsTruthful grammar input memoize) {expr : Expr} {pos : Nat}
    {session after : Session} (hs : memoize = true → session.cache.Truthful grammar input)
    {outcome : Outcome} (hrun : eval expr pos session = (.ok outcome, after)) :
    (∃ answer, grammar.Yields input expr pos answer ∧ answer.value = .ok outcome) ∧
      (memoize = true → after.cache.Truthful grammar input) := by
  obtain ⟨hcache, hanswered⟩ := htruthful expr pos session hs
  rw [hrun] at hcache hanswered
  refine ⟨?_, hcache⟩
  obtain ⟨_, _, he⟩ | ⟨answer, hy, hr, -⟩ := hanswered
  · cases he
  · exact ⟨answer, hy, Answer.value_of_result_ok hr.symm⟩

/-- A run of an expression from a position that, if it ran out of depth, did so between the position
and the end of the input, and that noted only failures that the expression raises. -/
structure Inside {α : Type} (grammar : Grammar) (input : Input) (expr : Expr) (pos : Nat)
    (before : Session) (run : Result α) : Prop where
  exhausted : ∀ limit place, run.1 = .error (.recursionLimit limit place) →
    pos ≤ place ∧ place ≤ input.length
  noted : ∃ noted, run.2.furthest? = Failure.mergeOption before.furthest? (Failure.join noted) ∧
    ∀ failure ∈ noted, grammar.Raises input expr pos failure

namespace Inside

variable {α β : Type} {grammar : Grammar} {input : Input} {expr part : Expr} {pos place : Nat}
  {s s₁ : Session}

theorem silent {result : Except ParseError α} (hr : ¬ Exhausted result)
    (hf : s₁.furthest? = s.furthest?) : Inside grammar input expr pos s (result, s₁) := by
  refine ⟨fun limit place he => absurd ⟨limit, place, he⟩ hr, [], ?_, nofun⟩
  rw [Failure.join, Failure.mergeOption_none_right]
  exact hf

theorem note {failure : Failure} (hf : grammar.Raises input expr pos failure) {run : Result α}
    (h : Inside grammar input expr pos (s.note (some failure)) run) :
    Inside grammar input expr pos s run := by
  obtain ⟨noted, hnoted, hraises⟩ := h.noted
  refine ⟨h.exhausted, failure :: noted, ?_, List.forall_mem_cons.2 ⟨hf, hraises⟩⟩
  rw [hnoted, Failure.join, Session.note, Failure.mergeOption_assoc]

theorem attempted (hp : grammar.Attempts input expr pos part place) (hpos : pos ≤ input.length)
    {run : Result α} (h : Inside grammar input part place s run) :
    Inside grammar input expr pos s run := by
  obtain ⟨hle, hplace⟩ := hp.between hpos
  obtain ⟨noted, hnoted, hraises⟩ := h.noted
  refine ⟨fun limit final he => ?_, noted, hnoted, fun f hf => .attempted hp (hraises f hf)⟩
  obtain ⟨hfinal, hlength⟩ := h.exhausted limit final he
  exact ⟨Nat.le_trans hle hfinal, hlength⟩

/-- What is seen in lookahead is inside where the expression is. The failures are forgotten. -/
theorem hidden (hp : grammar.Evaluates input expr pos part place) (hpos : pos ≤ input.length)
    {result : Except ParseError α}
    (h : Inside grammar input part place s.withoutFurthest (result, s₁)) :
    Inside grammar input expr pos s (result, { s₁ with furthest? := s.furthest? }) := by
  obtain ⟨hle, hplace⟩ := hp.between hpos
  refine ⟨fun limit final he => ?_, [], (Failure.mergeOption_none_right _).symm, nofun⟩
  obtain ⟨hfinal, hlength⟩ := h.exhausted limit final he
  exact ⟨Nat.le_trans hle hfinal, hlength⟩

theorem aborted {error : ParseError}
    (h : Inside grammar input expr pos s ((.error error, s₁) : Result α)) :
    Inside grammar input expr pos s ((.error error, s₁) : Result β) := by
  refine ⟨fun limit place he => ?_, h.noted⟩
  cases he
  exact h.exhausted limit place rfl

theorem followedBy {result : Except ParseError α} {run : Result β}
    (h : Inside grammar input expr pos s (result, s₁)) (h' : Inside grammar input expr pos s₁ run) :
    Inside grammar input expr pos s run := by
  obtain ⟨noted, hnoted, hraises⟩ := h.noted
  obtain ⟨later, hlater, hraises'⟩ := h'.noted
  refine ⟨h'.exhausted, noted ++ later, ?_, ?_⟩
  · rw [hlater, hnoted, Failure.join_append, Failure.mergeOption_assoc]
  · exact List.forall_mem_append.2 ⟨hraises, hraises'⟩

theorem mergedInto {result : Except ParseError α}
    (h : Inside grammar input expr pos s.withoutFurthest (result, s₁)) :
    Inside grammar input expr pos s (result, s₁.mergedInto s.furthest?) := by
  obtain ⟨noted, hnoted, hraises⟩ := h.noted
  refine ⟨h.exhausted, noted, ?_, hraises⟩
  rw [Session.withoutFurthest, Failure.mergeOption_none_left] at hnoted
  rw [Session.mergedInto, hnoted]

end Inside

/-- From the positions of an input, over truthful caches, an evaluator stays inside the input, and
another one does just the same. -/
def Evaluator.StaysInside (eval eval' : Evaluator) (grammar : Grammar) (input : Input)
    (memoize : Bool) : Prop :=
  ∀ expr pos session, pos ≤ input.length →
    (memoize = true → session.cache.Truthful grammar input) →
    Inside grammar input expr pos session (eval expr pos session) ∧
      eval' expr pos session = eval expr pos session

/-- **Alike scripts do the same**, and stay inside the input if they do only what the expression
may do. -/
theorem Script.Alike.run_eq {α : Type} {grammar : Grammar} {input : Input} {memoize : Bool}
    {eval eval' : Evaluator} (htruthful : eval.IsTruthful grammar input memoize)
    (heval : eval.StaysInside eval' grammar input memoize) {expr : Expr} {pos : Nat}
    (hpos : pos ≤ input.length) {script script' : Script α} (h : Alike input.length script script')
    (hobeys : script.Obeys (Derived grammar input) (.of grammar input expr pos))
    {session : Session} (hs : memoize = true → session.cache.Truthful grammar input) :
    Inside grammar input expr pos session (script.run eval session) ∧
      script'.run eval' session = script.run eval session := by
  induction h generalizing session with
  | done value => exact ⟨.silent not_exhausted_ok rfl, rfl⟩
  | @note failure _ _ _ ih =>
    have hs : memoize = true → (session.note (some failure)).cache.Truthful grammar input := hs
    obtain ⟨hinside, heq⟩ := ih hobeys.2 hs
    exact ⟨hinside.note (.own hobeys.1), heq⟩
  | @call part place next next' _ ih =>
    obtain ⟨hpart, hnext⟩ := hobeys
    have hplace := (hpart.between hpos).2
    obtain ⟨hinside, heq⟩ := heval part place session hplace hs
    rcases hrun : eval part place session with ⟨error | outcome, s₁⟩ <;>
      rw [hrun] at hinside heq
    · rw [run_call_error hrun, run_call_error heq]
      exact ⟨(hinside.attempted hpart hpos).aborted, rfl⟩
    · -- the outcome spans what it should, so the two scripts go on alike
      rw [run_call_ok hrun, run_call_ok heq]
      obtain ⟨⟨answer, hy, hv⟩, hs⟩ := htruthful.of_ok hs hrun
      obtain ⟨hrest, heq⟩ := ih outcome (hy.spans hplace hv) (hnext outcome (hv ▸ hy.derives)) hs
      exact ⟨(hinside.attempted hpart hpos).followedBy hrest, heq⟩
  | @peek part place next next' _ ih =>
    obtain ⟨hpart, hnext⟩ := hobeys
    have hplace := (hpart.between hpos).2
    have hs : memoize = true → session.withoutFurthest.cache.Truthful grammar input := hs
    obtain ⟨hinside, heq⟩ := heval part place session.withoutFurthest hplace hs
    rcases hrun : eval part place session.withoutFurthest with ⟨error | outcome, s₁⟩ <;>
      rw [hrun] at hinside heq
    · rw [run_peek_error hrun, run_peek_error heq]
      exact ⟨(hinside.hidden hpart hpos).aborted, rfl⟩
    · rw [run_peek_ok hrun, run_peek_ok heq]
      obtain ⟨⟨answer, hy, hv⟩, hs⟩ := htruthful.of_ok hs hrun
      have hs : memoize = true →
          ({ s₁ with furthest? := session.furthest? } : Session).cache.Truthful grammar input := hs
      obtain ⟨hrest, heq⟩ := ih outcome.isSuccess (hnext outcome (hv ▸ hy.derives)) hs
      exact ⟨(hinside.hidden hpart hpos).followedBy hrest, heq⟩

namespace Context

section
variable {context : Context} {eval eval' : Evaluator}
  (htruthful : eval.IsTruthful context.grammar context.input context.options.memoize)
  (heval : eval.StaysInside eval' context.grammar context.input context.options.memoize)
  {pos : Nat} (hpos : pos ≤ context.input.length) {session : Session}
  (hs : context.options.memoize = true →
    session.cache.Truthful context.grammar context.input)
include htruthful heval hpos hs

theorem enterRule_inside {name : String} {rule : Rule}
    (hr : context.grammar.rule? name = some rule) :
    Inside context.grammar context.input (.ruleRef name) pos session
        (context.enterRule eval name rule.body pos session) ∧
      context.enterRule eval' name rule.body pos session =
        context.enterRule eval name rule.body pos session := by
  have hs : context.options.memoize = true →
      (session.report (.ruleEntered name pos)).withoutFurthest.cache.Truthful context.grammar
        context.input := hs
  have halike : (Script.ofBody name rule.body pos).Alike context.input.length _ := .refl _ _
  obtain ⟨hinside, heq⟩ :=
    halike.run_eq htruthful heval hpos (Script.obeys_body hr hpos) hs
  rcases hrun : (Script.ofBody name rule.body pos).run eval
    (session.report (.ruleEntered name pos)).withoutFurthest with ⟨error | outcome, inner⟩ <;>
    rw [hrun] at hinside heq
  · rw [enterRule_error hrun, enterRule_error heq]
    obtain ⟨hexhausted, hnoted⟩ := hinside.mergedInto
    exact ⟨⟨hexhausted, hnoted⟩, rfl⟩
  · rw [enterRule_ok hrun, enterRule_ok heq]
    obtain ⟨-, hnoted⟩ := hinside.mergedInto
    refine ⟨⟨nofun, ?_⟩, rfl⟩
    split <;> exact hnoted

theorem matchRule_inside (name : String) :
    Inside context.grammar context.input (.ruleRef name) pos session
        (context.matchRule eval name pos session) ∧
      context.matchRule eval' name pos session = context.matchRule eval name pos session := by
  cases hr : context.grammar.rule? name with
  | none =>
    rw [matchRule_undefined hr, matchRule_undefined hr]
    exact ⟨.silent nofun rfl, rfl⟩
  | some rule =>
    by_cases hm : context.options.memoize = true
    · cases hc : session.cache.get? name pos with
      | none =>
        rw [matchRule_miss hr hm hc, matchRule_miss hr hm hc]
        have hs : context.options.memoize = true →
            session.missed.cache.Truthful context.grammar context.input := hs
        obtain ⟨⟨hexhausted, hnoted⟩, heq⟩ := enterRule_inside htruthful heval hpos hs hr
        exact ⟨⟨hexhausted, hnoted⟩, heq⟩
      | some entry =>
        -- the entry keeps what the failures raised by the rule come to
        rw [matchRule_hit hr hm hc, matchRule_hit hr hm hc]
        obtain ⟨answer, hy, hk⟩ := hs hm name pos entry hc
        refine ⟨⟨nofun, answer.raised, ?_, fun failure hf => ?_⟩, rfl⟩
        · rw [← hk.furthest]
          rfl
        · exact (hy.mem_raised_iff hpos failure).1 hf
    · rw [matchRule_unmemoized hr (Bool.eq_false_iff.2 hm),
        matchRule_unmemoized hr (Bool.eq_false_iff.2 hm)]
      exact enterRule_inside htruthful heval hpos hs hr

end

/-- **Every evaluation stays inside the input**, and so it never sets a position back. -/
theorem evaluate_staysInside (context : Context) (depth : Nat) :
    (context.evaluate depth).StaysInside (context.evaluateUnclamped depth) context.grammar
      context.input context.options.memoize := by
  induction depth with
  | zero =>
    intro expr pos session hpos _
    refine ⟨⟨?_, [], (Failure.mergeOption_none_right _).symm, nofun⟩, rfl⟩
    rintro _ _ ⟨⟩
    exact ⟨Nat.le_refl _, hpos⟩
  | succ depth ih =>
    intro expr pos session hpos hs
    have htruthful := context.evaluate_truthful depth
    rcases expr.ruleRef_or_not with ⟨name, rfl⟩ | he
    · exact matchRule_inside htruthful ih hpos hs name
    · have hstep : context.evaluateUnclamped (depth + 1) expr pos session =
          (Script.ofExprUnclamped context.input expr pos).run
            (context.evaluateUnclamped depth) session := by
        cases expr <;> first | rfl | exact absurd rfl (he _)
      rw [hstep, evaluate, step_eq_run context _ he]
      exact (Script.Alike.script context.input expr pos).run_eq htruthful ih hpos
        (Script.obeys_expr he hpos) hs

end Context

/-! ## Matches -/

/-- A result of a match from `pos` in an input of `bound` atoms that is an outcome or ran out of
depth, all between the position and the end of the input. A node spans what has been matched, and
there is one unless that is empty. -/
inductive Lies (bound pos : Nat) : Except ParseError Outcome → Prop
  | success {stop : Nat} {node? : Option Node} (hle : pos ≤ stop) (hstop : stop ≤ bound)
      (hnode : ∀ node, node? = some node → node.start = pos ∧ node.stop = stop)
      (hnone : node? = none → stop = pos) : Lies bound pos (.ok (.success stop node?))
  | failure {failure : Failure} (hle : pos ≤ failure.position) (hbound : failure.position ≤ bound) :
      Lies bound pos (.ok (.failure failure))
  | exhausted {limit place : Nat} (hle : pos ≤ place) (hbound : place ≤ bound) :
      Lies bound pos (.error (.recursionLimit limit place))

theorem Outcome.Spans.lies {bound pos : Nat} {outcome : Outcome} (h : outcome.Spans bound pos) :
    Lies bound pos (.ok outcome) := by
  cases outcome with
  | failure failure => exact .failure h.1 h.2
  | success stop node? =>
    obtain ⟨hle, hstop⟩ := h.le
    cases node? with
    | none => exact .success hle hstop nofun fun _ => h.1
    | some node =>
      refine .success hle hstop ?_ nofun
      rintro _ ⟨⟩
      exact ⟨h.1, h.2.1⟩

namespace Context

/-- **Positions stay in bounds.** Over a cache whose entries keep answers, a match gives an outcome
between its position and the end of the input, or it runs out of depth there, or it comes to a rule
that is not defined. What it adds to the furthest failure are failures that its expression raises,
and these lie there too. No position is ever set back to the end of the input. -/
theorem matchExpr_within (grammar : Grammar) (input : Input) (options : Options) (expr : Expr)
    (cursor : Cursor input) (session : Session)
    (hs : options.memoize = true → session.cache.Truthful grammar input) :
    let context : Context := ⟨grammar, input, options⟩
    let run := context.matchExpr expr cursor session
    (Lies input.length cursor.position run.1 ∨
      ∃ name, run.1 = .error (.undefinedRule name) ∧ grammar.rule? name = none) ∧
    (∃ noted, run.2.furthest? = Failure.mergeOption session.furthest? (Failure.join noted) ∧
      ∀ failure ∈ noted, grammar.Raises input expr cursor.position failure) ∧
    (∀ failure, grammar.Raises input expr cursor.position failure →
      cursor.position ≤ failure.position ∧ failure.position ≤ input.length) ∧
    context.evaluateUnclamped options.maxDepth expr cursor.position session = run := by
  intro context run
  obtain ⟨hinside, heq⟩ :=
    context.evaluate_staysInside options.maxDepth expr cursor.position session cursor.le_length hs
  refine ⟨?_, hinside.noted, fun failure h => h.between cursor.le_length, heq⟩
  have hanswered := (context.evaluate_truthful options.maxDepth expr cursor.position session
    hs).answered
  obtain ⟨limit, place, he⟩ | ⟨answer, hy, hr, -⟩ := hanswered
  · obtain ⟨hle, hbound⟩ := hinside.exhausted limit place he
    exact .inl (he ▸ .exhausted hle hbound)
  · have hr : run.1 = answer.result := hr
    rw [hr]
    rcases hv : answer.value with name | outcome
    · have hderives := hy.derives cursor.le_length
      rw [hv] at hderives
      exact .inr ⟨name, Answer.result_error hv, (hderives.misses rfl).1⟩
    · rw [Answer.result_ok hv]
      exact .inl (hy.spans cursor.le_length hv).lies

/-- An identifier that begins like a keyword, up to the end of the input. -/
theorem matchExpr_within_identifier :
    let context : Context := ⟨Sample.identifiers, .ofString "if1", {}⟩
    let run := context.matchExpr (.ruleRef "statement") .start {}
    (∃ node, run.1 = .ok (.success 3 (some node)) ∧ node.start = 0 ∧ node.stop = 3) ∧
    (∀ failure, Sample.identifiers.Raises (.ofString "if1") (.ruleRef "statement") 0 failure →
      failure.position ≤ 3) ∧
    context.evaluateUnclamped context.options.maxDepth (.ruleRef "statement") 0 {} = run := by
  intro context run
  have hlength : (Input.ofString "if1").length = 3 := rfl
  obtain ⟨hlies, -, hbetween, heq⟩ :=
    matchExpr_within Sample.identifiers (.ofString "if1") {} (.ruleRef "statement") .start {}
      fun _ => Cache.sound_empty.truthful
  rw [hlength] at hlies hbetween
  have hmatched : ∃ node,
      (Context.matchExpr ⟨Sample.identifiers, .ofString "if1", {}⟩ (.ruleRef "statement") .start
        {}).1 = .ok (.success 3 (some node)) := ⟨_, rfl⟩
  obtain ⟨node, hrun⟩ := hmatched
  refine ⟨⟨node, hrun, ?_⟩, fun failure hraises => (hbetween failure hraises).2, heq⟩
  rw [hrun] at hlies
  obtain ⟨_, _, hnode, -⟩ | ⟨name, he, -⟩ := hlies
  · exact hnode node rfl
  · cases he

/-- A reference to a rule that is not defined is neither matched nor out of depth. -/
theorem matchExpr_missing_not_lies :
    let missing := Sample.singleRule "Start" (.choice [.literal "a", .ruleRef "Missing"])
    let run := Context.matchExpr ⟨missing, .ofString "b", {}⟩ (.ruleRef "Start") .start {}
    ({} : Cache).Sound missing (.ofString "b") ∧
      run.1 = .error (.undefinedRule "Missing") ∧ ¬ Lies (Input.ofString "b").length 0 run.1 := by
  intro missing run
  have hrun : run.1 = .error (.undefinedRule "Missing") := rfl
  refine ⟨Cache.sound_empty, hrun, fun hlies => ?_⟩
  rw [hrun] at hlies
  cases hlies

end Context

end Packrat
