import Packrat.Proofs.Script

/-!
# Runs in lockstep

Two evaluators may agree except where the first ends with an error that is excused: it is exhausted
where the other has depth left, or it misses a rule that the other has. Scripts keep such an
agreement, whatever the session holds (`Script.run_eq_of_agreesUnless`), and so do steps of two
contexts whose grammars have the same rules, but for rules that the first may excusably miss
(`Context.step_agreesUnless`): the two runs go through the same sessions until the first one stops.
-/

set_option autoImplicit false

namespace Packrat

/-- The evaluation was stopped by an error that is excused. -/
def Excused {α : Type} (excuse : ParseError → Prop) (result : Except ParseError α) : Prop :=
  ∃ error, result = .error error ∧ excuse error

theorem excused_error_iff {α : Type} {excuse : ParseError → Prop} {error : ParseError} :
    Excused excuse (.error error : Except ParseError α) ↔ excuse error := by
  simp [Excused]

theorem not_excused_ok {α : Type} {excuse : ParseError → Prop} {value : α} :
    ¬ Excused excuse (.ok value) := by
  simp [Excused]

/-- Unless the first evaluator is stopped by an excused error, the second returns the same and
leaves the same session. -/
def Evaluator.AgreesUnless (excuse : ParseError → Prop) (eval₁ eval₂ : Evaluator) : Prop :=
  ∀ expr pos session, ¬ Excused excuse (eval₁ expr pos session).1 →
    eval₂ expr pos session = eval₁ expr pos session

variable {excuse : ParseError → Prop} {eval₁ eval₂ : Evaluator}

/-- **Scripts run in lockstep** with two such evaluators. -/
theorem Script.run_eq_of_agreesUnless {α : Type} (h : eval₁.AgreesUnless excuse eval₂)
    (script : Script α) {session : Session}
    (hx : ¬ Excused excuse (script.run eval₁ session).1) :
    script.run eval₂ session = script.run eval₁ session := by
  induction script generalizing session with
  | done value => rfl
  | note failure next ih => exact ih hx
  | call expr pos next ih =>
    have heq := h expr pos session
    rcases hrun : eval₁ expr pos session with ⟨error | outcome, after⟩ <;> rw [hrun] at heq
    · rw [run_call_error hrun] at hx ⊢
      rw [run_call_error (heq fun he => hx (excused_error_iff.2 (excused_error_iff.1 he)))]
    · rw [run_call_ok hrun] at hx ⊢
      rw [run_call_ok (heq not_excused_ok)]
      exact ih outcome hx
  | peek expr pos next ih =>
    have heq := h expr pos session.withoutFurthest
    rcases hrun : eval₁ expr pos session.withoutFurthest with ⟨error | outcome, after⟩ <;>
      rw [hrun] at heq
    · rw [run_peek_error hrun] at hx ⊢
      rw [run_peek_error (heq fun he => hx (excused_error_iff.2 (excused_error_iff.1 he)))]
    · rw [run_peek_ok hrun] at hx ⊢
      rw [run_peek_ok (heq not_excused_ok)]
      exact ih outcome.isSuccess hx

namespace Context

variable {g₁ g₂ : Grammar} {input : Input} {o₁ o₂ : Options}
  (h : eval₁.AgreesUnless excuse eval₂) (hm : o₁.memoize = o₂.memoize)
include h hm

theorem enterRule_eq_of_agreesUnless {name : String} {body : Expr} {pos : Nat} {session : Session}
    (hx : ¬ Excused excuse (enterRule ⟨g₁, input, o₁⟩ eval₁ name body pos session).1) :
    enterRule ⟨g₂, input, o₂⟩ eval₂ name body pos session =
      enterRule ⟨g₁, input, o₁⟩ eval₁ name body pos session := by
  have heq := @Script.run_eq_of_agreesUnless _ _ _ _ h (Script.ofBody name body pos)
    (session.report (.ruleEntered name pos)).withoutFurthest
  rcases hrun : (Script.ofBody name body pos).run eval₁
    (session.report (.ruleEntered name pos)).withoutFurthest with ⟨error | outcome, inner⟩ <;>
    rw [hrun] at heq
  · rw [enterRule_error hrun] at hx ⊢
    rw [enterRule_error (heq hx)]
  · rw [enterRule_ok hrun, enterRule_ok (heq not_excused_ok)]
    simp only [hm]

variable (hrules : ∀ name, g₂.rule? name = g₁.rule? name ∨
  g₁.rule? name = none ∧ excuse (.undefinedRule name))
include hrules

theorem matchRule_eq_of_agreesUnless {name : String} {pos : Nat} {session : Session}
    (hx : ¬ Excused excuse (matchRule ⟨g₁, input, o₁⟩ eval₁ name pos session).1) :
    matchRule ⟨g₂, input, o₂⟩ eval₂ name pos session =
      matchRule ⟨g₁, input, o₁⟩ eval₁ name pos session := by
  let c₁ : Context := ⟨g₁, input, o₁⟩
  let c₂ : Context := ⟨g₂, input, o₂⟩
  cases hr : g₁.rule? name with
  | none =>
    have hr₁ : c₁.grammar.rule? name = none := hr
    rw [matchRule_undefined hr₁] at hx ⊢
    rcases hrules name with hsame | ⟨-, hexcuse⟩
    · exact matchRule_undefined (show c₂.grammar.rule? name = none from hsame.trans hr)
    · exact absurd ⟨_, rfl, hexcuse⟩ hx
  | some rule =>
    have hr₁ : c₁.grammar.rule? name = some rule := hr
    have hr₂ : c₂.grammar.rule? name = some rule := by
      rcases hrules name with hsame | ⟨hnone, -⟩
      · exact hsame.trans hr
      · cases hr.symm.trans hnone
    cases hm₁ : o₁.memoize with
    | false =>
      rw [matchRule_unmemoized hr₁ hm₁] at hx ⊢
      rw [matchRule_unmemoized hr₂ (hm ▸ hm₁)]
      exact enterRule_eq_of_agreesUnless h hm hx
    | true =>
      have hm₂ : c₂.options.memoize = true := hm ▸ hm₁
      cases hc : session.cache.get? name pos with
      | none =>
        rw [matchRule_miss hr₁ hm₁ hc] at hx ⊢
        rw [matchRule_miss hr₂ hm₂ hc]
        exact enterRule_eq_of_agreesUnless h hm hx
      | some entry => rw [matchRule_hit hr₁ hm₁ hc, matchRule_hit hr₂ hm₂ hc]

theorem step_agreesUnless :
    Evaluator.AgreesUnless excuse (step ⟨g₁, input, o₁⟩ eval₁) (step ⟨g₂, input, o₂⟩ eval₂) := by
  intro expr pos session hx
  rcases expr.ruleRef_or_not with ⟨name, rfl⟩ | he
  · exact matchRule_eq_of_agreesUnless h hm hrules hx
  · rw [step_eq_run _ _ he] at hx ⊢
    rw [step_eq_run _ _ he]
    exact Script.run_eq_of_agreesUnless h _ hx

end Context

end Packrat
