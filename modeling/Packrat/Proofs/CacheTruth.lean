import Packrat.Proofs.CacheSound

/-!
# Truthful caches

A cache is truthful if each of its entries keeps the answer of plain evaluation
(`Cache.Truthful`). It need not be sound: of the rules that were entered for an entry it may have
none. That much is enough for what an evaluation returns and for the failures that it meets
(`Context.evaluate_truthful`); what it is not enough for is to compare the depth that two
evaluations need. Without memoization the cache may hold anything.
-/

set_option autoImplicit false

namespace Packrat

variable {grammar : Grammar} {input : Input}

/-- Every entry keeps the answer of its rule. -/
def Cache.Truthful (grammar : Grammar) (input : Input) (cache : Cache) : Prop :=
  ∀ rule pos entry, cache.get? rule pos = some entry →
    ∃ answer, grammar.Yields input (.ruleRef rule) pos answer ∧ entry.Keeps answer

namespace Cache

variable {cache : Cache}

theorem Sound.truthful (h : cache.Sound grammar input) : cache.Truthful grammar input := by
  intro rule pos entry hentry
  obtain ⟨answer, hy, hk, -⟩ := h rule pos entry hentry
  exact ⟨answer, hy, hk⟩

theorem Truthful.insert (h : cache.Truthful grammar input) {rule : String} {pos : Nat}
    {entry : CacheEntry} {answer : Answer Outcome}
    (hy : grammar.Yields input (.ruleRef rule) pos answer) (hk : entry.Keeps answer) :
    (cache.insert rule pos entry).Truthful grammar input := by
  intro rule' pos' entry' hentry
  rw [get?_insert] at hentry
  split at hentry
  · next hsame =>
    obtain ⟨rfl, rfl⟩ := hsame
    cases hentry
    exact ⟨answer, hy, hk⟩
  · exact h rule' pos' entry' hentry

end Cache

/-- The run of something with the answers `yields`: it keeps the cache truthful, and unless it is
exhausted it returns an answer and merges the failures of that into the furthest. -/
structure Truthful {α : Type} (grammar : Grammar) (input : Input) (memoize : Bool)
    (yields : Answer α → Prop) (before : Session) (run : Result α) : Prop where
  cache : memoize = true → run.2.cache.Truthful grammar input
  answered : Exhausted run.1 ∨ ∃ answer, yields answer ∧ run.1 = answer.result ∧
    run.2.furthest? = Failure.mergeOption before.furthest? (Failure.join answer.raised)

/-- An evaluator runs truthfully from every session with a truthful cache, and from every session
at all if it uses no cache. -/
def Evaluator.IsTruthful (eval : Evaluator) (grammar : Grammar) (input : Input) (memoize : Bool) :
    Prop :=
  ∀ expr pos session, (memoize = true → session.cache.Truthful grammar input) →
    Truthful grammar input memoize (grammar.Yields input expr pos) session (eval expr pos session)

namespace Truthful

variable {α β : Type} {memoize : Bool} {yields : Answer α → Prop} {yields' : Answer β → Prop}
  {s s₁ : Session}

theorem aborted {error : ParseError}
    (h : Truthful grammar input memoize yields s (.error error, s₁))
    (hy : ∀ first name, yields first → first.value = .error name →
      yields' ⟨.error name, first.raised, first.entered⟩) :
    Truthful grammar input memoize yields' s (.error error, s₁) := by
  refine ⟨h.cache, ?_⟩
  rcases h.answered with ⟨limit, place, he⟩ | ⟨first, hfirst, hr, hf⟩
  · cases he
    exact .inl ⟨limit, place, rfl⟩
  · obtain ⟨name, hv, rfl⟩ := Answer.value_of_result_error hr.symm
    exact .inr ⟨_, hy first name hfirst hv, rfl, hf⟩

theorem followedBy {value : α} {run : Result β}
    (h₁ : Truthful grammar input memoize yields s (.ok value, s₁))
    {rests : Answer β → Prop} (h₂ : Truthful grammar input memoize rests s₁ run)
    (hy : ∀ first rest, yields first → first.value = .ok value → rests rest →
      yields' (first.followedBy rest)) :
    Truthful grammar input memoize yields' s run := by
  refine ⟨h₂.cache, ?_⟩
  rcases h₁.answered with ⟨limit, place, he⟩ | ⟨first, hfirst, hr, hf⟩
  · cases he
  have hv := Answer.value_of_result_ok hr.symm
  refine h₂.answered.imp_right ?_
  rintro ⟨rest, hrest, hr', hf'⟩
  refine ⟨_, hy first rest hfirst hv hrest, hr', ?_⟩
  rw [hf', hf, Answer.followedBy, Failure.join_append, Failure.mergeOption_assoc]

theorem hidden {result : Except ParseError α}
    (h : Truthful grammar input memoize yields s.withoutFurthest (result, s₁)) :
    Truthful grammar input memoize (fun answer => ∃ first, yields first ∧ answer = first.hidden) s
      (result, { s₁ with furthest? := s.furthest? }) := by
  refine ⟨h.cache, h.answered.imp_right ?_⟩
  rintro ⟨first, hfirst, hr, -⟩
  exact ⟨first.hidden, ⟨first, hfirst, rfl⟩, hr, (Failure.mergeOption_none_right _).symm⟩

end Truthful

theorem Script.run_truthful {α : Type} {eval : Evaluator} {memoize : Bool}
    (heval : eval.IsTruthful grammar input memoize) (script : Script α) {session : Session}
    (hs : memoize = true → session.cache.Truthful grammar input) :
    Truthful grammar input memoize (script.Yields grammar input) session
      (script.run eval session) := by
  induction script generalizing session with
  | done value =>
    exact ⟨hs, .inr ⟨_, .done value, rfl, (Failure.mergeOption_none_right _).symm⟩⟩
  | note failure next ih =>
    have hs : memoize = true → (session.note (some failure)).cache.Truthful grammar input := hs
    obtain ⟨hcache, hanswered⟩ := ih hs
    refine ⟨hcache, hanswered.imp_right ?_⟩
    rintro ⟨answer, hy, hr, hf⟩
    refine ⟨_, hy.note, hr, ?_⟩
    rw [run, hf]
    simp only [Session.note, Failure.join, Failure.mergeOption_assoc]
  | call expr pos next ih =>
    have h := heval expr pos session hs
    rcases hrun : eval expr pos session with ⟨error | outcome, s₁⟩ <;> rw [hrun] at h
    · rw [run_call_error hrun]
      exact h.aborted fun first name hy hv => Yields.call_error hy hv
    · rw [run_call_ok hrun]
      exact h.followedBy (ih outcome h.cache) fun first rest hy hv hrest => Yields.call hy hv hrest
  | peek expr pos next ih =>
    have h := heval expr pos session.withoutFurthest hs
    rcases hrun : eval expr pos session.withoutFurthest with ⟨error | outcome, s₁⟩ <;>
      rw [hrun] at h
    · rw [run_peek_error hrun]
      refine h.hidden.aborted ?_
      rintro _ name ⟨first, hy, rfl⟩ hv
      exact Yields.peek_error hy hv
    · rw [run_peek_ok hrun]
      refine h.hidden.followedBy (ih outcome.isSuccess h.cache) ?_
      rintro _ rest ⟨first, hy, rfl⟩ hv hrest
      exact Yields.peek hy hv hrest

/-! ## Calls of rules -/

namespace Context

section
variable {context : Context} {eval : Evaluator}
  (heval : eval.IsTruthful context.grammar context.input context.options.memoize)
  {session : Session}
  (hs : context.options.memoize = true →
    session.cache.Truthful context.grammar context.input)
include heval hs

theorem enterRule_truthful {name : String} {rule : Rule}
    (hr : context.grammar.rule? name = some rule) (pos : Nat) :
    Truthful context.grammar context.input context.options.memoize
      (context.grammar.Yields context.input (.ruleRef name) pos) session
      (context.enterRule eval name rule.body pos session) := by
  have hs : context.options.memoize = true →
      (session.report (.ruleEntered name pos)).withoutFurthest.cache.Truthful context.grammar
        context.input := hs
  obtain ⟨hcache, hanswered⟩ := Script.run_truthful heval (Script.ofBody name rule.body pos) hs
  -- the share of the rule is all that the body met, and is merged into what came before
  have merged {inner : Session} {answer : Answer Outcome}
      (hf : inner.furthest? = Failure.mergeOption none (Failure.join answer.raised)) :
      inner.furthest? = Failure.join answer.raised ∧
        (inner.mergedInto session.furthest?).furthest? =
          Failure.mergeOption session.furthest? (Failure.join answer.raised) := by
    rw [Failure.mergeOption_none_left] at hf
    exact ⟨hf, by rw [Session.mergedInto, hf]⟩
  rcases hrun : (Script.ofBody name rule.body pos).run eval
    (session.report (.ruleEntered name pos)).withoutFurthest with ⟨error | outcome, inner⟩ <;>
    rw [hrun] at hcache hanswered
  · rw [enterRule_error hrun]
    refine ⟨hcache, hanswered.imp_right ?_⟩
    rintro ⟨answer, hy, hres, hf⟩
    exact ⟨_, .of_body hr hy, hres, (merged hf).2⟩
  · rw [enterRule_ok hrun]
    obtain ⟨_, _, he⟩ | ⟨answer, hy, hres, hf⟩ := hanswered
    · cases he
    obtain ⟨hown, hmerged⟩ := merged hf
    have hy := Grammar.Yields.of_body hr hy
    by_cases hm : context.options.memoize = true
    · rw [if_pos hm]
      have hk : CacheEntry.Keeps ⟨outcome, inner.furthest?⟩ (answer.entering name pos) :=
        ⟨Answer.value_of_result_ok hres.symm, hown⟩
      exact ⟨fun _ => (hcache hm).insert hy hk, .inr ⟨_, hy, hres, hmerged⟩⟩
    · rw [if_neg hm]
      exact ⟨fun hm' => absurd hm' hm, .inr ⟨_, hy, hres, hmerged⟩⟩

theorem matchRule_truthful (name : String) (pos : Nat) :
    Truthful context.grammar context.input context.options.memoize
      (context.grammar.Yields context.input (.ruleRef name) pos) session
      (context.matchRule eval name pos session) := by
  cases hr : context.grammar.rule? name with
  | none =>
    rw [matchRule_undefined hr]
    exact ⟨hs, .inr ⟨_, .of_undefined hr, rfl, (Failure.mergeOption_none_right _).symm⟩⟩
  | some rule =>
    by_cases hm : context.options.memoize = true
    · cases hc : session.cache.get? name pos with
      | none =>
        rw [matchRule_miss hr hm hc]
        have hs : context.options.memoize = true →
            session.missed.cache.Truthful context.grammar context.input := hs
        obtain ⟨hcache, hanswered⟩ := enterRule_truthful heval hs hr pos
        exact ⟨hcache, hanswered⟩
      | some entry =>
        rw [matchRule_hit hr hm hc]
        obtain ⟨answer, hy, hk⟩ := hs hm name pos entry hc
        refine ⟨hs, .inr ⟨answer, hy, (Answer.result_ok hk.outcome).symm, ?_⟩⟩
        rw [← hk.furthest]
        rfl
    · rw [matchRule_unmemoized hr (Bool.eq_false_iff.2 hm)]
      exact enterRule_truthful heval hs hr pos

end

/-- **Every evaluation from a truthful cache is truthful**, and without memoization every one. -/
theorem evaluate_truthful (context : Context) (depth : Nat) :
    (context.evaluate depth).IsTruthful context.grammar context.input context.options.memoize := by
  induction depth with
  | zero =>
    intro expr pos session hs
    exact ⟨hs, .inl ⟨_, _, rfl⟩⟩
  | succ depth ih =>
    intro expr pos session hs
    rcases expr.ruleRef_or_not with ⟨name, rfl⟩ | he
    · exact matchRule_truthful ih hs name pos
    · rw [evaluate, step_eq_run context _ he]
      obtain ⟨hcache, hanswered⟩ :=
        Script.run_truthful ih (Script.ofExpr context.input expr pos) hs
      refine ⟨hcache, hanswered.imp_right ?_⟩
      rintro ⟨answer, hy, hrest⟩
      exact ⟨answer, .of_script he hy, hrest⟩

end Context

end Packrat
