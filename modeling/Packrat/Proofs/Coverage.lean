import Packrat.Proofs.CacheSound

/-!
# Two runs of one evaluation

Of two runs of one expression, the second with a cache that has all entries of the first one's and
with at least its depth, the second is not exhausted unless the first is
(`Context.evaluate_not_exhausted`). Entries that the first run lacks never hurt the second: a
look-up they answer takes the place of an evaluation, and since a sound cache is closed under the
rules entered for its entries, whatever that evaluation would have added is there already
(`Faithful.covers`). Plain evaluation is the case of a first run that uses no cache at all.

`Context.evaluate_eq_of_not_exhausted` puts this together with faithfulness: such runs return the
same and have met the same failures. `evaluate_of_yields` and `evaluate_yields` say what this means
for the answers of plain evaluation.
-/

set_option autoImplicit false

namespace Packrat

/-- Whatever a run from `s₁` may find in its cache, a run from `s₂` finds too. -/
def Covers (memoize₁ memoize₂ : Bool) (s₁ s₂ : Session) : Prop :=
  memoize₁ = true → memoize₂ = true ∧ ∀ key, s₁.cache.Has key → s₂.cache.Has key

theorem covers_of_empty (memoize : Bool) (session : Session) : Covers memoize memoize {} session :=
  fun hm => ⟨hm, fun key hkey => absurd hkey (Cache.not_has_empty key)⟩

section
variable {grammar : Grammar} {input : Input} {m₁ m₂ : Bool}

/-! ## Faithful runs -/

section
variable {expr : Expr} {pos : Nat} {s₁ s₂ : Session} {run₁ run₂ : Result Outcome}
  (h₁ : Faithful grammar input m₁ (grammar.Yields input expr pos) s₁ run₁)
  (h₂ : Faithful grammar input m₂ (grammar.Yields input expr pos) s₂ run₂)
  (hx₁ : ¬ Exhausted run₁.1) (hx₂ : ¬ Exhausted run₂.1)
include h₁ h₂ hx₁ hx₂

theorem Faithful.common : ∃ answer, run₁.1 = answer.result ∧ run₂.1 = answer.result ∧
    s₁.Reflects m₁ answer run₁.2 ∧ s₂.Reflects m₂ answer run₂.2 := by
  obtain ⟨a, ha, hr₁, hrefl₁⟩ := h₁.answered.resolve_left hx₁
  obtain ⟨b, hb, hr₂, hrefl₂⟩ := h₂.answered.resolve_left hx₂
  cases ha.unique hb
  exact ⟨a, hr₁, hr₂, hrefl₁, hrefl₂⟩

theorem Faithful.result_eq : run₂.1 = run₁.1 := by
  obtain ⟨answer, hr₁, hr₂, -, -⟩ := h₁.common h₂ hx₁ hx₂
  rw [hr₁, hr₂]

/-- **Coverage is kept** by two runs of one expression that end with a value: the first adds just
the rules entered for its answer, and the second has those. -/
theorem Faithful.covers {outcome : Outcome} (ho : run₁.1 = .ok outcome)
    (hc : Covers m₁ m₂ s₁ s₂) : Covers m₁ m₂ run₁.2 run₂.2 := by
  obtain ⟨answer, hr₁, hr₂, hrefl₁, hrefl₂⟩ := h₁.common h₂ hx₁ hx₂
  have hv := Answer.value_of_result_ok (hr₁.symm.trans ho)
  intro hm
  obtain ⟨hm₂, hkeys⟩ := hc hm
  refine ⟨hm₂, fun key hkey => ?_⟩
  rcases hrefl₁.only outcome hv key hkey with hkey | ⟨-, hkey⟩
  · exact h₂.grows key (hkeys key hkey)
  · exact hrefl₂.kept hm₂ outcome hv key hkey

end

/-! ## Scripts -/

/-- Where the second evaluator's cache covers the first's, it is exhausted only if the first is. -/
def Evaluator.OutlastedBy (eval₁ eval₂ : Evaluator) (grammar : Grammar) (input : Input)
    (m₁ m₂ : Bool) : Prop :=
  ∀ expr pos s₁ s₂, s₁.cache.Sound grammar input → s₂.cache.Sound grammar input →
    Covers m₁ m₂ s₁ s₂ → ¬ Exhausted (eval₁ expr pos s₁).1 → ¬ Exhausted (eval₂ expr pos s₂).1

theorem Script.run_outlasted {α : Type} {eval₁ eval₂ : Evaluator}
    (hf₁ : eval₁.IsFaithful grammar input m₁) (hf₂ : eval₂.IsFaithful grammar input m₂)
    (ho : eval₁.OutlastedBy eval₂ grammar input m₁ m₂) (script : Script α) {s₁ s₂ : Session}
    (hs₁ : s₁.cache.Sound grammar input) (hs₂ : s₂.cache.Sound grammar input)
    (hc : Covers m₁ m₂ s₁ s₂) (hx : ¬ Exhausted (script.run eval₁ s₁).1) :
    ¬ Exhausted (script.run eval₂ s₂).1 := by
  induction script generalizing s₁ s₂ with
  | done value => exact not_exhausted_ok
  | note failure next ih =>
    have hs₁ : (s₁.note (some failure)).cache.Sound grammar input := hs₁
    have hs₂ : (s₂.note (some failure)).cache.Sound grammar input := hs₂
    exact ih hs₁ hs₂ hc hx
  | call expr pos next ih =>
    have h₁ := hf₁ expr pos s₁ hs₁
    have h₂ := hf₂ expr pos s₂ hs₂
    have hx₁ : ¬ Exhausted (eval₁ expr pos s₁).1 := fun h => hx (exhausted_call h)
    have hx₂ := ho expr pos s₁ s₂ hs₁ hs₂ hc hx₁
    have heq := h₁.result_eq h₂ hx₁ hx₂
    rcases hr : (eval₁ expr pos s₁).1 with error | outcome
    · -- an error that the first run passes on is not the limit, and the second has the same
      rw [hr] at heq
      rw [run_call_error (Prod.ext heq rfl)]
      rw [hr] at hx₁
      exact fun h => hx₁ (exhausted_error_iff.1 h)
    · rw [hr] at heq
      rw [run_call_ok (Prod.ext hr rfl)] at hx
      rw [run_call_ok (Prod.ext heq rfl)]
      exact ih outcome h₁.sound h₂.sound (h₁.covers h₂ hx₁ hx₂ hr hc) hx
  | peek expr pos next ih =>
    have h₁ := hf₁ expr pos s₁.withoutFurthest hs₁
    have h₂ := hf₂ expr pos s₂.withoutFurthest hs₂
    have hx₁ : ¬ Exhausted (eval₁ expr pos s₁.withoutFurthest).1 := fun h => hx (exhausted_peek h)
    have hx₂ := ho expr pos s₁.withoutFurthest s₂.withoutFurthest hs₁ hs₂ hc hx₁
    have heq := h₁.result_eq h₂ hx₁ hx₂
    rcases hr : (eval₁ expr pos s₁.withoutFurthest).1 with error | outcome
    · rw [hr] at heq
      rw [run_peek_error (Prod.ext heq rfl)]
      rw [hr] at hx₁
      exact fun h => hx₁ (exhausted_error_iff.1 h)
    · rw [hr] at heq
      rw [run_peek_ok (Prod.ext hr rfl)] at hx
      rw [run_peek_ok (Prod.ext heq rfl)]
      exact @ih outcome.isSuccess { (eval₁ expr pos _).2 with furthest? := s₁.furthest? }
        { (eval₂ expr pos _).2 with furthest? := s₂.furthest? } h₁.sound h₂.sound
        (h₁.covers h₂ hx₁ hx₂ hr hc) hx

end

/-! ## Evaluations -/

namespace Context

theorem exhausted_enterRule {context : Context} {eval : Evaluator} {name : String} {body : Expr}
    {pos : Nat} {session : Session} :
    Exhausted (context.enterRule eval name body pos session).1 ↔
      Exhausted ((Script.ofBody name body pos).run eval
        (session.report (.ruleEntered name pos)).withoutFurthest).1 := by
  rcases hrun : (Script.ofBody name body pos).run eval
    (session.report (.ruleEntered name pos)).withoutFurthest with ⟨error | outcome, inner⟩
  · rw [enterRule_error hrun]
  · rw [enterRule_ok hrun]

theorem matchRule_enters {context : Context} {eval : Evaluator} {name : String} {rule : Rule}
    {pos : Nat} {session : Session} (hr : context.grammar.rule? name = some rule)
    (h : context.options.memoize = true → session.cache.get? name pos = none) :
    ∃ looked : Session, looked.cache.entries = session.cache.entries ∧
      context.matchRule eval name pos session =
        context.enterRule eval name rule.body pos looked := by
  by_cases hm : context.options.memoize = true
  · exact ⟨session.missed, rfl, matchRule_miss hr hm (h hm)⟩
  · exact ⟨session, rfl, matchRule_unmemoized hr (Bool.eq_false_iff.2 hm)⟩

section
variable {grammar : Grammar} {input : Input} {o₁ o₂ : Options} {eval₁ eval₂ : Evaluator}
  (hf₁ : eval₁.IsFaithful grammar input o₁.memoize)
  (hf₂ : eval₂.IsFaithful grammar input o₂.memoize)
  (ho : eval₁.OutlastedBy eval₂ grammar input o₁.memoize o₂.memoize) {s₁ s₂ : Session}
  (hs₁ : s₁.cache.Sound grammar input) (hs₂ : s₂.cache.Sound grammar input)
  (hc : Covers o₁.memoize o₂.memoize s₁ s₂)
include hf₁ hf₂ ho hs₁ hs₂ hc

theorem enterRule_outlasted (name : String) (body : Expr) (pos : Nat)
    (hx : ¬ Exhausted (enterRule ⟨grammar, input, o₁⟩ eval₁ name body pos s₁).1) :
    ¬ Exhausted (enterRule ⟨grammar, input, o₂⟩ eval₂ name body pos s₂).1 := by
  rw [exhausted_enterRule] at hx ⊢
  have hs₁ : (s₁.report (.ruleEntered name pos)).withoutFurthest.cache.Sound grammar input := hs₁
  have hs₂ : (s₂.report (.ruleEntered name pos)).withoutFurthest.cache.Sound grammar input := hs₂
  exact Script.run_outlasted hf₁ hf₂ ho _ hs₁ hs₂ hc hx

theorem matchRule_outlasted (name : String) (pos : Nat)
    (hx : ¬ Exhausted (matchRule ⟨grammar, input, o₁⟩ eval₁ name pos s₁).1) :
    ¬ Exhausted (matchRule ⟨grammar, input, o₂⟩ eval₂ name pos s₂).1 := by
  let c₁ : Context := ⟨grammar, input, o₁⟩
  let c₂ : Context := ⟨grammar, input, o₂⟩
  cases hr : grammar.rule? name with
  | none =>
    rw [matchRule_undefined (show c₁.grammar.rule? name = none from hr)] at hx
    rwa [matchRule_undefined (show c₂.grammar.rule? name = none from hr)]
  | some rule =>
    have hr₁ : c₁.grammar.rule? name = some rule := hr
    have hr₂ : c₂.grammar.rule? name = some rule := hr
    by_cases hit : o₂.memoize = true ∧ s₂.cache.Has ⟨pos, name⟩
    · obtain ⟨hm, entry, hentry⟩ := hit
      rw [matchRule_hit hr₂ hm hentry]
      exact not_exhausted_ok
    · -- the second run does not find the rule, so neither does the first
      have hmiss₂ : o₂.memoize = true → s₂.cache.get? name pos = none := by
        intro hm
        cases hentry : s₂.cache.get? name pos with
        | none => rfl
        | some entry => exact absurd ⟨hm, entry, hentry⟩ hit
      have hmiss₁ : o₁.memoize = true → s₁.cache.get? name pos = none := by
        intro hm
        cases hentry : s₁.cache.get? name pos with
        | none => rfl
        | some entry =>
          obtain ⟨hm₂, hkeys⟩ := hc hm
          exact absurd ⟨hm₂, hkeys ⟨pos, name⟩ ⟨entry, hentry⟩⟩ hit
      obtain ⟨t₁, ht₁, he₁⟩ := @matchRule_enters c₁ eval₁ name rule pos s₁ hr₁ hmiss₁
      obtain ⟨t₂, ht₂, he₂⟩ := @matchRule_enters c₂ eval₂ name rule pos s₂ hr₂ hmiss₂
      rw [he₁] at hx
      rw [he₂]
      refine enterRule_outlasted hf₁ hf₂ ho (hs₁.congr ht₁) (hs₂.congr ht₂) ?_ name rule.body pos hx
      unfold Covers Cache.Has Cache.get? at hc ⊢
      rwa [ht₁, ht₂]

end

variable {grammar : Grammar} {input : Input} {o₁ o₂ : Options}

/-- **More depth and more entries exhaust nothing.** -/
theorem evaluate_not_exhausted {d₁ d₂ : Nat} (hd : d₁ ≤ d₂) :
    (evaluate ⟨grammar, input, o₁⟩ d₁).OutlastedBy (evaluate ⟨grammar, input, o₂⟩ d₂) grammar input
      o₁.memoize o₂.memoize := by
  induction d₁ generalizing d₂ with
  | zero =>
    intro expr pos s₁ s₂ _ _ _ hx
    exact absurd ⟨_, _, rfl⟩ hx
  | succ d₁ ih =>
    obtain ⟨d₂, rfl⟩ : ∃ d, d₂ = d + 1 := ⟨d₂ - 1, by omega⟩
    have ih := @ih d₂ (by omega)
    have hf₁ := evaluate_faithful ⟨grammar, input, o₁⟩ d₁
    have hf₂ := evaluate_faithful ⟨grammar, input, o₂⟩ d₂
    intro expr pos s₁ s₂ hs₁ hs₂ hc hx
    rcases expr.ruleRef_or_not with ⟨name, rfl⟩ | he
    · exact matchRule_outlasted hf₁ hf₂ ih hs₁ hs₂ hc name pos hx
    · rw [evaluate, step_eq_run _ _ he] at hx ⊢
      exact Script.run_outlasted hf₁ hf₂ ih _ hs₁ hs₂ hc hx

/-- Two runs of one expression return the same and have met the same failures, if the second has
no less depth and no fewer entries and the first is not exhausted. -/
theorem evaluate_eq_of_not_exhausted {d₁ d₂ : Nat} (hd : d₁ ≤ d₂) {expr : Expr} {pos : Nat}
    {s₁ s₂ : Session} (hs₁ : s₁.cache.Sound grammar input) (hs₂ : s₂.cache.Sound grammar input)
    (hc : Covers o₁.memoize o₂.memoize s₁ s₂) (hf : s₁.furthest? = s₂.furthest?)
    (hx : ¬ Exhausted (evaluate ⟨grammar, input, o₁⟩ d₁ expr pos s₁).1) :
    (evaluate ⟨grammar, input, o₂⟩ d₂ expr pos s₂).1 =
        (evaluate ⟨grammar, input, o₁⟩ d₁ expr pos s₁).1 ∧
      (evaluate ⟨grammar, input, o₂⟩ d₂ expr pos s₂).2.furthest? =
        (evaluate ⟨grammar, input, o₁⟩ d₁ expr pos s₁).2.furthest? := by
  have hx₂ := evaluate_not_exhausted hd expr pos s₁ s₂ hs₁ hs₂ hc hx
  have h₁ := evaluate_faithful ⟨grammar, input, o₁⟩ d₁ expr pos s₁ hs₁
  have h₂ := evaluate_faithful ⟨grammar, input, o₂⟩ d₂ expr pos s₂ hs₂
  obtain ⟨answer, hr₁, hr₂, hrefl₁, hrefl₂⟩ := h₁.common h₂ hx hx₂
  rw [hr₁, hr₂, hrefl₁.furthest, hrefl₂.furthest, hf]
  exact ⟨rfl, rfl⟩

/-- **An answer of plain evaluation is returned given enough depth**, whatever the options and
whatever a sound cache holds. -/
theorem evaluate_of_yields {expr : Expr} {pos : Nat} {answer : Answer Outcome}
    (hy : grammar.Yields input expr pos answer) :
    ∃ depth, ∀ d ≥ depth, ∀ (options : Options) (session : Session),
      session.cache.Sound grammar input →
      (evaluate ⟨grammar, input, options⟩ d expr pos session).1 = answer.result ∧
      (evaluate ⟨grammar, input, options⟩ d expr pos session).2.furthest? =
        Failure.mergeOption session.furthest? (Failure.join answer.raised) := by
  obtain ⟨depth, hplain⟩ := hy
  refine ⟨depth, fun d hd options session hs => ?_⟩
  let off : Context := ⟨grammar, input, { memoize := false }⟩
  have hoff : off.options.memoize = false := rfl
  have hrun := (evaluate_returns hoff depth expr pos session).1 answer hplain
  have hx : ¬ Exhausted (off.evaluate depth expr pos session).1 := by
    rw [hrun]
    exact answer.not_exhausted
  have hc : Covers off.options.memoize options.memoize session session := fun h => nomatch h
  obtain ⟨hr, hf⟩ := evaluate_eq_of_not_exhausted hd hs hs hc rfl hx
  rw [hr, hf, hrun]
  exact ⟨rfl, rfl⟩

/-- What an evaluation from a sound cache returns, unless it is exhausted, is an answer of plain
evaluation. -/
theorem evaluate_yields {options : Options} {depth : Nat} {expr : Expr} {pos : Nat}
    {session : Session} (hs : session.cache.Sound grammar input)
    (hx : ¬ Exhausted (evaluate ⟨grammar, input, options⟩ depth expr pos session).1) :
    ∃ answer, grammar.Yields input expr pos answer ∧
      (evaluate ⟨grammar, input, options⟩ depth expr pos session).1 = answer.result ∧
      (evaluate ⟨grammar, input, options⟩ depth expr pos session).2.furthest? =
        Failure.mergeOption session.furthest? (Failure.join answer.raised) := by
  have h := evaluate_faithful ⟨grammar, input, options⟩ depth expr pos session hs
  obtain ⟨answer, hy, hr, hrefl⟩ := h.answered.resolve_left hx
  exact ⟨answer, hy, hr, hrefl.furthest⟩

end Context

end Packrat
