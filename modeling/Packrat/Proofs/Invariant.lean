import Packrat.Proofs.Plain

/-!
# Invariants of answers

A property of expressions, positions and values holds of all answers of plain evaluation if every
script keeps it (`Grammar.Yields.induction`): its value has the property whenever the values of its
calls have it (`Script.Ensures`). In this form an invariant is proved construct by construct,
without session, cache or depth. A property that refers to plain evaluation itself may use that
the values are those of answers (`Grammar.Yields.induction_produced`).
-/

set_option autoImplicit false

namespace Packrat

/-- Whether the expression holds no others and refers to none. -/
def Expr.isTerminal : Expr → Bool
  | literal _ => true
  | oneIn _ => true
  | any => true
  | endOfInput => true
  | regex _ => true
  | _ => false

namespace Script

variable {α β : Type}

/-- The values of a script satisfy `post` if those of its calls satisfy `calls`. -/
def Ensures (calls : Expr → Nat → Except String Outcome → Prop) (post : Except String α → Prop) :
    Script α → Prop
  | done value => post (.ok value)
  | note _ next => next.Ensures calls post
  | call expr pos next =>
    (∀ outcome, calls expr pos (.ok outcome) → (next outcome).Ensures calls post) ∧
      ∀ name, calls expr pos (.error name) → post (.error name)
  | peek expr pos next =>
    (∀ outcome, calls expr pos (.ok outcome) → (next outcome.isSuccess).Ensures calls post) ∧
      ∀ name, calls expr pos (.error name) → post (.error name)

variable {calls : Expr → Nat → Except String Outcome → Prop}

theorem Ensures.answer {f : Expr → Nat → Option (Answer Outcome)}
    (hf : ∀ expr pos answer, f expr pos = some answer → calls expr pos answer.value)
    {post : Except String α → Prop} {script : Script α} (h : script.Ensures calls post)
    {answer : Answer α} (ha : script.answer? f = some answer) : post answer.value := by
  induction script generalizing answer with
  | done value =>
    cases ha
    exact h
  | note failure next ih =>
    obtain ⟨rest, hrest, rfl⟩ := Option.map_eq_some_iff.1 ha
    have hpost := ih h hrest
    exact hpost
  | call expr pos next ih =>
    obtain ⟨first, hfirst, hcases⟩ := answer?_call_cases ha
    have hcall := hf expr pos first hfirst
    obtain ⟨name, hv, rfl⟩ | ⟨outcome, rest, hv, hrest, rfl⟩ := hcases <;> rw [hv] at hcall
    · exact h.2 name hcall
    · have hpost := ih outcome (h.1 outcome hcall) hrest
      exact hpost
  | peek expr pos next ih =>
    obtain ⟨first, hfirst, hcases⟩ := answer?_peek_cases ha
    have hcall := hf expr pos first hfirst
    obtain ⟨name, hv, rfl⟩ | ⟨outcome, rest, hv, hrest, rfl⟩ := hcases <;> rw [hv] at hcall
    · exact h.2 name hcall
    · have hpost := ih outcome.isSuccess (h.1 outcome hcall) hrest
      exact hpost

/-- Less may be assumed of the values and more of the calls. -/
theorem Ensures.mono {calls' : Expr → Nat → Except String Outcome → Prop}
    {post post' : Except String α → Prop} {script : Script α} (h : script.Ensures calls post)
    (hcalls : ∀ expr pos value, calls' expr pos value → calls expr pos value)
    (hpost : ∀ value, post value → post' value) : script.Ensures calls' post' := by
  induction script with
  | done value => exact hpost _ h
  | note failure next ih => exact ih h
  | call expr pos next ih =>
    refine ⟨fun outcome ho => ih outcome (h.1 outcome (hcalls _ _ _ ho)), fun name hn => ?_⟩
    exact hpost _ (h.2 name (hcalls _ _ _ hn))
  | peek expr pos next ih =>
    refine ⟨fun outcome ho => ih outcome.isSuccess (h.1 outcome (hcalls _ _ _ ho)),
      fun name hn => ?_⟩
    exact hpost _ (h.2 name (hcalls _ _ _ hn))

theorem ensures_map {f : α → β} {post : Except String β → Prop} {script : Script α} :
    (script.map f).Ensures calls post ↔
      script.Ensures calls fun value => post (value.map f) := by
  induction script with
  | done value => exact Iff.rfl
  | note failure next ih => exact ih
  | call expr pos next ih => simp only [map, Ensures, ih, Except.map]
  | peek expr pos next ih => simp only [map, Ensures, ih, Except.map]

theorem Ensures.of_forall {post : Except String α → Prop} (h : ∀ value, post value)
    (script : Script α) : script.Ensures calls post := by
  induction script with
  | done value => exact h _
  | note failure next ih => exact ih
  | call expr pos next ih => exact ⟨fun outcome _ => ih outcome, fun _ _ => h _⟩
  | peek expr pos next ih => exact ⟨fun outcome _ => ih outcome.isSuccess, fun _ _ => h _⟩

theorem ensures_fail {pos : Nat} {expected : String} {post : Except String Outcome → Prop} :
    (fail pos expected).Ensures calls post ↔
      post (.ok (.failure (.single pos expected))) := Iff.rfl

theorem ensures_terminal {input : Input} {expr : Expr} {pos : Nat}
    {post : Except String Outcome → Prop} (ht : expr.isTerminal = true)
    (hwhole : ∀ stop, post (.ok (.terminal pos stop))) (hnothing : post (.ok (.nothing pos)))
    (hfail : ∀ place expected, post (.ok (.failure (.single place expected)))) :
    (ofExpr input expr pos).Ensures calls post := by
  have atom (test : Char → Bool) (expected : String) :
      (ofAtom input test expected pos).Ensures calls post := by
    unfold ofAtom
    split
    · exact hwhole _
    · exact hfail _ _
  cases expr with
  | literal text =>
    simp only [ofExpr, ofLiteral]
    split
    · exact hwhole _
    · exact hfail _ _
  | oneIn cls => exact atom _ _
  | any => exact atom _ _
  | endOfInput =>
    simp only [ofExpr, ofEnd]
    split
    · exact hnothing
    · exact hfail _ _
  | regex pattern =>
    simp only [ofExpr, ofPattern]
    split
    · exact hwhole _
    · exact hfail _ _
  | _ => cases ht

/-- The body of a rule, in the two cases that there are: a choice whose alternatives are evaluated
as the body itself, and anything else, which is called. -/
theorem ensures_body {name : String} {body : Expr} {pos : Nat}
    {post : Except String Outcome → Prop}
    (hchoice : ∀ exprs, body = .choice exprs →
      (ofChoice pos exprs 0 none).Ensures calls fun value => post (value.map fun (outcome, index) =>
        Context.ruleOutcome name pos (Context.recordedIndex index) outcome))
    (hcall : ∀ outcome, calls body pos (.ok outcome) →
      post (.ok (Context.ruleOutcome name pos none outcome)))
    (herror : ∀ undefined, calls body pos (.error undefined) → post (.error undefined)) :
    (ofBody name body pos).Ensures calls post := by
  cases body with
  | choice exprs => exact ensures_map.2 (hchoice exprs rfl)
  | _ => exact ensures_map.2 ⟨hcall, herror⟩

end Script

/-- Plain evaluation of the expression at the position comes to the value. -/
def Grammar.Produces (grammar : Grammar) (input : Input) (expr : Expr) (pos : Nat)
    (value : Except String Outcome) : Prop :=
  ∃ answer, grammar.Yields input expr pos answer ∧ answer.value = value

theorem Grammar.Produces.exists_rule {grammar : Grammar} {input : Input} {name : String}
    {pos : Nat} {outcome : Outcome}
    (h : grammar.Produces input (.ruleRef name) pos (.ok outcome)) :
    ∃ rule, grammar.rule? name = some rule := by
  obtain ⟨answer, hy, hv⟩ := h
  cases hr : grammar.rule? name with
  | none =>
    obtain rfl := hy.unique (.of_undefined hr)
    cases hv
  | some rule => exact ⟨rule, rfl⟩

/-- A script may take it that its calls come to their values. -/
theorem Script.Ensures.of_yields {α : Type} {grammar : Grammar} {input : Input}
    {post : Except String α → Prop} {script : Script α} {answer : Answer α}
    (h : script.Ensures (grammar.Produces input) post) (hy : script.Yields grammar input answer) :
    post answer.value := by
  obtain ⟨depth, ha⟩ := hy
  exact h.answer (fun _ _ answer ha => ⟨answer, ⟨depth, ha⟩, rfl⟩) ha

/-- **Induction on answers**, for properties that refer to plain evaluation: a script may take it
that its calls come to their values, and the body of a rule that the rule comes to its own. -/
theorem Grammar.Yields.induction_produced {grammar : Grammar} {input : Input}
    {P : Expr → Nat → Except String Outcome → Prop}
    (script : ∀ expr pos, (∀ name, expr ≠ .ruleRef name) →
      (Script.ofExpr input expr pos).Ensures
        (fun expr pos value => grammar.Produces input expr pos value ∧ P expr pos value)
        (P expr pos))
    (body : ∀ name rule pos, grammar.rule? name = some rule →
      (Script.ofBody name rule.body pos).Ensures
        (fun expr pos value => grammar.Produces input expr pos value ∧ P expr pos value)
        fun value => grammar.Produces input (.ruleRef name) pos value → P (.ruleRef name) pos value)
    (undefined : ∀ name pos, grammar.rule? name = none → P (.ruleRef name) pos (.error name))
    {expr : Expr} {pos : Nat} {answer : Answer Outcome}
    (h : grammar.Yields input expr pos answer) : P expr pos answer.value := by
  obtain ⟨depth, h⟩ := h
  induction depth generalizing expr pos answer with
  | zero => cases h
  | succ depth ih =>
    have calls (expr : Expr) (pos : Nat) (answer : Answer Outcome)
        (h : grammar.plain? input depth expr pos = some answer) :
        grammar.Produces input expr pos answer.value ∧ P expr pos answer.value :=
      ⟨⟨answer, ⟨depth, h⟩, rfl⟩, ih h⟩
    rcases expr.ruleRef_or_not with ⟨name, rfl⟩ | he
    · have hyields : grammar.Yields input (.ruleRef name) pos answer := ⟨depth + 1, h⟩
      cases hr : grammar.rule? name with
      | none =>
        rw [plain?_undefined hr] at h
        cases h
        exact undefined name pos hr
      | some rule =>
        rw [plain?_ruleRef hr] at h
        obtain ⟨inner, hinner, rfl⟩ := Option.map_eq_some_iff.1 h
        have hpost := (body name rule pos hr).answer calls hinner
        exact hpost ⟨_, hyields, rfl⟩
    · rw [plain?_succ he] at h
      exact (script expr pos he).answer calls h

/-- **Induction on answers**: what every script keeps holds of all answers. -/
theorem Grammar.Yields.induction {grammar : Grammar} {input : Input}
    {P : Expr → Nat → Except String Outcome → Prop}
    (script : ∀ expr pos, (∀ name, expr ≠ .ruleRef name) →
      (Script.ofExpr input expr pos).Ensures P (P expr pos))
    (body : ∀ name rule pos, grammar.rule? name = some rule →
      (Script.ofBody name rule.body pos).Ensures P (P (.ruleRef name) pos))
    (undefined : ∀ name pos, grammar.rule? name = none → P (.ruleRef name) pos (.error name))
    {expr : Expr} {pos : Nat} {answer : Answer Outcome}
    (h : grammar.Yields input expr pos answer) : P expr pos answer.value := by
  refine h.induction_produced (fun expr pos he => ?_) (fun name rule pos hr => ?_) undefined
  · exact (script expr pos he).mono (fun _ _ _ h => h.2) fun _ h => h
  · exact (body name rule pos hr).mono (fun _ _ _ h => h.2) fun _ h _ => h

end Packrat
