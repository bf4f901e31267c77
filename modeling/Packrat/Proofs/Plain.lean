import Packrat.Proofs.FailureMerge
import Packrat.Proofs.Script

/-!
# Plain evaluation

What an expression comes to at a position when no outcome is kept: an `Answer`, with the failures
raised and the rules entered on the way, as a function of grammar, input and the number of nested
evaluations (`Grammar.plain?`, `none` when there are more of them).

* `plain?_mono`: more depth changes no answer, so an answer is the only one (`Yields.unique`).
* `Context.evaluate_returns`: with memoization off, the engine gives this answer, whatever its
  session holds, and exhausts its depth just where there is none.
-/

set_option autoImplicit false

namespace Packrat

/-! ## Answers -/

/-- What comes of an evaluation that ends: a value or the name of a rule that is not defined, the
failures raised outside of lookahead and the rules entered, in order. -/
structure Answer (α : Type) where
  value : Except String α
  raised : List Failure := []
  entered : List CacheKey := []

namespace Answer

variable {α β : Type}

/-- The value as the engine returns it. -/
def result (answer : Answer α) : Except ParseError α :=
  match answer.value with
  | .ok value => .ok value
  | .error name => .error (.undefinedRule name)

/-- The answer of a lookahead, whose failures are forgotten. -/
def hidden (answer : Answer α) : Answer α := { answer with raised := [] }

/-- The answer with its value passed through a function. -/
def map (f : α → β) (answer : Answer α) : Answer β :=
  ⟨answer.value.map f, answer.raised, answer.entered⟩

/-- An answer followed by another. -/
def followedBy (answer : Answer α) (next : Answer β) : Answer β :=
  ⟨next.value, answer.raised ++ next.raised, answer.entered ++ next.entered⟩

/-- An answer followed by the one that its value leads to. An error leads nowhere. -/
def andThen? (answer : Answer α) (next : α → Option (Answer β)) : Option (Answer β) :=
  match answer.value with
  | .ok value => (next value).map answer.followedBy
  | .error name => some ⟨.error name, answer.raised, answer.entered⟩

theorem andThen?_ok {answer : Answer α} {value : α} (h : answer.value = .ok value)
    (next : α → Option (Answer β)) :
    answer.andThen? next = (next value).map answer.followedBy := by
  unfold andThen?
  rw [h]

theorem andThen?_error {answer : Answer α} {name : String} (h : answer.value = .error name)
    (next : α → Option (Answer β)) :
    answer.andThen? next = some ⟨.error name, answer.raised, answer.entered⟩ := by
  unfold andThen?
  rw [h]

theorem andThen?_mono {answer : Answer α} {next next' : α → Option (Answer β)}
    (hn : ∀ value rest, next value = some rest → next' value = some rest) {whole : Answer β}
    (h : answer.andThen? next = some whole) : answer.andThen? next' = some whole := by
  rcases hv : answer.value with name | value
  · rw [andThen?_error hv] at h ⊢
    exact h
  · rw [andThen?_ok hv] at h ⊢
    obtain ⟨rest, hrest, rfl⟩ := Option.map_eq_some_iff.1 h
    rw [hn value rest hrest, Option.map_some]

theorem result_ok {answer : Answer α} {value : α} (h : answer.value = .ok value) :
    answer.result = .ok value := by
  unfold result
  rw [h]

theorem result_error {answer : Answer α} {name : String} (h : answer.value = .error name) :
    answer.result = .error (.undefinedRule name) := by
  unfold result
  rw [h]

theorem value_of_result_ok {answer : Answer α} {value : α} (h : answer.result = .ok value) :
    answer.value = .ok value := by
  unfold result at h
  split at h
  · next hv => cases h; exact hv
  · cases h

theorem value_of_result_error {answer : Answer α} {error : ParseError}
    (h : answer.result = .error error) :
    ∃ name, answer.value = .error name ∧ error = .undefinedRule name := by
  unfold result at h
  split at h
  · cases h
  · next name hv => cases h; exact ⟨name, hv, rfl⟩

end Answer

/-- The evaluation ran out of depth. -/
def Exhausted {α : Type} (result : Except ParseError α) : Prop :=
  ∃ limit pos, result = .error (.recursionLimit limit pos)

theorem exhausted_error_iff {α β : Type} {error : ParseError} :
    Exhausted (.error error : Except ParseError α) ↔
      Exhausted (.error error : Except ParseError β) := by
  unfold Exhausted
  simp only [Except.error.injEq]

theorem not_exhausted_ok {α : Type} {value : α} : ¬ Exhausted (.ok value) := by
  rintro ⟨limit, pos, h⟩
  cases h

theorem exhausted_map_iff {α β : Type} {f : α → β} {result : Except ParseError α} :
    Exhausted (result.map f) ↔ Exhausted result := by
  cases result with
  | error error => exact exhausted_error_iff
  | ok value => exact ⟨fun h => absurd h not_exhausted_ok, fun h => absurd h not_exhausted_ok⟩

theorem Answer.not_exhausted {α : Type} (answer : Answer α) : ¬ Exhausted answer.result := by
  rintro ⟨limit, pos, h⟩
  unfold result at h
  split at h <;> simp at h

/-! ## The evaluation -/

namespace Script

variable {α β : Type}

/-- The answer of a script, given those to its calls. -/
def answer? (f : Expr → Nat → Option (Answer Outcome)) : Script α → Option (Answer α)
  | done value => some { value := .ok value }
  | note failure next =>
    (next.answer? f).map fun answer => { answer with raised := failure :: answer.raised }
  | call expr pos next =>
    (f expr pos).bind fun answer => answer.andThen? fun outcome => (next outcome).answer? f
  | peek expr pos next =>
    (f expr pos).bind fun answer =>
      answer.hidden.andThen? fun outcome => (next outcome.isSuccess).answer? f

theorem answer?_call_cases {f : Expr → Nat → Option (Answer Outcome)} {expr : Expr} {pos : Nat}
    {next : Outcome → Script α} {answer : Answer α}
    (h : (call expr pos next).answer? f = some answer) :
    ∃ first, f expr pos = some first ∧
      ((∃ name, first.value = .error name ∧
          answer = ⟨.error name, first.raised, first.entered⟩) ∨
        ∃ outcome rest, first.value = .ok outcome ∧ (next outcome).answer? f = some rest ∧
          answer = first.followedBy rest) := by
  obtain ⟨first, hfirst, h⟩ := Option.bind_eq_some_iff.1 h
  refine ⟨first, hfirst, ?_⟩
  rcases hv : first.value with name | outcome
  · rw [Answer.andThen?_error hv] at h
    exact .inl ⟨name, rfl, (Option.some.inj h).symm⟩
  · rw [Answer.andThen?_ok hv] at h
    obtain ⟨rest, hrest, rfl⟩ := Option.map_eq_some_iff.1 h
    exact .inr ⟨outcome, rest, rfl, hrest, rfl⟩

theorem answer?_peek_cases {f : Expr → Nat → Option (Answer Outcome)} {expr : Expr} {pos : Nat}
    {next : Bool → Script α} {answer : Answer α}
    (h : (peek expr pos next).answer? f = some answer) :
    ∃ first, f expr pos = some first ∧
      ((∃ name, first.value = .error name ∧ answer = ⟨.error name, [], first.entered⟩) ∨
        ∃ outcome rest, first.value = .ok outcome ∧
          (next outcome.isSuccess).answer? f = some rest ∧
          answer = first.hidden.followedBy rest) := by
  obtain ⟨first, hfirst, h⟩ := Option.bind_eq_some_iff.1 h
  refine ⟨first, hfirst, ?_⟩
  rcases hv : first.value with name | outcome
  · have hv' : first.hidden.value = .error name := hv
    rw [Answer.andThen?_error hv'] at h
    exact .inl ⟨name, rfl, (Option.some.inj h).symm⟩
  · have hv' : first.hidden.value = .ok outcome := hv
    rw [Answer.andThen?_ok hv'] at h
    obtain ⟨rest, hrest, rfl⟩ := Option.map_eq_some_iff.1 h
    exact .inr ⟨outcome, rest, rfl, hrest, rfl⟩

theorem answer?_map {f : Expr → Nat → Option (Answer Outcome)} {g : α → β} {script : Script α} :
    (script.map g).answer? f = (script.answer? f).map (Answer.map g) := by
  have andThen?_map {γ : Type} (first : Answer γ) (next : γ → Option (Answer α)) :
      (first.andThen? fun value => (next value).map (Answer.map g)) =
        (first.andThen? next).map (Answer.map g) := by
    rcases hv : first.value with name | value
    · rw [Answer.andThen?_error hv, Answer.andThen?_error hv]
      rfl
    · rw [Answer.andThen?_ok hv, Answer.andThen?_ok hv, Option.map_map, Option.map_map]
      rfl
  induction script with
  | done value => rfl
  | note failure next ih =>
    simp only [map, answer?, ih, Option.map_map]
    rfl
  | call expr pos next ih =>
    cases hf : f expr pos with
    | none => simp only [map, answer?, hf, Option.bind_none, Option.map_none]
    | some first => simp only [map, answer?, hf, Option.bind_some, ih, andThen?_map]
  | peek expr pos next ih =>
    cases hf : f expr pos with
    | none => simp only [map, answer?, hf, Option.bind_none, Option.map_none]
    | some first => simp only [map, answer?, hf, Option.bind_some, ih, andThen?_map]

theorem answer?_mono {f g : Expr → Nat → Option (Answer Outcome)}
    (hfg : ∀ expr pos answer, f expr pos = some answer → g expr pos = some answer)
    {script : Script α} {answer : Answer α} (h : script.answer? f = some answer) :
    script.answer? g = some answer := by
  induction script generalizing answer with
  | done value => exact h
  | note failure next ih =>
    obtain ⟨rest, hrest, rfl⟩ := Option.map_eq_some_iff.1 h
    simp only [answer?, ih hrest, Option.map_some]
  | call expr pos next ih =>
    obtain ⟨first, hfirst, h⟩ := Option.bind_eq_some_iff.1 h
    simp only [answer?, hfg _ _ _ hfirst, Option.bind_some]
    exact Answer.andThen?_mono (fun outcome _ => ih outcome) h
  | peek expr pos next ih =>
    obtain ⟨first, hfirst, h⟩ := Option.bind_eq_some_iff.1 h
    simp only [answer?, hfg _ _ _ hfirst, Option.bind_some]
    exact Answer.andThen?_mono (fun outcome _ => ih outcome.isSuccess) h

end Script

/-- An answer with the entry of a rule before it. -/
def Answer.entering {α : Type} (name : String) (pos : Nat) (answer : Answer α) : Answer α :=
  { answer with entered := ⟨pos, name⟩ :: answer.entered }

namespace Grammar

variable (grammar : Grammar) (input : Input)

/-- The answer of an expression at a position, with at most `depth` nested evaluations. -/
def plain? : (depth : Nat) → Expr → Nat → Option (Answer Outcome)
  | 0 => fun _ _ => none
  | depth + 1 => fun expr pos =>
    match expr with
    | .ruleRef name =>
      match grammar.rule? name with
      | some rule =>
        ((Script.ofBody name rule.body pos).answer? (plain? depth)).map (·.entering name pos)
      | none => some { value := .error name }
    | expr => (Script.ofExpr input expr pos).answer? (plain? depth)

/-- The expression has this answer at the position, given enough depth. -/
def Yields (expr : Expr) (pos : Nat) (answer : Answer Outcome) : Prop :=
  ∃ depth, grammar.plain? input depth expr pos = some answer

variable {grammar input}

theorem plain?_succ {depth : Nat} {expr : Expr} (h : ∀ name, expr ≠ .ruleRef name) (pos : Nat) :
    grammar.plain? input (depth + 1) expr pos =
      (Script.ofExpr input expr pos).answer? (grammar.plain? input depth) := by
  cases expr with
  | ruleRef name => exact absurd rfl (h name)
  | _ => rfl

theorem plain?_ruleRef {depth : Nat} {name : String} {rule : Rule}
    (h : grammar.rule? name = some rule) (pos : Nat) :
    grammar.plain? input (depth + 1) (.ruleRef name) pos =
      ((Script.ofBody name rule.body pos).answer? (grammar.plain? input depth)).map
        (·.entering name pos) := by
  simp only [plain?, h]

theorem plain?_undefined {depth : Nat} {name : String} (h : grammar.rule? name = none)
    (pos : Nat) :
    grammar.plain? input (depth + 1) (.ruleRef name) pos = some { value := .error name } := by
  simp only [plain?, h]

theorem plain?_step {depth : Nat} {expr : Expr} {pos : Nat} {answer : Answer Outcome}
    (h : grammar.plain? input depth expr pos = some answer) :
    grammar.plain? input (depth + 1) expr pos = some answer := by
  induction depth generalizing expr pos answer with
  | zero => simp [plain?] at h
  | succ depth ih =>
    rcases expr.ruleRef_or_not with ⟨name, rfl⟩ | he
    · cases hr : grammar.rule? name with
      | none => rwa [plain?_undefined hr] at h ⊢
      | some rule =>
        rw [plain?_ruleRef hr] at h ⊢
        obtain ⟨body, hbody, rfl⟩ := Option.map_eq_some_iff.1 h
        rw [Script.answer?_mono (fun _ _ _ => ih) hbody, Option.map_some]
    · rw [plain?_succ he] at h ⊢
      exact Script.answer?_mono (fun _ _ _ => ih) h

/-- **More depth changes no answer.** -/
theorem plain?_mono {depth depth' : Nat} {expr : Expr} {pos : Nat} {answer : Answer Outcome}
    (h : grammar.plain? input depth expr pos = some answer) (hd : depth ≤ depth') :
    grammar.plain? input depth' expr pos = some answer := by
  induction hd with
  | refl => exact h
  | step _ ih => exact plain?_step ih

/-! ## Answers given enough depth -/

theorem Yields.unique {expr : Expr} {pos : Nat} {a b : Answer Outcome}
    (ha : grammar.Yields input expr pos a) (hb : grammar.Yields input expr pos b) : a = b := by
  obtain ⟨d₁, h₁⟩ := ha
  obtain ⟨d₂, h₂⟩ := hb
  have h := plain?_mono h₁ (Nat.le_max_left d₁ d₂)
  rw [plain?_mono h₂ (Nat.le_max_right d₁ d₂)] at h
  exact (Option.some.inj h).symm

end Grammar

namespace Script

variable {α : Type} {grammar : Grammar} {input : Input}

variable (grammar input) in
/-- The script has this answer, given enough depth for its calls. -/
def Yields (script : Script α) (answer : Answer α) : Prop :=
  ∃ depth, script.answer? (grammar.plain? input depth) = some answer

theorem Yields.done (value : α) : (Script.done value).Yields grammar input { value := .ok value } :=
  ⟨0, rfl⟩

theorem Yields.note {failure : Failure} {next : Script α} {answer : Answer α}
    (h : next.Yields grammar input answer) :
    (Script.note failure next).Yields grammar input
      { answer with raised := failure :: answer.raised } := by
  obtain ⟨depth, h⟩ := h
  exact ⟨depth, by simp only [answer?, h, Option.map_some]⟩

section
variable {expr : Expr} {pos : Nat} {first : Answer Outcome}
  (hfirst : grammar.Yields input expr pos first)
include hfirst

theorem Yields.call {next : Outcome → Script α} {outcome : Outcome} {rest : Answer α}
    (hv : first.value = .ok outcome) (hrest : (next outcome).Yields grammar input rest) :
    (Script.call expr pos next).Yields grammar input (first.followedBy rest) := by
  obtain ⟨d₁, h₁⟩ := hfirst
  obtain ⟨d₂, h₂⟩ := hrest
  refine ⟨max d₁ d₂, ?_⟩
  have h₂ := answer?_mono (fun _ _ _ h => Grammar.plain?_mono h (Nat.le_max_right d₁ d₂)) h₂
  simp only [answer?, Grammar.plain?_mono h₁ (Nat.le_max_left d₁ d₂), Option.bind_some,
    Answer.andThen?_ok hv, h₂, Option.map_some]

theorem Yields.call_error {next : Outcome → Script α} {name : String}
    (hv : first.value = .error name) :
    (Script.call expr pos next).Yields grammar input
      ⟨.error name, first.raised, first.entered⟩ := by
  obtain ⟨depth, h⟩ := hfirst
  exact ⟨depth, by simp only [answer?, h, Option.bind_some, Answer.andThen?_error hv]⟩

theorem Yields.peek {next : Bool → Script α} {outcome : Outcome} {rest : Answer α}
    (hv : first.value = .ok outcome)
    (hrest : (next outcome.isSuccess).Yields grammar input rest) :
    (Script.peek expr pos next).Yields grammar input (first.hidden.followedBy rest) := by
  obtain ⟨d₁, h₁⟩ := hfirst
  obtain ⟨d₂, h₂⟩ := hrest
  refine ⟨max d₁ d₂, ?_⟩
  have h₂ := answer?_mono (fun _ _ _ h => Grammar.plain?_mono h (Nat.le_max_right d₁ d₂)) h₂
  have hv : first.hidden.value = .ok outcome := hv
  simp only [answer?, Grammar.plain?_mono h₁ (Nat.le_max_left d₁ d₂), Option.bind_some,
    Answer.andThen?_ok hv, h₂, Option.map_some]

theorem Yields.peek_error {next : Bool → Script α} {name : String}
    (hv : first.value = .error name) :
    (Script.peek expr pos next).Yields grammar input ⟨.error name, [], first.entered⟩ := by
  obtain ⟨depth, h⟩ := hfirst
  have hv : first.hidden.value = .error name := hv
  refine ⟨depth, ?_⟩
  simp only [answer?, h, Option.bind_some, Answer.andThen?_error hv]
  rfl

end

theorem yields_done_iff {value : α} {answer : Answer α} :
    (Script.done value).Yields grammar input answer ↔ answer = { value := .ok value } := by
  constructor
  · rintro ⟨depth, h⟩
    exact (Option.some.inj h).symm
  · rintro rfl
    exact .done value

theorem yields_call_iff {expr : Expr} {pos : Nat} {next : Outcome → Script α}
    {answer : Answer α} :
    (Script.call expr pos next).Yields grammar input answer ↔
      ∃ first, grammar.Yields input expr pos first ∧
        ((∃ name, first.value = .error name ∧
            answer = ⟨.error name, first.raised, first.entered⟩) ∨
          ∃ outcome rest, first.value = .ok outcome ∧
            (next outcome).Yields grammar input rest ∧ answer = first.followedBy rest) := by
  constructor
  · rintro ⟨depth, h⟩
    obtain ⟨first, hfirst, hends | ⟨outcome, rest, hv, hrest, ha⟩⟩ := answer?_call_cases h
    · exact ⟨first, ⟨depth, hfirst⟩, .inl hends⟩
    · exact ⟨first, ⟨depth, hfirst⟩, .inr ⟨outcome, rest, hv, ⟨depth, hrest⟩, ha⟩⟩
  · rintro ⟨first, hfirst, ⟨name, hv, rfl⟩ | ⟨outcome, rest, hv, hrest, rfl⟩⟩
    · exact .call_error hfirst hv
    · exact .call hfirst hv hrest

end Script

namespace Grammar

variable {grammar : Grammar} {input : Input} {pos : Nat} {answer : Answer Outcome}

theorem Yields.of_script {expr : Expr} (he : ∀ name, expr ≠ .ruleRef name)
    (h : (Script.ofExpr input expr pos).Yields grammar input answer) :
    grammar.Yields input expr pos answer := by
  obtain ⟨depth, h⟩ := h
  exact ⟨depth + 1, by rw [plain?_succ he, h]⟩

theorem yields_iff_script {expr : Expr} (he : ∀ name, expr ≠ .ruleRef name) :
    grammar.Yields input expr pos answer ↔
      (Script.ofExpr input expr pos).Yields grammar input answer := by
  refine ⟨?_, .of_script he⟩
  rintro ⟨_ | depth, h⟩
  · cases h
  · rw [plain?_succ he] at h
    exact ⟨depth, h⟩

theorem Yields.of_body {name : String} {rule : Rule} (hr : grammar.rule? name = some rule)
    (h : (Script.ofBody name rule.body pos).Yields grammar input answer) :
    grammar.Yields input (.ruleRef name) pos (answer.entering name pos) := by
  obtain ⟨depth, h⟩ := h
  exact ⟨depth + 1, by rw [plain?_ruleRef hr, h, Option.map_some]⟩

theorem Yields.exists_body {name : String} {rule : Rule} (hr : grammar.rule? name = some rule)
    (h : grammar.Yields input (.ruleRef name) pos answer) :
    ∃ body, (Script.ofBody name rule.body pos).Yields grammar input body ∧
      answer = body.entering name pos := by
  obtain ⟨_ | depth, h⟩ := h
  · cases h
  · rw [plain?_ruleRef hr] at h
    obtain ⟨body, hbody, rfl⟩ := Option.map_eq_some_iff.1 h
    exact ⟨body, ⟨depth, hbody⟩, rfl⟩

theorem Yields.of_undefined {name : String} (hr : grammar.rule? name = none) :
    grammar.Yields input (.ruleRef name) pos { value := .error name } :=
  ⟨1, plain?_undefined hr pos⟩

end Grammar

/-! ## The engine with memoization off -/

namespace Session

variable {α β : Type}

/-- The session after an evaluation that kept no outcome. -/
def after (session : Session) (answer : Answer α) : Session :=
  { session with
    furthest? := Failure.mergeOption session.furthest? (Failure.join answer.raised)
    log := (answer.entered.map fun key => Event.ruleEntered key.rule key.position).reverse ++
      session.log }

theorem after_followedBy (session : Session) (first : Answer α) (rest : Answer β) :
    session.after (first.followedBy rest) = (session.after first).after rest := by
  simp only [after, Answer.followedBy, Failure.join_append, Failure.mergeOption_assoc,
    List.map_append, List.reverse_append, List.append_assoc]

theorem after_congr (session : Session) {a : Answer α} {b : Answer β} (hr : a.raised = b.raised)
    (he : a.entered = b.entered) : session.after a = session.after b := by
  unfold after
  rw [hr, he]

theorem after_of_silent (session : Session) {answer : Answer α} (hr : answer.raised = [])
    (he : answer.entered = []) : session.after answer = session := by
  simp only [after, hr, he, Failure.join, Failure.mergeOption_none_right, List.map_nil,
    List.reverse_nil, List.nil_append]

theorem restored_after (session : Session) (answer : Answer α) :
    { session.withoutFurthest.after answer with furthest? := session.furthest? } =
      session.after answer.hidden := by
  simp only [after, withoutFurthest, Answer.hidden, Failure.join, Failure.mergeOption_none_right]

end Session

/-- The evaluator returns the answers of `f`, and is exhausted where there is none. -/
def Evaluator.Returns (eval : Evaluator) (f : Expr → Nat → Option (Answer Outcome)) : Prop :=
  ∀ expr pos session,
    (∀ answer, f expr pos = some answer → eval expr pos session = (answer.result,
      session.after answer)) ∧
    (f expr pos = none → Exhausted (eval expr pos session).1)

section
variable {α : Type} {eval : Evaluator} {f : Expr → Nat → Option (Answer Outcome)}

theorem Script.run_of_answer? (h : eval.Returns f) {script : Script α} {answer : Answer α}
    (ha : script.answer? f = some answer) (session : Session) :
    script.run eval session = (answer.result, session.after answer) := by
  induction script generalizing answer session with
  | done value =>
    cases ha
    rw [Session.after_of_silent session rfl rfl]
    rfl
  | note failure next ih =>
    obtain ⟨rest, hrest, rfl⟩ := Option.map_eq_some_iff.1 ha
    simp only [run, ih hrest]
    refine Prod.ext rfl ?_
    simp only [Session.after, Session.note, Failure.join, Failure.mergeOption_assoc]
  | call expr pos next ih =>
    obtain ⟨first, hfirst, hcases⟩ := answer?_call_cases ha
    have hfirst := (h expr pos session).1 first hfirst
    obtain ⟨name, hv, rfl⟩ | ⟨outcome, rest, hv, hrest, rfl⟩ := hcases
    · rw [Answer.result_error hv] at hfirst
      rw [run_call_error hfirst]
      exact Prod.ext rfl (Session.after_congr session rfl rfl)
    · rw [Answer.result_ok hv] at hfirst
      rw [run_call_ok hfirst, ih outcome hrest, Session.after_followedBy]
      rfl
  | peek expr pos next ih =>
    obtain ⟨first, hfirst, hcases⟩ := answer?_peek_cases ha
    have hfirst := (h expr pos session.withoutFurthest).1 first hfirst
    obtain ⟨name, hv, rfl⟩ | ⟨outcome, rest, hv, hrest, rfl⟩ := hcases
    · rw [Answer.result_error hv] at hfirst
      rw [run_peek_error hfirst]
      -- what was met in the lookahead is forgotten, with an error as without
      exact Prod.ext rfl (Session.restored_after session first)
    · rw [Answer.result_ok hv] at hfirst
      rw [run_peek_ok hfirst, Session.restored_after, ih outcome.isSuccess hrest,
        Session.after_followedBy]
      rfl

theorem Script.exhausted_call {expr : Expr} {pos : Nat} {next : Outcome → Script α}
    {session : Session} (h : Exhausted (eval expr pos session).1) :
    Exhausted ((call expr pos next).run eval session).1 := by
  obtain ⟨limit, place, h⟩ := h
  rw [run_call_error (Prod.ext h rfl)]
  exact ⟨limit, place, rfl⟩

theorem Script.exhausted_peek {expr : Expr} {pos : Nat} {next : Bool → Script α}
    {session : Session} (h : Exhausted (eval expr pos session.withoutFurthest).1) :
    Exhausted ((peek expr pos next).run eval session).1 := by
  obtain ⟨limit, place, h⟩ := h
  rw [run_peek_error (Prod.ext h rfl)]
  exact ⟨limit, place, rfl⟩

theorem Script.run_exhausted (h : eval.Returns f) {script : Script α}
    (hn : script.answer? f = none) (session : Session) :
    Exhausted (script.run eval session).1 := by
  induction script generalizing session with
  | done value => cases hn
  | note failure next ih => exact ih (Option.map_eq_none_iff.1 hn) _
  | call expr pos next ih =>
    cases hf : f expr pos with
    | none => exact exhausted_call ((h expr pos session).2 hf)
    | some first =>
      have hfirst := (h expr pos session).1 first hf
      simp only [answer?, hf, Option.bind_some] at hn
      rcases hv : first.value with name | outcome
      · rw [Answer.andThen?_error hv] at hn
        cases hn
      · rw [Answer.andThen?_ok hv, Option.map_eq_none_iff] at hn
        rw [Answer.result_ok hv] at hfirst
        rw [run_call_ok hfirst]
        exact ih outcome hn _
  | peek expr pos next ih =>
    cases hf : f expr pos with
    | none => exact exhausted_peek ((h expr pos session.withoutFurthest).2 hf)
    | some first =>
      have hfirst := (h expr pos session.withoutFurthest).1 first hf
      simp only [answer?, hf, Option.bind_some] at hn
      rcases hv : first.value with name | outcome
      · have hv' : first.hidden.value = .error name := hv
        rw [Answer.andThen?_error hv'] at hn
        cases hn
      · have hv' : first.hidden.value = .ok outcome := hv
        rw [Answer.andThen?_ok hv', Option.map_eq_none_iff] at hn
        rw [Answer.result_ok hv] at hfirst
        rw [run_peek_ok hfirst]
        exact ih outcome.isSuccess hn _

end

namespace Context

variable {context : Context} {eval : Evaluator} {f : Expr → Nat → Option (Answer Outcome)}
  {name : String} {rule : Rule} {pos : Nat} (hm : context.options.memoize = false)
  (hr : context.grammar.rule? name = some rule) (h : eval.Returns f)
include hm hr h

theorem matchRule_of_answer? {answer : Answer Outcome}
    (ha : (Script.ofBody name rule.body pos).answer? f = some answer) (session : Session) :
    context.matchRule eval name pos session =
      (answer.result, session.after (answer.entering name pos)) := by
  have hrun := Script.run_of_answer? h ha (session.report (.ruleEntered name pos)).withoutFurthest
  have hafter : ((session.report (.ruleEntered name pos)).withoutFurthest.after answer).mergedInto
      session.furthest? = session.after (answer.entering name pos) := by
    simp only [Session.mergedInto, Session.after, Session.withoutFurthest, Session.report,
      Answer.entering, Failure.mergeOption_none_left, List.map_cons, List.reverse_cons,
      List.append_assoc, List.cons_append, List.nil_append]
  rw [matchRule_unmemoized hr hm]
  rcases hv : answer.value with undefined | outcome
  · rw [Answer.result_error hv] at hrun ⊢
    rw [enterRule_error hrun, hafter]
  · rw [Answer.result_ok hv] at hrun ⊢
    rw [enterRule_ok hrun, hm, if_neg Bool.false_ne_true, hafter]

theorem matchRule_exhausted (hn : (Script.ofBody name rule.body pos).answer? f = none)
    (session : Session) : Exhausted (context.matchRule eval name pos session).1 := by
  have hrun := Script.run_exhausted h hn (session.report (.ruleEntered name pos)).withoutFurthest
  obtain ⟨limit, place, hrun⟩ := hrun
  rw [matchRule_unmemoized hr hm, enterRule_error (Prod.ext hrun rfl)]
  exact ⟨limit, place, rfl⟩

end Context

/-- **The engine with memoization off is plain evaluation**, at the same depth. -/
theorem Context.evaluate_returns {context : Context} (hm : context.options.memoize = false)
    (depth : Nat) :
    (context.evaluate depth).Returns (context.grammar.plain? context.input depth) := by
  induction depth with
  | zero =>
    intro expr pos session
    refine ⟨fun answer ha => ?_, fun _ => ⟨_, _, rfl⟩⟩
    cases ha
  | succ depth ih =>
    intro expr pos session
    rcases expr.ruleRef_or_not with ⟨name, rfl⟩ | he
    · show _ ∧ (_ → Exhausted (context.matchRule (context.evaluate depth) name pos session).1)
      cases hr : context.grammar.rule? name with
      | none =>
        rw [Grammar.plain?_undefined hr]
        refine ⟨fun answer ha => ?_, fun hn => nomatch hn⟩
        cases ha
        rw [Session.after_of_silent session rfl rfl]
        exact matchRule_undefined hr
      | some rule =>
        rw [Grammar.plain?_ruleRef hr]
        refine ⟨fun answer ha => ?_, fun hn => ?_⟩
        · obtain ⟨body, hbody, rfl⟩ := Option.map_eq_some_iff.1 ha
          exact matchRule_of_answer? hm hr ih hbody session
        · exact matchRule_exhausted hm hr ih (Option.map_eq_none_iff.1 hn) session
    · rw [Grammar.plain?_succ he, evaluate, step_eq_run context _ he]
      exact ⟨fun answer ha => Script.run_of_answer? ih ha session,
        fun hn => Script.run_exhausted ih hn session⟩

end Packrat
