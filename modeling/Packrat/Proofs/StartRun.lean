import Packrat.Parser
import Packrat.Proofs.Coverage
import Packrat.Proofs.Invariant

/-!
# The run of the start rule

A parse of an input that is not too large is read off one evaluation, that of its start rule over
an empty cache (`Parser.parseWithCache_result`), and so off an answer of plain evaluation, unless
its depth is exhausted (`Parser.parse_cases`), which it is not if there is enough of it
(`Parser.parse_of_produces`).
-/

set_option autoImplicit false

namespace Packrat

namespace Parser

/-- The session in which a parse matches its start rule. -/
def opening (start : String) (input : Input) : Session :=
  Session.report {} (.parseStarted input.length start)

/-- The run of the start rule. -/
def startRun (grammar : Grammar) (start : String) (input : Input) (options : Options) :
    Result Outcome :=
  Context.matchAt ⟨grammar, input, options⟩ (.ruleRef start) 0 (opening start input)

theorem sound_opening (grammar : Grammar) (start : String) (input : Input) :
    (opening start input).cache.Sound grammar input := Cache.sound_empty

variable {grammar : Grammar} {start : String} {input : Input} {options : Options}

/-- A parse of an input that is not too large is read off the run of the start rule. -/
theorem parseWithCache_result (h : options.maxInputLength?.filter (· < input.length) = none)
    (cache : Cache) :
    (parseWithCache ⟨grammar, options⟩ start input cache).result =
      (startRun grammar start input options).1.map fun outcome =>
        resultOf input start outcome (startRun grammar start input options).2.furthest? := by
  unfold startRun opening
  simp only [parseWithCache, h]
  rcases Context.matchAt _ _ _ _ with ⟨error | outcome, session⟩ <;> rfl

theorem parseWithCache_cache (h : options.maxInputLength?.filter (· < input.length) = none)
    (cache : Cache) :
    (parseWithCache ⟨grammar, options⟩ start input cache).cache =
      (startRun grammar start input options).2.cache := by
  unfold startRun opening
  simp only [parseWithCache, h]
  rcases Context.matchAt _ _ _ _ with ⟨error | outcome, session⟩ <;> rfl

theorem parseWithCache_tooLarge {limit : Nat}
    (h : options.maxInputLength?.filter (· < input.length) = some limit) (cache : Cache) :
    parseWithCache ⟨grammar, options⟩ start input cache =
      ⟨.error (.inputTooLarge input.length limit), cache, []⟩ := by
  simp only [parseWithCache, h]

theorem not_tooLarge_of_ok {cache : Cache} {result : ParseResult}
    (h : (parseWithCache ⟨grammar, options⟩ start input cache).result = .ok result) :
    options.maxInputLength?.filter (· < input.length) = none := by
  cases hlimit : options.maxInputLength?.filter (· < input.length) with
  | none => rfl
  | some limit =>
    rw [parseWithCache_tooLarge hlimit] at h
    cases h

/-- **How a parse ends**: its input is refused, its depth is exhausted, or it is read off an answer
of the start rule, with the merge of its failures as the furthest one. -/
theorem parse_cases (grammar : Grammar) (start : String) (input : Input) (options : Options)
    (cache : Cache) :
    let result := (parseWithCache ⟨grammar, options⟩ start input cache).result
    (∃ limit, result = .error (.inputTooLarge input.length limit)) ∨ Exhausted result ∨
      ∃ answer, grammar.Yields input (.ruleRef start) 0 answer ∧
        result = answer.result.map fun outcome =>
          resultOf input start outcome (Failure.join answer.raised) := by
  intro result
  cases hlimit : options.maxInputLength?.filter (· < input.length) with
  | some limit =>
    have hresult := congrArg Parse.result
      (@parseWithCache_tooLarge grammar start input options limit hlimit cache)
    exact .inl ⟨limit, hresult⟩
  | none =>
    have hresult : result = _ := parseWithCache_result hlimit cache
    by_cases hx : Exhausted (startRun grammar start input options).1
    · refine .inr (.inl ?_)
      rw [hresult]
      exact exhausted_map_iff.2 hx
    · obtain ⟨answer, hy, hr, hf⟩ :=
        Context.evaluate_yields (sound_opening grammar start input) hx
      have hrun : (startRun grammar start input options).1 = answer.result := hr
      have hfurthest : (startRun grammar start input options).2.furthest? =
          Failure.mergeOption none (Failure.join answer.raised) := hf
      refine .inr (.inr ⟨answer, hy, ?_⟩)
      rw [hresult, hrun, hfurthest, Failure.mergeOption_none_left]

theorem parse_of_produces {outcome : Outcome}
    (h : grammar.Produces input (.ruleRef start) 0 (.ok outcome)) :
    ∃ furthest? depth, ∀ (options : Options) (cache : Cache), depth ≤ options.maxDepth →
      (∀ limit ∈ options.maxInputLength?, input.length ≤ limit) →
        (parseWithCache ⟨grammar, options⟩ start input cache).result =
          .ok (resultOf input start outcome furthest?) := by
  obtain ⟨answer, hy, hv⟩ := h
  obtain ⟨depth, hdepth⟩ := Context.evaluate_of_yields hy
  refine ⟨Failure.join answer.raised, depth, fun options cache hle hlimit => ?_⟩
  have hfilter : options.maxInputLength?.filter (· < input.length) = none := by
    refine Option.filter_eq_none_iff.2 fun limit hmem => ?_
    simpa using hlimit limit hmem
  obtain ⟨hresult, hfurthest⟩ := hdepth options.maxDepth hle options (opening start input)
    (sound_opening grammar start input)
  have hrun : (startRun grammar start input options).1 = .ok outcome :=
    hresult.trans (Answer.result_ok hv)
  have hfurthest : (startRun grammar start input options).2.furthest? =
      Failure.mergeOption none (Failure.join answer.raised) := hfurthest
  rw [parseWithCache_result hfilter, hrun, hfurthest, Failure.mergeOption_none_left]
  rfl

theorem parse_yields {cache : Cache} {result : ParseResult}
    (h : (parseWithCache ⟨grammar, options⟩ start input cache).result = .ok result) :
    ∃ answer outcome, grammar.Yields input (.ruleRef start) 0 answer ∧
      answer.value = .ok outcome ∧
      result = resultOf input start outcome (Failure.join answer.raised) := by
  obtain ⟨limit, he⟩ | hx | ⟨answer, hy, hr⟩ := parse_cases grammar start input options cache
  · cases h.symm.trans he
  · exact absurd hx (h ▸ not_exhausted_ok)
  · rw [h] at hr
    rcases hv : answer.value with name | outcome
    · rw [Answer.result_error hv] at hr
      cases hr
    · rw [Answer.result_ok hv] at hr
      cases hr
      exact ⟨answer, outcome, hy, hv, rfl⟩

theorem yields_of_undefinedRule {cache : Cache} {name : String}
    (h : (parseWithCache ⟨grammar, options⟩ start input cache).result =
      .error (.undefinedRule name)) :
    ∃ answer, grammar.Yields input (.ruleRef start) 0 answer ∧ answer.value = .error name := by
  obtain ⟨limit, he⟩ | ⟨limit, place, he⟩ | ⟨answer, hy, hr⟩ :=
    parse_cases grammar start input options cache
  · cases h.symm.trans he
  · cases h.symm.trans he
  · rw [h] at hr
    rcases hv : answer.value with missing | outcome
    · rw [Answer.result_error hv] at hr
      cases hr
      exact ⟨answer, hy, hv⟩
    · rw [Answer.result_ok hv] at hr
      cases hr

end Parser

end Packrat
