import Packrat.Proofs.StartRun
import Packrat.Sample.Grammars

/-!
# Memoization changes no parse

`Parser.parse_memoized`: what a parse without memoization returns, an error of depth apart, a parse
with memoization returns under the same depth limit; and the other way round given enough depth.
-/

set_option autoImplicit false

namespace Packrat

namespace Parser

variable {grammar : Grammar} {start : String} {input : Input}

/-- Of two parses, the second with no less depth and with memoization if the first has it, the
second returns what the first returns, unless that is exhausted. -/
theorem parse_result_eq {o₁ o₂ : Options} (hd : o₁.maxDepth ≤ o₂.maxDepth)
    (hm : o₁.memoize = true → o₂.memoize = true) (hl : o₁.maxInputLength? = o₂.maxInputLength?)
    (hx : ¬ Exhausted (parse ⟨grammar, o₁⟩ start input).result) :
    (parse ⟨grammar, o₂⟩ start input).result = (parse ⟨grammar, o₁⟩ start input).result := by
  unfold parse at hx ⊢
  cases hlimit : o₁.maxInputLength?.filter (· < input.length) with
  | some limit =>
    rw [parseWithCache_tooLarge hlimit, parseWithCache_tooLarge (hl ▸ hlimit)]
  | none =>
    rw [parseWithCache_result hlimit] at hx ⊢
    rw [parseWithCache_result (hl ▸ hlimit)]
    have hx : ¬ Exhausted (startRun grammar start input o₁).1 := mt exhausted_map_iff.2 hx
    have hs := sound_opening grammar start input
    have hc : Covers o₁.memoize o₂.memoize (opening start input) (opening start input) :=
      fun h => ⟨hm h, fun _ hkey => hkey⟩
    obtain ⟨hr, hf⟩ := Context.evaluate_eq_of_not_exhausted hd hs hs hc rfl hx
    unfold startRun Context.matchAt
    rw [hr, hf]

theorem exists_plain_result {o : Options}
    (hx : ¬ Exhausted (parse ⟨grammar, o⟩ start input).result) :
    ∃ depth, ∀ d ≥ depth,
      (parse ⟨grammar, { o with memoize := false, maxDepth := d }⟩ start input).result =
        (parse ⟨grammar, o⟩ start input).result := by
  unfold parse at hx ⊢
  cases hlimit : o.maxInputLength?.filter (· < input.length) with
  | some limit =>
    refine ⟨0, fun d _ => ?_⟩
    have hlimit' : ({ o with memoize := false, maxDepth := d } : Options).maxInputLength?.filter
        (· < input.length) = some limit := hlimit
    rw [parseWithCache_tooLarge hlimit, parseWithCache_tooLarge hlimit']
  | none =>
    rw [parseWithCache_result hlimit] at hx
    have hx : ¬ Exhausted (startRun grammar start input o).1 := mt exhausted_map_iff.2 hx
    have hs := sound_opening grammar start input
    obtain ⟨answer, hy, hr, hf⟩ := Context.evaluate_yields hs hx
    obtain ⟨depth, hplain⟩ := Context.evaluate_of_yields hy
    refine ⟨depth, fun d hd => ?_⟩
    obtain ⟨hr', hf'⟩ := hplain d hd { o with memoize := false, maxDepth := d } _ hs
    have hlimit' : ({ o with memoize := false, maxDepth := d } : Options).maxInputLength?.filter
        (· < input.length) = none := hlimit
    rw [parseWithCache_result hlimit, parseWithCache_result hlimit']
    unfold startRun Context.matchAt at *
    rw [hr, hf, hr', hf']

theorem exists_plain_parse {o : Options} {result : ParseResult}
    (h : (parse ⟨grammar, o⟩ start input).result = .ok result) :
    ∃ depth, ∀ d ≥ depth,
      (parse ⟨grammar, { o with memoize := false, maxDepth := d }⟩ start input).result =
        .ok result := by
  rw [← h]
  exact exists_plain_result (h ▸ not_exhausted_ok)

/-- **Memoization changes no parse**: a result or an undefined rule that plain evaluation ends with
is what a memoized parse ends with at the same depth, and a result of a memoized parse is that of
plain evaluation, given enough depth. -/
theorem parse_memoized (grammar : Grammar) (start : String) (input : Input) (options : Options) :
    let plain (depth : Nat) :=
      (parse ⟨grammar, { options with memoize := false, maxDepth := depth }⟩ start input).result
    let memoized := (parse ⟨grammar, { options with memoize := true }⟩ start input).result
    (∀ result, plain options.maxDepth = .ok result → memoized = .ok result) ∧
    (∀ name, plain options.maxDepth = .error (.undefinedRule name) →
      memoized = .error (.undefinedRule name)) ∧
    (∀ result, memoized = .ok result → ∃ depth, ∀ d ≥ depth, plain d = .ok result) := by
  intro plain memoized
  have agree (hx : ¬ Exhausted (plain options.maxDepth)) : memoized = plain options.maxDepth :=
    parse_result_eq (Nat.le_refl _) (fun _ => rfl) rfl hx
  refine ⟨fun result h => ?_, fun name h => ?_, fun result h => ?_⟩
  · rw [agree (h ▸ not_exhausted_ok), h]
  · rw [agree ?_, h]
    rintro ⟨limit, place, he⟩
    cases h.symm.trans he
  · exact @exists_plain_parse grammar start input { options with memoize := true } result h

/-- The keyword is tried twice at the start of an identifier, once inside a lookahead. -/
theorem parse_memoized_identifier :
    (parse ⟨Sample.identifiers, {}⟩ "statement" (.ofString "if1")).result =
      .ok (.complete ⟨.rule "statement", 0, 3,
        [⟨.rule "ident", 0, 3,
          [⟨.sequence, 0, 3,
            [⟨.terminal, 0, 1, [], none⟩,
             ⟨.repetition, 1, 3, [⟨.terminal, 1, 2, [], none⟩, ⟨.terminal, 2, 3, [], none⟩],
               none⟩],
            none⟩],
          none⟩],
        some 1⟩) :=
  (parse_memoized Sample.identifiers "statement" (.ofString "if1") {}).1 _ rfl

end Parser

end Packrat
