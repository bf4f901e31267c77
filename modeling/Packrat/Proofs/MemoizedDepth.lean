import Packrat.Proofs.DepthBound
import Packrat.Proofs.Memoization

/-!
# Memoization and the depth limit

A use of the cache takes the place of an evaluation, whose own nested evaluations then count no
more. So memoization exhausts no parse that is not exhausted without it, but it may save one that
is: at `maxDepth = 6` an identifier of one atom is matched with memoization only
(`Parser.exhausted_only_plain_identifier`). `Parser.parse_exhausted_iff_memoized` says that this is
all: a parse that memoization saves has the result of plain evaluation with more depth, and where
the depth suffices for every rule at every position there is nothing to save.
-/

set_option autoImplicit false

namespace Packrat

namespace Parser

variable {grammar : Grammar} {start : String} {input : Input} {options : Options} {height : Nat}

theorem exhausted_plain_of_exhausted
    (hx : Exhausted (parse ⟨grammar, { options with memoize := true }⟩ start input).result) :
    Exhausted (parse ⟨grammar, { options with memoize := false }⟩ start input).result := by
  apply Classical.byContradiction
  intro hplain
  have heq := @parse_result_eq grammar start input { options with memoize := false }
    { options with memoize := true } (Nat.le_refl _) (fun h => nomatch h) rfl hplain
  rw [heq] at hx
  exact hplain hx

/-- With depth for every rule at every position, a parse that is exhausted without memoization is
exhausted with it too. -/
theorem exhausted_of_exhausted_plain
    (hheight : ∀ rule ∈ grammar.rules, rule.body.height ≤ height)
    (hdepth : 1 + grammar.size * (input.length + 1) * height ≤ options.maxDepth)
    (hx : Exhausted (parse ⟨grammar, { options with memoize := false }⟩ start input).result) :
    Exhausted (parse ⟨grammar, { options with memoize := true }⟩ start input).result := by
  have hnone := plain?_eq_none_of_exhausted hx
  have hlimit := (exhausted_parse_iff.1 hx).1
  refine exhausted_parse_iff.2 ⟨hlimit, ?_⟩
  apply Classical.byContradiction
  intro hmemo
  obtain ⟨answer, hy, -, -⟩ := Context.evaluate_yields (sound_opening grammar start input) hmemo
  have hsome := Grammar.plain?_mono (hy.at_bound hheight) hdepth
  cases hnone.symm.trans hsome

/-- **Memoization costs no depth, and saves some only where the limit is low.** If no body is higher
than `height`, then of the parses of one input with one depth limit:

* one that is exhausted with memoization is exhausted without it;
* one that is exhausted without it and not with it has, with it, the result of plain evaluation
  given enough depth;
* with at least `1 + grammar.size * (input.length + 1) * height` nested evaluations, they are
  exhausted both or neither. -/
theorem parse_exhausted_iff_memoized (grammar : Grammar) (start : String) (input : Input)
    (options : Options) {height : Nat}
    (hheight : ∀ rule ∈ grammar.rules, rule.body.height ≤ height) :
    let run (memoize : Bool) (depth : Nat) :=
      (parse ⟨grammar, { options with memoize, maxDepth := depth }⟩ start input).result
    ∀ depth,
      (Exhausted (run true depth) → Exhausted (run false depth)) ∧
      (¬ Exhausted (run true depth) → ∃ enough, ∀ d ≥ enough, run false d = run true depth) ∧
      (1 + grammar.size * (input.length + 1) * height ≤ depth →
        (Exhausted (run false depth) ↔ Exhausted (run true depth))) := by
  intro run depth
  have costs (hx : Exhausted (run true depth)) : Exhausted (run false depth) :=
    @exhausted_plain_of_exhausted grammar start input { options with maxDepth := depth } hx
  refine ⟨costs, fun hx => ?_, fun hdepth => ⟨fun hx => ?_, costs⟩⟩
  · obtain ⟨enough, hplain⟩ := exists_plain_result hx
    exact ⟨enough, hplain⟩
  · exact @exhausted_of_exhausted_plain grammar start input { options with maxDepth := depth }
      height hheight hdepth hx

/-- Memoization saves two levels of nesting for an identifier, where the keyword is tried again
inside a lookahead. -/
theorem parse_exhausted_iff_memoized_identifier :
    let run (memoize : Bool) (depth : Nat) :=
      (parse ⟨Sample.identifiers, { memoize, maxDepth := depth }⟩ "statement"
        (.ofString "x")).result
    (∃ enough, ∀ d ≥ enough, run false d = run true 6) ∧
      ∀ d ≥ 33, (Exhausted (run false d) ↔ Exhausted (run true d)) := by
  intro run
  have hheight : ∀ rule ∈ Sample.identifiers.rules, rule.body.height ≤ 4 := by decide
  have h := parse_exhausted_iff_memoized Sample.identifiers "statement" (.ofString "x") {} hheight
  refine ⟨(h 6).2.1 ?_, fun d hd => (h d).2.2 hd⟩
  rintro ⟨limit, place, he⟩
  cases he

/-- **That a parse is exhausted without memoization does not exhaust it with memoization**: an
identifier is matched again at a greater depth, which the cache saves. -/
theorem exhausted_only_plain_identifier :
    let run (memoize : Bool) :=
      (parse ⟨Sample.identifiers, { memoize, maxDepth := 6 }⟩ "statement" (.ofString "x")).result
    ¬ (Exhausted (run false) → Exhausted (run true)) := by
  intro run h
  have hplain : run false = .error (.recursionLimit 6 0) := rfl
  obtain ⟨limit, place, he⟩ := h ⟨6, 0, hplain⟩
  cases he

end Parser

end Packrat
