import Packrat.Proofs.DepthLimit
import Packrat.Proofs.Nesting
import Packrat.Proofs.StartRun
import Packrat.Sample.Grammars

/-!
# How much depth is enough

Between two rules that are entered, one within the other, there are no more nested evaluations than
the body of the outer one is high. So where none is entered again at the same position, there are no
more than `grammar.size * (input.length + 1)` times the height of the highest body, and what has no
answer with that much depth is left recursive (`Grammar.exists_leftRecursive`). Left recursion in
turn has no answer at any depth, whatever is kept in the cache (`Parser.parse_depth_bound`).
-/

set_option autoImplicit false

namespace Packrat

/-! ## Heights -/

mutual

/-- The number of expressions on the longest way down from this one. -/
def Expr.height : Expr → Nat
  | .sequence exprs => maxHeight exprs + 1
  | .choice exprs => maxHeight exprs + 1
  | .zeroOrMore expr => expr.height + 1
  | .oneOrMore expr => expr.height + 1
  | .optional expr => expr.height + 1
  | .followedBy expr => expr.height + 1
  | .notFollowedBy expr => expr.height + 1
  | .literal _ => 1
  | .oneIn _ => 1
  | .any => 1
  | .endOfInput => 1
  | .regex _ => 1
  | .ruleRef _ => 1

/-- The height of the highest of the expressions. -/
def Expr.maxHeight : List Expr → Nat
  | [] => 0
  | expr :: exprs => max expr.height (maxHeight exprs)

end

theorem Expr.height_pos (expr : Expr) : 0 < expr.height := by
  cases expr <;> simp [height]

namespace Grammar

variable {grammar : Grammar} {input : Input} {expr part : Expr} {pos place depth height : Nat}
  {name : String}

theorem Attempts.height_lt (h : grammar.Attempts input expr pos part place)
    (he : ∀ name, expr ≠ .ruleRef name) : part.height < expr.height := by
  induction h with
  | sequence_rest _ _ ih =>
    have := ih (by simp)
    simp only [Expr.height, Expr.maxHeight] at this ⊢
    omega
  | choice_rest _ _ ih =>
    have := ih (by simp)
    simp only [Expr.height, Expr.maxHeight] at this ⊢
    omega
  | zeroOrMore_rest _ _ _ ih => exact ih he
  | oneOrMore_rest _ _ _ ih => exact ih (by simp)
  | ruleRef_body => exact absurd rfl (he _)
  | ruleRef_alternative => exact absurd rfl (he _)
  | _ => simp only [Expr.height, Expr.maxHeight]; omega

theorem Evaluates.height_lt (h : grammar.Evaluates input expr pos part place)
    (he : ∀ name, expr ≠ .ruleRef name) : part.height < expr.height := by
  cases h with
  | attempted h => exact h.height_lt he
  | followedBy => exact Nat.lt_succ_self _
  | notFollowedBy => exact Nat.lt_succ_self _

theorem Evaluates.height_le (hheight : ∀ rule ∈ grammar.rules, rule.body.height ≤ height)
    (h : grammar.Evaluates input (.ruleRef name) pos part place) : part.height ≤ height := by
  cases h with
  | attempted h =>
    cases h with
    | ruleRef_body hr => exact hheight _ (List.mem_of_find?_eq_some hr)
    | ruleRef_alternative hr hbody h =>
      have hlt := h.height_lt (by simp)
      have hle := hheight _ (List.mem_of_find?_eq_some hr)
      rw [hbody] at hle
      omega

/-! ## Descending without an answer -/

/-- With one more of the sites on the stack there is depth left for what the rule evaluates. -/
theorem depth_left {sites stack part : Nat} (hsite : stack + 1 ≤ sites) (hpart : part ≤ height)
    (hdepth : 1 + (sites - stack) * height ≤ depth + 1) :
    part + (sites - (stack + 1)) * height ≤ depth := by
  obtain ⟨left, rfl⟩ := Nat.exists_eq_add_of_le hsite
  rw [show stack + 1 + left - stack = left + 1 by omega, Nat.succ_mul] at hdepth
  rw [Nat.add_sub_cancel_left]
  omega

/-- **What has no answer with enough depth is left recursive.** Within the rules of `stack`, each of
which has been entered before, enough is the height of the expression and, for every rule at every
position that is not on the stack, that of the highest body. -/
theorem exists_leftRecursive_or_mem
    (hheight : ∀ rule ∈ grammar.rules, rule.body.height ≤ height)
    {stack : List CacheKey} (hnodup : stack.Nodup) (hstack : stack ⊆ grammar.sites input)
    (hpos : pos ≤ input.length)
    (hdepth : expr.height + ((grammar.sites input).length - stack.length) * height ≤ depth)
    (hn : grammar.plain? input depth expr pos = none) :
    ∃ key, Relation.ReflTransGen (grammar.Inside input) key.call (expr, pos) ∧
      (key ∈ stack ∨ grammar.LeftRecursive input key) := by
  induction depth generalizing expr pos stack with
  | zero =>
    have := expr.height_pos
    omega
  | succ depth ih =>
    obtain ⟨part, place, hpart, hnone⟩ := exists_unanswered hpos hn
    have hinside : grammar.Inside input (part, place) (expr, pos) := hpart
    have hplace := hpart.within hpos
    rcases expr.ruleRef_or_not with ⟨name, rfl⟩ | he
    · let own : CacheKey := ⟨pos, name⟩
      by_cases hmem : own ∈ stack
      · exact ⟨own, .refl, .inl hmem⟩
      -- one more rule on the stack leaves one less to be entered
      have hnodup' : (own :: stack).Nodup := List.nodup_cons.2 ⟨hmem, hnodup⟩
      have hstack' : own :: stack ⊆ grammar.sites input :=
        List.cons_subset.2 ⟨hpart.mem_sites hpos, hstack⟩
      have hlength := (hnodup'.subperm hstack').length_le
      have hdepth' := depth_left hlength (hpart.height_le hheight) hdepth
      obtain ⟨key, hreach, hkey⟩ := ih hnodup' hstack' hplace hdepth' hnone
      rcases hkey with hkey | hkey
      · rcases List.mem_cons.1 hkey with rfl | hkey
        · exact ⟨own, .refl, .inr (.tail' hreach hinside)⟩
        · exact ⟨key, hreach.tail hinside, .inl hkey⟩
      · exact ⟨key, hreach.tail hinside, .inr hkey⟩
    · have hlt := hpart.height_lt he
      obtain ⟨key, hreach, hkey⟩ := ih hnodup hstack hplace (by omega) hnone
      exact ⟨key, hreach.tail hinside, hkey⟩

theorem exists_leftRecursive (hheight : ∀ rule ∈ grammar.rules, rule.body.height ≤ height)
    {start : String}
    (hn : grammar.plain? input (1 + grammar.size * (input.length + 1) * height) (.ruleRef start) 0 =
      none) :
    ∃ key, Relation.ReflTransGen (grammar.Inside input) key.call (.ruleRef start, 0) ∧
      grammar.LeftRecursive input key := by
  have hdepth : (Expr.ruleRef start).height +
      ((grammar.sites input).length - ([] : List CacheKey).length) * height ≤
        1 + grammar.size * (input.length + 1) * height := by
    rw [length_sites]
    exact Nat.le_refl _
  obtain ⟨key, hreach, hkey⟩ := exists_leftRecursive_or_mem hheight .nil (List.nil_subset _)
    (Nat.zero_le _) hdepth hn
  exact ⟨key, hreach, hkey.resolve_left List.not_mem_nil⟩

theorem Yields.at_bound (hheight : ∀ rule ∈ grammar.rules, rule.body.height ≤ height)
    {start : String} {answer : Answer Outcome}
    (h : grammar.Yields input (.ruleRef start) 0 answer) :
    grammar.plain? input (1 + grammar.size * (input.length + 1) * height) (.ruleRef start) 0 =
      some answer := by
  cases hn : grammar.plain? input (1 + grammar.size * (input.length + 1) * height)
      (.ruleRef start) 0 with
  | none =>
    obtain ⟨key, hreach, hrec⟩ := exists_leftRecursive hheight hn
    exact absurd hrec (h.not_leftRecursive (Nat.zero_le _) hreach)
  | some found => rw [h.unique ⟨_, hn⟩]

end Grammar

/-! ## Parses -/

namespace Parser

variable {grammar : Grammar} {start : String} {input : Input} {options : Options}

theorem exhausted_parse_iff : Exhausted (parse ⟨grammar, options⟩ start input).result ↔
    options.maxInputLength?.filter (· < input.length) = none ∧
      Exhausted (startRun grammar start input options).1 := by
  unfold parse
  cases hlimit : options.maxInputLength?.filter (· < input.length) with
  | some limit =>
    rw [parseWithCache_tooLarge hlimit]
    constructor
    · rintro ⟨limit, place, he⟩
      cases he
    · rintro ⟨h, -⟩
      cases h
  | none =>
    rw [parseWithCache_result hlimit, exhausted_map_iff]
    exact ⟨fun h => ⟨rfl, h⟩, And.right⟩

theorem parse_eq_of_le {d₁ d₂ : Nat} (hd : d₁ ≤ d₂)
    (hx : ¬ Exhausted (parse ⟨grammar, { options with maxDepth := d₁ }⟩ start input).result) :
    parse ⟨grammar, { options with maxDepth := d₂ }⟩ start input =
      parse ⟨grammar, { options with maxDepth := d₁ }⟩ start input := by
  rw [exhausted_parse_iff] at hx
  unfold parse parseWithCache
  cases hlimit : options.maxInputLength?.filter (· < input.length) with
  | some limit => rfl
  | none =>
    have hm : ({ options with maxDepth := d₁ } : Options).memoize =
        ({ options with maxDepth := d₂ } : Options).memoize := rfl
    have hrun := Context.evaluate_refinedBy hm hd (.ruleRef start) 0 (opening start input)
      fun he => hx ⟨hlimit, he⟩
    unfold opening at hrun
    simp only [Context.matchAt, hrun]

theorem plain?_eq_none_of_exhausted
    (hx : Exhausted (parse ⟨grammar, options⟩ start input).result) :
    grammar.plain? input options.maxDepth (.ruleRef start) 0 = none := by
  obtain ⟨-, hx⟩ := exhausted_parse_iff.1 hx
  cases hplain : grammar.plain? input options.maxDepth (.ruleRef start) 0 with
  | none => rfl
  | some answer =>
    let off : Context := ⟨grammar, input, { options with memoize := false }⟩
    have hm : off.options.memoize = false := rfl
    have hrun := (Context.evaluate_returns hm options.maxDepth (.ruleRef start) 0
      (opening start input)).1 answer hplain
    have hoff : ¬ Exhausted (startRun grammar start input off.options).1 := by
      unfold startRun Context.matchAt
      rw [hrun]
      exact answer.not_exhausted
    have hs := sound_opening grammar start input
    have hc : Covers off.options.memoize options.memoize (opening start input)
        (opening start input) := fun h => nomatch h
    exact absurd hx (Context.evaluate_not_exhausted (Nat.le_refl _) _ _ _ _ hs hs hc hoff)

/-- **A depth that is enough.** If no body is higher than `height`, a parse that is not exhausted at
`1 + grammar.size * (input.length + 1) * height` nested evaluations is the same with any more of
them. One that is exhausted there is so with any number of them, because its start rule comes to
left recursion. -/
theorem parse_depth_bound (grammar : Grammar) (start : String) (input : Input) (options : Options)
    {height : Nat} (hheight : ∀ rule ∈ grammar.rules, rule.body.height ≤ height) :
    let bound := 1 + grammar.size * (input.length + 1) * height
    let run (depth : Nat) := parse ⟨grammar, { options with maxDepth := depth }⟩ start input
    (¬ Exhausted (run bound).result → ∀ d ≥ bound, run d = run bound) ∧
    (Exhausted (run bound).result →
      (∀ d, Exhausted (run d).result) ∧
      ∃ key, Relation.ReflTransGen (grammar.Inside input) key.call (.ruleRef start, 0) ∧
        grammar.LeftRecursive input key) := by
  intro bound run
  refine ⟨fun hx d hd => parse_eq_of_le hd hx, fun hx => ?_⟩
  have hn := plain?_eq_none_of_exhausted hx
  obtain ⟨key, hreach, hrec⟩ := Grammar.exists_leftRecursive hheight hn
  refine ⟨fun d => exhausted_parse_iff.2 ⟨(exhausted_parse_iff.1 hx).1, ?_⟩, key, hreach, hrec⟩
  apply Classical.byContradiction
  intro hd
  obtain ⟨answer, hy, -, -⟩ := Context.evaluate_yields (sound_opening grammar start input) hd
  exact hy.not_leftRecursive (Nat.zero_le _) hreach hrec

/-- Six nested evaluations are enough for a word of four atoms, and none are for left recursion. -/
theorem parse_depth_bound_word :
    let word (depth : Nat) := parse ⟨Sample.word, { maxDepth := depth }⟩ "foo" (.ofString "barf")
    let recursive (depth : Nat) :=
      parse ⟨Sample.leftRecursive, { maxDepth := depth }⟩ "expr" (.ofString "1")
    (∀ d ≥ 6, word d = word 6) ∧ ∀ d, Exhausted (recursive d).result := by
  intro word recursive
  have hword : ∀ rule ∈ Sample.word.rules, rule.body.height ≤ 1 := by decide
  have hrecursive : ∀ rule ∈ Sample.leftRecursive.rules, rule.body.height ≤ 3 := by decide
  constructor
  · refine (parse_depth_bound Sample.word "foo" (.ofString "barf") {} hword).1 ?_
    rintro ⟨limit, place, he⟩
    cases he
  · have hbound := parse_depth_bound Sample.leftRecursive "expr" (.ofString "1") {} hrecursive
    exact (hbound.2 ⟨_, _, rfl⟩).1

end Parser

end Packrat
