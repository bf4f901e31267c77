import Packrat.Proofs.Lockstep
import Packrat.Proofs.Plain
import Packrat.Sample.Grammars

/-!
# The depth limit

How many evaluations may be nested decides whether an evaluation is exhausted, and nothing else.
`eval₁.RefinedBy eval₂` says that the second evaluator differs from the first only where the first
is exhausted. Evaluation with more depth refines evaluation with less
(`Context.evaluate_refinedBy`), whatever the cache holds: the two runs go through the same sessions
until one of them is exhausted.
-/

set_option autoImplicit false

namespace Packrat

/-- Unless the first evaluator is exhausted, the second returns the same and leaves the same
session. -/
def Evaluator.RefinedBy (eval₁ eval₂ : Evaluator) : Prop :=
  ∀ expr pos session, ¬ Exhausted (eval₁ expr pos session).1 →
    eval₂ expr pos session = eval₁ expr pos session

/-- The depth is exhausted. -/
def ParseError.IsRecursionLimit (error : ParseError) : Prop :=
  ∃ limit pos, error = .recursionLimit limit pos

theorem excused_recursionLimit_iff {α : Type} {result : Except ParseError α} :
    Excused ParseError.IsRecursionLimit result ↔ Exhausted result := by
  constructor
  · rintro ⟨error, he, limit, pos, rfl⟩
    exact ⟨limit, pos, he⟩
  · rintro ⟨limit, pos, he⟩
    exact ⟨_, he, limit, pos, rfl⟩

theorem Evaluator.refinedBy_iff_agreesUnless {eval₁ eval₂ : Evaluator} :
    eval₁.RefinedBy eval₂ ↔ eval₁.AgreesUnless ParseError.IsRecursionLimit eval₂ := by
  simp only [RefinedBy, AgreesUnless, excused_recursionLimit_iff]

namespace Context

variable {grammar : Grammar} {input : Input} {o₁ o₂ : Options}

theorem evaluate_refinedBy (hm : o₁.memoize = o₂.memoize) {d₁ d₂ : Nat} (hd : d₁ ≤ d₂) :
    (evaluate ⟨grammar, input, o₁⟩ d₁).RefinedBy (evaluate ⟨grammar, input, o₂⟩ d₂) := by
  rw [Evaluator.refinedBy_iff_agreesUnless]
  induction d₁ generalizing d₂ with
  | zero =>
    intro expr pos session hx
    exact absurd ⟨_, rfl, _, _, rfl⟩ hx
  | succ d₁ ih =>
    obtain ⟨d₂, rfl⟩ : ∃ d, d₂ = d + 1 := ⟨d₂ - 1, by omega⟩
    have hd : d₁ ≤ d₂ := by omega
    exact step_agreesUnless (ih hd) hm fun _ => .inl rfl

/-- **The depth limit is all or nothing.** A match that is not exhausted returns the same with any
higher limit and leaves the same session, with its furthest failure, its log and the entries and
counts of its cache; and one that is exhausted is so with any lower limit. This holds from every
session, also over a cache that holds anything. -/
theorem matchExpr_maxDepth_mono (grammar : Grammar) (input : Input) (options : Options)
    (expr : Expr) (cursor : Cursor input) (session : Session) :
    let run (depth : Nat) :=
      matchExpr ⟨grammar, input, { options with maxDepth := depth }⟩ expr cursor session
    ∀ depth,
      (¬ Exhausted (run depth).1 → ∀ d ≥ depth, run d = run depth) ∧
      (Exhausted (run depth).1 → ∀ d ≤ depth, Exhausted (run d).1) := by
  intro run depth
  have refined (d₁ d₂ : Nat) (hd : d₁ ≤ d₂) (hx : ¬ Exhausted (run d₁).1) : run d₂ = run d₁ := by
    have hm : ({ options with maxDepth := d₁ } : Options).memoize =
        ({ options with maxDepth := d₂ } : Options).memoize := rfl
    exact evaluate_refinedBy hm hd expr cursor.position session hx
  refine ⟨fun hx d hd => refined depth d hd hx, fun hx d hd => ?_⟩
  apply Classical.byContradiction
  intro hd'
  rw [refined d depth hd hd'] at hx
  exact hd' hx

/-- Four nested evaluations are enough for the keyword, and three are not. -/
theorem matchExpr_maxDepth_mono_keyword :
    let run (depth : Nat) :=
      matchExpr ⟨Sample.identifiers, .ofString "if ", { maxDepth := depth }⟩ (.ruleRef "keyword")
        .start {}
    (∀ d ≥ 4, run d = run 4) ∧ ∀ d ≤ 3, Exhausted (run d).1 := by
  intro run
  have h := matchExpr_maxDepth_mono Sample.identifiers (.ofString "if ") {} (.ruleRef "keyword")
    .start {}
  refine ⟨(h 4).1 ?_, (h 3).2 ⟨_, _, rfl⟩⟩
  rintro ⟨limit, place, he⟩
  cases he

end Context

end Packrat
