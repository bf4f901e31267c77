import Packrat.Proofs.CacheTruth
import Packrat.Proofs.Coverage
import Packrat.Proofs.DepthLimit
import Packrat.Proofs.SessionReuse

/-!
# Lookahead is pure

A predicate evaluates its expression as a direct match in the same session would, and leaves no
trace of it but in the cache (`Context.evaluate_predicate`): it matches nothing or fails for one
expectation where it stands, and whatever failures its expression met are forgotten. The outcomes
that it has left in the cache were computed with the diagnosis set aside; a direct match that takes
them from there all the same reports what it would have reported by itself
(`Context.matchExpr_predicate`), as an entry keeps the failures of its rule.
-/

set_option autoImplicit false

namespace Packrat

/-! ## Predicates -/

/-- A predicate on an expression: it holds where the expression matches, or where it does not. -/
def Expr.predicate : (holds : Bool) → Expr → Expr
  | true, expr => .followedBy expr
  | false, expr => .notFollowedBy expr

/-- What a predicate expects where it does not hold. -/
def Expr.demand : (holds : Bool) → Expr → String
  | true, expr => expr.describe
  | false, expr => "not " ++ expr.describe

theorem Session.withoutFurthest_append_furthest (session : Session) :
    session.withoutFurthest.append { furthest? := session.furthest? } = session := by
  simp only [append, withoutFurthest, Failure.mergeOption_none_right, List.append_nil]

namespace Context

variable {context : Context} {expr : Expr} {pos depth : Nat} {session after : Session}

theorem step_predicate (eval : Evaluator) (holds : Bool) :
    context.step eval (expr.predicate holds) pos session =
      match lookahead eval expr pos session with
      | (.error error, session) => (.error error, session)
      | (.ok matched, session) =>
        if matched = holds then session.pass pos else session.fail pos (expr.demand holds) := by
  cases holds with
  | true =>
    simp only [Expr.predicate, step, matchFollowedBy]
    rcases lookahead eval expr pos session with ⟨error | matched, after⟩
    · rfl
    · cases matched <;> rfl
  | false =>
    simp only [Expr.predicate, step, matchNotFollowedBy]
    rcases lookahead eval expr pos session with ⟨error | matched, after⟩
    · rfl
    · cases matched <;> rfl

/-- What is seen with the furthest failure set aside, and with one evaluation less to spare, is what
a direct match returns. -/
theorem evaluate_of_aside {result : Except ParseError Outcome}
    (h : context.evaluate depth expr pos session.withoutFurthest = (result, after))
    (hx : ¬ Exhausted result) : (context.evaluate (depth + 1) expr pos session).1 = result := by
  have hrefined : (context.evaluate depth).RefinedBy (context.evaluate (depth + 1)) :=
    @evaluate_refinedBy context.grammar context.input context.options context.options rfl _ _
      (Nat.le_succ depth)
  have heq := hrefined expr pos session.withoutFurthest (h ▸ hx)
  have hall := context.evaluate_appends (depth + 1) expr pos session.withoutFurthest
    { furthest? := session.furthest? }
  rw [Session.withoutFurthest_append_furthest] at hall
  rw [hall, heq, h]

/-- **A predicate ends in one of three ways**, by what a direct match in the same session returns:
it holds and matches nothing, it fails for its one expectation, or it passes on an error. Of the
failures that its expression met, none is left. -/
theorem evaluate_predicate {holds : Bool} {direct predicate : Result Outcome}
    (hdirect : context.evaluate depth expr pos session = direct)
    (hpredicate : context.evaluate depth (expr.predicate holds) pos session = predicate)
    (hx : ¬ Exhausted predicate.1) :
    let demand := Failure.single pos (expr.demand holds)
    (∃ outcome, direct.1 = .ok outcome ∧ outcome.isSuccess = holds ∧
      predicate.1 = .ok (.nothing pos) ∧ predicate.2.furthest? = session.furthest?) ∨
    (∃ outcome, direct.1 = .ok outcome ∧ outcome.isSuccess ≠ holds ∧
      predicate.1 = .ok (.failure demand) ∧
      predicate.2.furthest? = Failure.mergeOption session.furthest? (some demand)) ∨
    ∃ error, direct.1 = .error error ∧ predicate.1 = .error error ∧
      predicate.2.furthest? = session.furthest? := by
  intro demand
  subst hdirect hpredicate
  cases depth with
  | zero => exact absurd ⟨_, _, rfl⟩ hx
  | succ depth =>
    have hstep : context.evaluate (depth + 1) (expr.predicate holds) pos session = _ :=
      step_predicate (context.evaluate depth) holds
    rcases hrun : context.evaluate depth expr pos session.withoutFurthest with
      ⟨error | outcome, after⟩ <;>
      simp only [lookahead, hrun, Except.map] at hstep
    · rw [hstep] at hx ⊢
      have hdirect := evaluate_of_aside hrun fun h => hx (exhausted_error_iff.1 h)
      exact .inr (.inr ⟨error, hdirect, rfl, rfl⟩)
    · have hdirect := evaluate_of_aside hrun not_exhausted_ok
      by_cases hholds : outcome.isSuccess = holds
      · rw [if_pos hholds] at hstep
        rw [hstep]
        exact .inl ⟨outcome, hdirect, hholds, rfl, rfl⟩
      · rw [if_neg hholds] at hstep
        rw [hstep]
        exact .inr (.inl ⟨outcome, hdirect, hholds, rfl, rfl⟩)

/-! ## Direct matches after a predicate -/

/-- Two matches from caches whose entries keep answers return the same and have met the same
failures, unless one of them is exhausted. -/
theorem evaluate_eq_fresh
    (hs : context.options.memoize = true → session.cache.Truthful context.grammar context.input)
    (hx : ¬ Exhausted (context.evaluate depth expr pos session).1)
    (hfresh : ¬ Exhausted (context.evaluate depth expr pos {}).1) :
    (context.evaluate depth expr pos session).1 = (context.evaluate depth expr pos {}).1 ∧
      (context.evaluate depth expr pos session).2.furthest? =
        Failure.mergeOption session.furthest?
          (context.evaluate depth expr pos {}).2.furthest? := by
  have hempty : context.options.memoize = true →
      ({} : Session).cache.Truthful context.grammar context.input := fun _ =>
    Cache.sound_empty.truthful
  obtain ⟨a, ha, hr, hf⟩ :=
    (context.evaluate_truthful depth expr pos session hs).answered.resolve_left hx
  obtain ⟨b, hb, hr', hf'⟩ :=
    (context.evaluate_truthful depth expr pos {} hempty).answered.resolve_left hfresh
  cases ha.unique hb
  rw [hr, hr', hf, hf', Failure.mergeOption_none_left]
  exact ⟨rfl, rfl⟩

/-- **Predicates are pure lookahead.** In any session, a predicate that is not exhausted holds just
where a direct match of its expression succeeds, or where it fails; then it matches nothing, leaves
no node and no failure. Where it does not hold, it fails at its own position, and this failure is
all that it adds to the furthest one. A direct match afterwards, over the cache that the predicate
leaves, returns what it returns over an empty cache without the predicate, and adds the same
failures; and over a sound cache it is exhausted only if that is. -/
theorem matchExpr_predicate (grammar : Grammar) (input : Input) (options : Options) (expr : Expr)
    (cursor : Cursor input) (session : Session) (holds : Bool) :
    let context : Context := ⟨grammar, input, options⟩
    let direct := context.matchExpr expr cursor session
    let fresh := context.matchExpr expr cursor {}
    let predicate := context.matchExpr (expr.predicate holds) cursor session
    let later := context.matchExpr expr cursor predicate.2
    (¬ Exhausted predicate.1 →
      ((∃ stop node?, predicate.1 = .ok (.success stop node?)) ↔
        ∃ outcome, direct.1 = .ok outcome ∧ outcome.isSuccess = holds) ∧
      ((∃ failure, predicate.1 = .ok (.failure failure)) ↔
        ∃ outcome, direct.1 = .ok outcome ∧ outcome.isSuccess ≠ holds) ∧
      (∀ stop node?, predicate.1 = .ok (.success stop node?) →
        stop = cursor.position ∧ node? = none ∧ predicate.2.furthest? = session.furthest?) ∧
      (∀ failure, predicate.1 = .ok (.failure failure) →
        failure = .single cursor.position (expr.demand holds) ∧
        predicate.2.furthest? = Failure.mergeOption session.furthest? (some failure)) ∧
      ∀ error, predicate.1 = .error error →
        direct.1 = .error error ∧ predicate.2.furthest? = session.furthest?) ∧
    ((options.memoize = true → session.cache.Truthful grammar input) →
      ¬ Exhausted later.1 → ¬ Exhausted fresh.1 →
      later.1 = fresh.1 ∧
        later.2.furthest? =
          Failure.mergeOption predicate.2.furthest? fresh.2.furthest?) ∧
    (session.cache.Sound grammar input → ¬ Exhausted fresh.1 → ¬ Exhausted later.1) := by
  intro context direct fresh predicate later
  refine ⟨fun hx => ?_, fun hs hlater hfresh => ?_, fun hs hfresh => ?_⟩
  · have hdirect : context.matchExpr expr cursor session = direct := rfl
    have hpredicate : context.matchExpr (expr.predicate holds) cursor session = predicate := rfl
    obtain ⟨outcome, hd, hholds, hp, hf⟩ | ⟨outcome, hd, hholds, hp, hf⟩ | ⟨error, hd, hp, hf⟩ :=
      evaluate_predicate hdirect hpredicate hx
    · simp [hp, hd, hholds, hf, Outcome.nothing]
    · simp [hp, hd, hholds, hf]
    · simp [hp, hd, hf]
  · refine evaluate_eq_fresh ?_ hlater hfresh
    exact (context.evaluate_truthful _ _ _ session hs).cache
  · have hsound := (context.evaluate_faithful options.maxDepth (expr.predicate holds)
      cursor.position session hs).sound
    exact evaluate_not_exhausted (Nat.le_refl _) _ _ _ _ Cache.sound_empty hsound
      (covers_of_empty _ _) hfresh

/-- An identifier that begins like a keyword: the predicate finds that there is no keyword, whose
evaluation fails further on than the failure that the session held before, and a match of the
keyword afterwards takes its failure from the cache. -/
theorem matchExpr_predicate_identifier :
    let context : Context := ⟨Sample.identifiers, .ofString "if1", {}⟩
    let keyword := Expr.ruleRef "keyword"
    let session : Session := { furthest? := some (.single 1 "x") }
    let predicate := context.matchExpr (keyword.predicate false) .start session
    let later := context.matchExpr keyword .start predicate.2
    predicate.1 = .ok (.success 0 none) ∧ predicate.2.furthest? = some (.single 1 "x") ∧
    later.2.cache.hits = 1 ∧
    later.1 = .ok (.failure (.single 2 "not identifier character")) ∧
    later.2.furthest? = some (.single 2 "not identifier character") := by
  intro context keyword session predicate later
  obtain ⟨hpredicate, hlater, hsound⟩ := matchExpr_predicate Sample.identifiers (.ofString "if1")
    {} keyword .start session false
  have hp : predicate.1 = .ok (.success 0 none) := rfl
  obtain ⟨-, -, hholds, -, -⟩ := hpredicate (hp ▸ not_exhausted_ok)
  have hfresh : (context.matchExpr keyword .start {}).1 =
      .ok (.failure (.single 2 "not identifier character")) := rfl
  have hfresh' : ¬ Exhausted (context.matchExpr keyword .start {}).1 := hfresh ▸ not_exhausted_ok
  obtain ⟨hsame, hmerged⟩ := hlater (fun _ => Cache.sound_empty.truthful)
    (hsound Cache.sound_empty hfresh') hfresh'
  obtain ⟨-, -, hf⟩ := hholds 0 none hp
  refine ⟨hp, hf, by decide +kernel, hsame.trans hfresh, ?_⟩
  rw [hmerged, hf]
  rfl

end Context

end Packrat
