import Packrat.Proofs.Bounds
import Packrat.Proofs.DepthLimit

/-!
# Repetitions

A repetition goes on in rounds. `Evaluator.Repeats` follows them: each begins where the one before
has stopped, in the session that it has left, and the last is the first that fails or consumes
nothing.

* A repetition has just these rounds, and never runs out of attempts (`Script.run_repetition`).
* One that asks for a first match has the same rounds and differs in that match alone
  (`Context.evaluate_oneOrMore`).
* Both are compared with a direct match in `Context.matchExpr_repetition`.
-/

set_option autoImplicit false

namespace Packrat

/-- The expression matches again and again from a position, with one node for each round that
consumes something, up to the first place where it fails or consumes nothing. -/
inductive Evaluator.Repeats (eval : Evaluator) (expr : Expr) :
    (pos : Nat) → Session → (nodes : List Node) → (last : Nat) → Session → Prop
  | failed {pos : Nat} {session after : Session} {failure : Failure}
      (h : eval expr pos session = (.ok (.failure failure), after)) :
      Repeats eval expr pos session [] pos after
  | empty {pos : Nat} {session after : Session} {node? : Option Node}
      (h : eval expr pos session = (.ok (.success pos node?), after)) :
      Repeats eval expr pos session [] pos after
  | consumed {pos last : Nat} {session later after : Session} {node : Node} {nodes : List Node}
      (h : eval expr pos session = (.ok (.success node.stop (some node)), later))
      (hstart : node.start = pos) (hlt : pos < node.stop)
      (rest : Repeats eval expr node.stop later nodes last after) :
      Repeats eval expr pos session (node :: nodes) last after

namespace Evaluator.Repeats

variable {eval eval' : Evaluator} {expr : Expr} {pos last : Nat} {session after : Session}
  {nodes : List Node}

theorem refinedBy (h : eval.Repeats expr pos session nodes last after)
    (hrefined : eval.RefinedBy eval') : eval'.Repeats expr pos session nodes last after := by
  have same {pos : Nat} {session after : Session} {outcome : Outcome}
      (h : eval expr pos session = (.ok outcome, after)) :
      eval' expr pos session = (.ok outcome, after) :=
    (hrefined expr pos session (h ▸ not_exhausted_ok)).trans h
  induction h with
  | failed h => exact .failed (same h)
  | empty h => exact .empty (same h)
  | consumed h hstart hlt _ ih => exact .consumed (same h) hstart hlt ih

theorem nonempty (h : eval.Repeats expr pos session nodes last after) :
    ∀ node ∈ nodes, node.start < node.stop := by
  induction h with
  | failed h => exact nofun
  | empty h => exact nofun
  | consumed h hstart hlt _ ih => exact List.forall_mem_cons.2 ⟨hstart ▸ hlt, ih⟩

theorem add_length_le (h : eval.Repeats expr pos session nodes last after) :
    pos + nodes.length ≤ last := by
  induction h with
  | failed h => exact Nat.le_refl _
  | empty h => exact Nat.le_refl _
  | consumed h hstart hlt _ ih =>
    rw [List.length_cons]
    omega

theorem le_of_mem (h : eval.Repeats expr pos session nodes last after) :
    ∀ place ∈ nodes.map Node.start ++ [last], pos ≤ place := by
  induction h with
  | failed h => simp
  | empty h => simp
  | consumed h hstart hlt _ ih =>
    rw [List.map_cons, List.cons_append, List.forall_mem_cons]
    refine ⟨Nat.le_of_eq hstart.symm, fun place hmem => ?_⟩
    have hle := ih place hmem
    omega

theorem ascending (h : eval.Repeats expr pos session nodes last after) :
    (nodes.map Node.start ++ [last]).Pairwise (· < ·) := by
  induction h with
  | failed h => exact List.pairwise_singleton _ _
  | empty h => exact List.pairwise_singleton _ _
  | consumed h hstart hlt rest ih =>
    rw [List.map_cons, List.cons_append, List.pairwise_cons]
    refine ⟨fun place hmem => ?_, ih⟩
    have hle := rest.le_of_mem place hmem
    omega

end Evaluator.Repeats

/-- Success of a repetition. -/
def Outcome.repetition (start stop : Nat) (children : List Node) : Outcome :=
  .success stop (some { label := .repetition, start, stop, children })

/-! ## Runs of repetitions -/

namespace Script

variable {grammar : Grammar} {input : Input} {memoize : Bool} {eval : Evaluator}
  (htruthful : eval.IsTruthful grammar input memoize) {expr : Expr} {pos : Nat} {session : Session}
  (hpos : pos ≤ input.length) (hs : memoize = true → session.cache.Truthful grammar input)
include htruthful hpos hs

theorem consumed_of_ne {stop : Nat} {node? : Option Node} {after : Session}
    (hrun : eval expr pos session = (.ok (.success stop node?), after)) (hne : stop ≠ pos) :
    (∃ node, node? = some node ∧ node.start = pos ∧ node.stop = stop) ∧ pos < stop ∧
      stop ≤ input.length ∧ (memoize = true → after.cache.Truthful grammar input) := by
  obtain ⟨⟨answer, hy, hv⟩, hs⟩ := htruthful.of_ok hs hrun
  have hspans := hy.spans hpos hv
  obtain ⟨hle, hstop⟩ := hspans.le
  refine ⟨?_, by omega, hstop, hs⟩
  cases node? with
  | none => exact absurd hspans.1 hne
  | some node => exact ⟨node, rfl, hspans.1, hspans.2.1⟩

/-- **A repetition is its rounds**, or it ends with the error of one. There are attempts enough, as
each round but the last takes one atom at least. -/
theorem run_repetition {attempts : Nat} (ha : input.length < pos + attempts) (start : Nat)
    (children : List Node) :
    let run := (ofRepetition input expr start attempts pos children).run eval session
    (∃ error, run.1 = .error error) ∨
      ∃ nodes last, eval.Repeats expr pos session nodes last run.2 ∧ last ≤ input.length ∧
        run.1 = .ok (.repetition start last (children.reverse ++ nodes)) := by
  -- each attempt either is the last one or moves on, so there are enough of them for the rest too
  induction attempts generalizing pos session children with
  | zero => omega
  | succ attempts ih =>
    rcases hrun : eval expr pos session with ⟨error | ⟨stop, node?⟩ | failure, after⟩
    · simp only [ofRepetition, run_call_error hrun]
      exact .inl ⟨error, rfl⟩
    · simp only [ofRepetition, run_call_ok hrun]
      split
      · next hstop =>
        subst hstop
        refine .inr ⟨[], stop, .empty hrun, hpos, ?_⟩
        rw [List.append_nil]
        rfl
      · next hne =>
        obtain ⟨⟨node, rfl, hstart, rfl⟩, hlt, hstop, hs⟩ :=
          consumed_of_ne htruthful hpos hs hrun hne
        rw [Input.clamp_of_le hstop]
        obtain herror | ⟨nodes, last, hrest, hlast, hvalue⟩ :=
          ih hstop hs (by omega) (node :: children)
        · exact .inl herror
        · refine .inr ⟨node :: nodes, last, .consumed hrun hstart hlt hrest, hlast, ?_⟩
          rw [List.reverse_cons, List.append_assoc] at hvalue
          exact hvalue
    · simp only [ofRepetition, run_call_ok hrun]
      refine .inr ⟨[], pos, .failed hrun, hpos, ?_⟩
      rw [List.append_nil]
      rfl

/-- More attempts than enough make no difference. -/
theorem run_repetition_congr {attempts attempts' : Nat} (ha : input.length < pos + attempts)
    (ha' : input.length < pos + attempts') (start : Nat) (children : List Node) :
    (ofRepetition input expr start attempts pos children).run eval session =
      (ofRepetition input expr start attempts' pos children).run eval session := by
  induction attempts generalizing attempts' pos session children with
  | zero => omega
  | succ attempts ih =>
    obtain ⟨attempts', rfl⟩ : ∃ n, attempts' = n + 1 := ⟨attempts' - 1, by omega⟩
    rcases hrun : eval expr pos session with ⟨error | ⟨stop, node?⟩ | failure, after⟩
    · simp only [ofRepetition, run_call_error hrun]
    · simp only [ofRepetition, run_call_ok hrun]
      split
      · rfl
      · next hne =>
        obtain ⟨-, hlt, hstop, hs⟩ := consumed_of_ne htruthful hpos hs hrun hne
        rw [Input.clamp_of_le hstop]
        exact ih hstop hs (by omega) (by omega) _
    · simp only [ofRepetition, run_call_ok hrun]

end Script

namespace Context

section
variable {context : Context} {depth : Nat} {expr : Expr} {pos : Nat} {session : Session}
  (hpos : pos ≤ context.input.length)
  (hs : context.options.memoize = true → session.cache.Truthful context.grammar context.input)
include hpos hs

theorem repeats_of_zeroOrMore :
    let star := context.evaluate (depth + 1) (.zeroOrMore expr) pos session
    (∃ error, star.1 = .error error) ∨
      ∃ nodes last, (context.evaluate depth).Repeats expr pos session nodes last star.2 ∧
        last ≤ context.input.length ∧ star.1 = .ok (.repetition pos last nodes) := by
  intro star
  have hstar : star = (Script.ofRepetition context.input expr pos
      (context.input.length - pos + 1) pos []).run (context.evaluate depth) session :=
    step_eq_run context _ (by simp) pos session
  rw [hstar]
  exact Script.run_repetition (context.evaluate_truthful depth) hpos hs (by omega) pos []

/-- **A repetition that asks for a first match** evaluates what one that does not would, and leaves
the same session. It differs in the first match: it fails with it, and keeps the node of an empty
one. -/
theorem evaluate_oneOrMore :
    let first := context.evaluate depth expr pos session
    let star := context.evaluate (depth + 1) (.zeroOrMore expr) pos session
    let plus := context.evaluate (depth + 1) (.oneOrMore expr) pos session
    plus.2 = star.2 ∧
    ((∃ error, first.1 = .error error ∧ star.1 = .error error ∧ plus.1 = .error error) ∨
    (∃ failure, first.1 = .ok (.failure failure) ∧ star.1 = .ok (.repetition pos pos []) ∧
      plus.1 = .ok (.failure failure)) ∨
    (∃ node?, first.1 = .ok (.success pos node?) ∧ star.1 = .ok (.repetition pos pos []) ∧
      plus.1 = .ok (.repetition pos pos node?.toList)) ∨
    ∃ stop node?, first.1 = .ok (.success stop node?) ∧ stop ≠ pos ∧ plus.1 = star.1) := by
  intro first star plus
  have hstar : star = (Script.ofExpr context.input (.zeroOrMore expr) pos).run
      (context.evaluate depth) session := step_eq_run context _ (by simp) pos session
  have hplus : plus = (Script.ofExpr context.input (.oneOrMore expr) pos).run
      (context.evaluate depth) session := step_eq_run context _ (by simp) pos session
  simp only [Script.ofExpr] at hstar hplus
  rw [Script.ofRepetition] at hstar
  rcases hrun : context.evaluate depth expr pos session with
    ⟨error | ⟨stop, node?⟩ | failure, after⟩
  all_goals have hfirst := congrArg Prod.fst hrun
  · rw [Script.run_call_error hrun] at hstar hplus
    rw [hstar, hplus]
    exact ⟨rfl, .inl ⟨error, hfirst, rfl, rfl⟩⟩
  · rw [Script.run_call_ok hrun] at hstar hplus
    by_cases hstop : stop = pos
    · subst hstop
      simp only [if_true] at hstar hplus
      rw [hstar, hplus]
      refine ⟨rfl, .inr (.inr (.inl ⟨node?, hfirst, rfl, ?_⟩))⟩
      cases node? <;> rfl
    · -- from here on the two differ only in the attempts that are left
      simp only [if_neg hstop] at hstar hplus
      obtain ⟨-, hlt, hle, hs⟩ :=
        Script.consumed_of_ne (context.evaluate_truthful depth) hpos hs hrun hstop
      have hsame : plus = star := by
        rw [hstar, hplus, Input.clamp_of_le hle, List.append_nil]
        refine Script.run_repetition_congr (context.evaluate_truthful depth) hle hs ?_ ?_ pos
          node?.toList <;> omega
      rw [hsame]
      exact ⟨rfl, .inr (.inr (.inr ⟨stop, node?, hfirst, hstop, rfl⟩))⟩
  · rw [Script.run_call_ok hrun] at hstar hplus
    rw [hstar, hplus]
    exact ⟨rfl, .inr (.inl ⟨failure, hfirst, rfl, rfl⟩)⟩

end

/-- **The law of repetitions.** A repetition that ends with no error has matched its expression at
ascending positions, at most once for each atom left and once more. It stops at the first of them
where the expression fails or matches nothing, with one node, not empty, for each round before. One
that asks for a first match leaves the same session and succeeds if and only if a direct match does.
It then stops at the same place with the same nodes, but keeps the node of a first match that is
empty; and where a direct match fails, it fails in the same way. -/
theorem matchExpr_repetition (grammar : Grammar) (input : Input) (options : Options) (expr : Expr)
    (cursor : Cursor input) (session : Session)
    (hs : options.memoize = true → session.cache.Truthful grammar input) :
    let context : Context := ⟨grammar, input, options⟩
    let pos := cursor.position
    let direct := context.matchExpr expr cursor session
    let star := context.matchExpr (.zeroOrMore expr) cursor session
    let plus := context.matchExpr (.oneOrMore expr) cursor session
    plus.2 = star.2 ∧ (∀ error, plus.1 = .error error ↔ star.1 = .error error) ∧
    ((∃ error, star.1 = .error error) ∨
      ∃ nodes last,
        star.1 = .ok (.repetition pos last nodes) ∧
        Evaluator.Repeats context.matchAt expr pos session nodes last star.2 ∧
        (nodes.map Node.start ++ [last]).Pairwise (· < ·) ∧
        nodes.length + 1 ≤ input.length - pos + 1 ∧
        (∀ node ∈ nodes, node.start < node.stop) ∧
        ((∃ stop node?, plus.1 = .ok (.success stop node?)) ↔
          ∃ stop node?, direct.1 = .ok (.success stop node?)) ∧
        (∀ stop node?, direct.1 = .ok (.success stop node?) →
          plus.1 = .ok (.repetition pos last (if stop = pos then node?.toList else nodes))) ∧
        ∀ failure, direct.1 = .ok (.failure failure) → plus.1 = .ok (.failure failure)) := by
  intro context pos direct star plus
  cases hdepth : options.maxDepth with
  | zero =>
    -- without depth neither repetition is evaluated
    have hnone (expr : Expr) : context.matchExpr expr cursor session =
        (.error (.recursionLimit options.maxDepth pos), session) := by
      simp only [matchExpr, matchAt, context, hdepth, evaluate, pos]
    have hstar : star = _ := hnone (.zeroOrMore expr)
    have hplus : plus = _ := hnone (.oneOrMore expr)
    rw [hstar, hplus]
    exact ⟨rfl, fun error => Iff.rfl, .inl ⟨_, rfl⟩⟩
  | succ depth =>
    have hmatch : context.matchAt = context.evaluate (depth + 1) := by
      funext expr pos session
      simp only [matchAt, context, hdepth]
    have hrefined : (context.evaluate depth).RefinedBy context.matchAt := by
      rw [hmatch]
      exact evaluate_refinedBy rfl (Nat.le_succ depth)
    have hpos : pos ≤ context.input.length := cursor.le_length
    have hrounds := @repeats_of_zeroOrMore context depth expr pos session hpos hs
    obtain ⟨hsession, hends⟩ := @evaluate_oneOrMore context depth expr pos session hpos hs
    rw [← hmatch] at hrounds hsession hends
    -- a direct match has one evaluation more to spare than the first round
    have hdirect {outcome : Outcome}
        (h : (context.evaluate depth expr pos session).1 = .ok outcome) :
        direct.1 = .ok outcome := by
      have hsame := hrefined expr pos session (h ▸ not_exhausted_ok)
      exact (congrArg Prod.fst hsame).trans h
    have hstar : star = context.matchAt (.zeroOrMore expr) pos session := rfl
    have hplus : plus = context.matchAt (.oneOrMore expr) pos session := rfl
    rw [← hstar] at hrounds
    rw [← hstar, ← hplus] at hsession hends
    refine ⟨hsession, fun error => ?_, hrounds.imp_right ?_⟩
    · obtain ⟨_, -, hs, hp⟩ | ⟨_, -, hs, hp⟩ | ⟨_, -, hs, hp⟩ | ⟨_, _, -, -, hp⟩ := hends
      · rw [hs, hp]
      · simp [hs, hp]
      · simp [hs, hp]
      · rw [hp]
    · rintro ⟨nodes, last, hrepeats, hlast, hvalue⟩
      have hrepeats := hrepeats.refinedBy hrefined
      have hbound := hrepeats.add_length_le
      have hlast : last ≤ input.length := hlast
      refine ⟨nodes, last, hvalue, hrepeats, hrepeats.ascending, by omega, hrepeats.nonempty, ?_⟩
      obtain ⟨error, -, hs, -⟩ | ⟨failure, hfirst, -, hp⟩ | ⟨node?, hfirst, hs, hp⟩ |
        ⟨stop, node?, hfirst, hne, hp⟩ := hends
      · cases hs.symm.trans hvalue
      · simp [hp, hdirect hfirst]
      · have hend := hs.symm.trans hvalue
        simp only [Outcome.repetition, Except.ok.injEq, Outcome.success.injEq] at hend
        obtain ⟨rfl, -⟩ := hend
        simp [hp, hdirect hfirst, Outcome.repetition]
      · simp [hp, hvalue, hdirect hfirst, Outcome.repetition, hne]

/-- Commas in a repetition of their own. Two of them are one round, after which the next is
empty; where there are none the first round is empty, and its node is kept if a first match is asked
for. -/
theorem matchExpr_repetition_commas :
    let comma (start : Nat) : Node := { label := .terminal, start, stop := start + 1 }
    let round : Node :=
      { label := .repetition, start := 0, stop := 2, children := [comma 0, comma 1] }
    let nothing : Node := { label := .repetition, start := 2, stop := 2 }
    let run (expr : Expr) (cursor : Cursor (.ofString ",,a")) :=
      (Context.matchExpr ⟨Sample.identifiers, .ofString ",,a", {}⟩ expr cursor {}).1
    let commas := Expr.zeroOrMore (.literal ",")
    let afterCommas : Cursor (.ofString ",,a") := ⟨2, by decide⟩
    run (.zeroOrMore commas) .start = .ok (.repetition 0 2 [round]) ∧
      run (.oneOrMore commas) .start = .ok (.repetition 0 2 [round]) ∧
      run (.zeroOrMore commas) afterCommas = .ok (.repetition 2 2 []) ∧
      run (.oneOrMore commas) afterCommas = .ok (.repetition 2 2 [nothing]) := by
  intro comma round nothing run commas afterCommas
  have hs : ({} : Options).memoize = true →
      ({} : Cache).Truthful Sample.identifiers (.ofString ",,a") := fun _ =>
    Cache.sound_empty.truthful
  have hstar : run (.zeroOrMore commas) .start = .ok (.repetition 0 2 [round]) := rfl
  have hdirect : run commas .start = .ok (.success 2 (some round)) := rfl
  have hstar' : run (.zeroOrMore commas) afterCommas = .ok (.repetition 2 2 []) := rfl
  have hdirect' : run commas afterCommas = .ok (.success 2 (some nothing)) := rfl
  refine ⟨hstar, ?_, hstar', ?_⟩
  · obtain ⟨-, -, ⟨error, he⟩ | ⟨nodes, last, hvalue, -, -, -, -, -, hplus, -⟩⟩ :=
      matchExpr_repetition Sample.identifiers (.ofString ",,a") {} commas .start {} hs
    · cases hstar.symm.trans he
    · cases hstar.symm.trans hvalue
      exact hplus 2 _ hdirect
  · obtain ⟨-, -, ⟨error, he⟩ | ⟨nodes, last, hvalue, -, -, -, -, -, hplus, -⟩⟩ :=
      matchExpr_repetition Sample.identifiers (.ofString ",,a") {} commas afterCommas {} hs
    · cases hstar'.symm.trans he
    · cases hstar'.symm.trans hvalue
      exact hplus 2 _ hdirect'

end Context

end Packrat
