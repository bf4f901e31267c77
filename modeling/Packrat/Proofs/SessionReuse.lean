import Packrat.Proofs.FailureMerge
import Packrat.Proofs.Script
import Packrat.Sample.Grammars

/-!
# Sessions used again

An evaluation reads nothing of its session but the cache, and adds to the rest: whatever it ends
with, it is the evaluation of a new session over the same cache, put after what the session held
before (`Evaluator.Appends`). Scripts keep this (`Script.run_append`), and so do calls of rules,
which set the furthest failure aside and merge it in again, also on the way out of an error. So a
session that has met an error is as good as a new one, and it has forgotten nothing
(`Context.matchExpr_reuse`).
-/

set_option autoImplicit false

namespace Packrat

/-! ## One session after another -/

/-- The session after an earlier one, in which it went on. -/
def Session.append (session earlier : Session) : Session where
  cache := session.cache
  furthest? := Failure.mergeOption earlier.furthest? session.furthest?
  log := session.log ++ earlier.log

/-- The evaluator adds to what a session holds besides its cache and does not depend on it. -/
def Evaluator.Appends (eval : Evaluator) : Prop :=
  ∀ expr pos (session earlier : Session), eval expr pos (session.append earlier) =
    ((eval expr pos session).1, (eval expr pos session).2.append earlier)

namespace Session

theorem append_new (session : Session) :
    ({ cache := session.cache } : Session).append session = session := by
  simp only [append, Failure.mergeOption_none_right, List.nil_append]

theorem note_append (session earlier : Session) (failure? : Option Failure) :
    (session.append earlier).note failure? = (session.note failure?).append earlier := by
  simp only [append, note, Failure.mergeOption_assoc]

theorem withoutFurthest_append (session earlier : Session) :
    (session.append earlier).withoutFurthest =
      session.withoutFurthest.append earlier.withoutFurthest := rfl

/-- What is set aside before a session is merged in after it. -/
theorem mergedInto_append (inner earlier : Session) (furthest? : Option Failure) :
    (inner.append earlier.withoutFurthest).mergedInto
        (Failure.mergeOption earlier.furthest? furthest?) =
      (inner.mergedInto furthest?).append earlier := by
  simp only [append, mergedInto, withoutFurthest, Failure.mergeOption_none_left,
    Failure.mergeOption_assoc]

end Session

theorem Script.run_append {α : Type} {eval : Evaluator} (h : eval.Appends) (script : Script α)
    (session earlier : Session) :
    script.run eval (session.append earlier) =
      ((script.run eval session).1, (script.run eval session).2.append earlier) := by
  induction script generalizing session with
  | done value => rfl
  | note failure next ih =>
    simp only [run, Session.note_append]
    exact ih _
  | call expr pos next ih =>
    have heq := h expr pos session earlier
    rcases hrun : eval expr pos session with ⟨error | outcome, after⟩ <;> rw [hrun] at heq
    · rw [run_call_error hrun, run_call_error heq]
    · rw [run_call_ok hrun, run_call_ok heq]
      exact ih outcome after
  | peek expr pos next ih =>
    have heq := h expr pos session.withoutFurthest earlier.withoutFurthest
    rw [← Session.withoutFurthest_append] at heq
    rcases hrun : eval expr pos session.withoutFurthest with ⟨error | outcome, after⟩ <;>
      rw [hrun] at heq
    · rw [run_peek_error hrun, run_peek_error heq]
      rfl
    · rw [run_peek_ok hrun, run_peek_ok heq]
      exact ih outcome.isSuccess { after with furthest? := session.furthest? }

namespace Context

variable {context : Context} {eval : Evaluator}

theorem enterRule_append (h : eval.Appends) (name : String) (body : Expr) (pos : Nat)
    (session earlier : Session) :
    context.enterRule eval name body pos (session.append earlier) =
      ((context.enterRule eval name body pos session).1,
        (context.enterRule eval name body pos session).2.append earlier) := by
  have heq := Script.run_append h (Script.ofBody name body pos)
    (session.report (.ruleEntered name pos)).withoutFurthest earlier.withoutFurthest
  rcases hrun : (Script.ofBody name body pos).run eval
    (session.report (.ruleEntered name pos)).withoutFurthest with ⟨error | outcome, inner⟩ <;>
    rw [hrun] at heq
  · have heq : (Script.ofBody name body pos).run eval
        ((session.append earlier).report (.ruleEntered name pos)).withoutFurthest = _ := heq
    rw [enterRule_error hrun, enterRule_error heq]
    exact Prod.ext rfl (Session.mergedInto_append inner earlier session.furthest?)
  · have heq : (Script.ofBody name body pos).run eval
        ((session.append earlier).report (.ruleEntered name pos)).withoutFurthest = _ := heq
    have hinner : (inner.append earlier.withoutFurthest).furthest? = inner.furthest? :=
      Failure.mergeOption_none_left _
    have hmerged := Session.mergedInto_append inner earlier session.furthest?
    rw [enterRule_ok hrun, enterRule_ok heq, hinner]
    refine Prod.ext rfl ?_
    show (if _ then ((inner.append earlier.withoutFurthest).mergedInto
        (Failure.mergeOption earlier.furthest? session.furthest?)).keep name pos _
      else (inner.append earlier.withoutFurthest).mergedInto
        (Failure.mergeOption earlier.furthest? session.furthest?)) = _
    rw [hmerged]
    split <;> rfl

theorem matchRule_append (h : eval.Appends) (name : String) (pos : Nat)
    (session earlier : Session) :
    context.matchRule eval name pos (session.append earlier) =
      ((context.matchRule eval name pos session).1,
        (context.matchRule eval name pos session).2.append earlier) := by
  cases hr : context.grammar.rule? name with
  | none => rw [matchRule_undefined hr, matchRule_undefined hr]
  | some rule =>
    by_cases hm : context.options.memoize = true
    · cases hc : session.cache.get? name pos with
      | none =>
        have hc' : (session.append earlier).cache.get? name pos = none := hc
        rw [matchRule_miss hr hm hc, matchRule_miss hr hm hc']
        exact enterRule_append h name rule.body pos session.missed earlier
      | some entry =>
        have hc' : (session.append earlier).cache.get? name pos = some entry := hc
        rw [matchRule_hit hr hm hc, matchRule_hit hr hm hc']
        exact Prod.ext rfl
          (Session.note_append (session.hit.report (.cacheHit name pos)) earlier entry.furthest?)
    · have hm := Bool.eq_false_iff.2 hm
      rw [matchRule_unmemoized hr hm, matchRule_unmemoized hr hm]
      exact enterRule_append h name rule.body pos session earlier

/-- **Evaluations append** to their session, whatever they end with. -/
theorem evaluate_appends (context : Context) (depth : Nat) :
    Evaluator.Appends (context.evaluate depth) := by
  induction depth with
  | zero => exact fun _ _ _ _ => rfl
  | succ depth ih =>
    intro expr pos session earlier
    rcases expr.ruleRef_or_not with ⟨name, rfl⟩ | he
    · exact matchRule_append ih name pos session earlier
    · rw [evaluate, step_eq_run _ _ he, step_eq_run _ _ he]
      exact Script.run_append ih _ session earlier

end Context

/-! ## What a session has met -/

namespace Failure

/-- What was recorded still is, or something further on is. -/
def Retained (before? after? : Option Failure) : Prop :=
  ∀ f, before? = some f → ∃ g, after? = some g ∧ f.position ≤ g.position ∧
    (f.position = g.position → ∀ text ∈ f.expected, text ∈ g.expected)

theorem Retained.refl (f? : Option Failure) : Retained f? f? :=
  fun f hf => ⟨f, hf, Nat.le_refl _, fun _ _ h => h⟩

theorem Retained.trans {a? b? c? : Option Failure} (h : Retained a? b?) (h' : Retained b? c?) :
    Retained a? c? := by
  intro a ha
  obtain ⟨b, hb, hab, hexpected⟩ := h a ha
  obtain ⟨c, hc, hbc, hexpected'⟩ := h' b hb
  refine ⟨c, hc, Nat.le_trans hab hbc, fun heq text hmem => ?_⟩
  exact hexpected' (by omega) text (hexpected (by omega) text hmem)

theorem IsJoin.retained {failures : Failure → Prop} {before? join? : Option Failure}
    (h : IsJoin failures join?) (hbefore : ∀ f, before? = some f → failures f) :
    Retained before? join? := by
  intro f hf
  have hmem := hbefore f hf
  cases hj : join? with
  | none => exact absurd hmem (h.none_iff.1 hj f)
  | some j =>
    refine ⟨j, rfl, h.furthest j hj f hmem, fun heq text htext => ?_⟩
    exact (h.expected j hj text).2 ⟨f, hmem, heq, htext⟩

end Failure

namespace Context

/-- The session after matches, one after the other, whatever they end with. -/
def matchAll (context : Context) (calls : List (Expr × Cursor context.input))
    (session : Session) : Session :=
  calls.foldl (fun session call => (context.matchExpr call.1 call.2 session).2) session

section
variable (context : Context) (expr : Expr) (cursor : Cursor context.input) (session : Session)

/-- A match is that of a new session over the same cache, appended. -/
theorem matchExpr_eq_append :
    context.matchExpr expr cursor session =
      ((context.matchExpr expr cursor { cache := session.cache }).1,
        (context.matchExpr expr cursor { cache := session.cache }).2.append session) := by
  have h := context.evaluate_appends context.options.maxDepth expr cursor.position
    { cache := session.cache } session
  rwa [Session.append_new] at h

theorem isJoin_matchExpr :
    Failure.IsJoin
      (fun f => session.furthest? = some f ∨
        (context.matchExpr expr cursor { cache := session.cache }).2.furthest? = some f)
      (context.matchExpr expr cursor session).2.furthest? := by
  rw [matchExpr_eq_append context expr cursor session]
  exact (Failure.isJoin_toList _).merge (Failure.isJoin_toList _)

theorem matchExpr_retains :
    Failure.Retained session.furthest? (context.matchExpr expr cursor session).2.furthest? :=
  (isJoin_matchExpr context expr cursor session).retained fun _ => .inl

end

theorem matchAll_retains (context : Context) (calls : List (Expr × Cursor context.input))
    (session : Session) :
    Failure.Retained session.furthest? (context.matchAll calls session).furthest? := by
  induction calls generalizing session with
  | nil => exact .refl _
  | cons call calls ih => exact (matchExpr_retains context call.1 call.2 session).trans (ih _)

/-- **An error leaves a session fit for more.** After any matches in any session, of which any may
have ended with an error, the next match returns what it returns in a new session over the cache as
it stands, and leaves the same cache. Its furthest failure is the one before and that of the new
session together, and the events of the new session follow those before. Nothing that had been
recorded is lost, neither by this match nor by those before. -/
theorem matchExpr_reuse (context : Context) (session : Session)
    (earlier : List (Expr × Cursor context.input)) (expr : Expr) (cursor : Cursor context.input) :
    let reached := context.matchAll earlier session
    let used := context.matchExpr expr cursor reached
    let new := context.matchExpr expr cursor { cache := reached.cache }
    (used.1 = new.1 ∧ used.2.cache = new.2.cache ∧ used.2.log = new.2.log ++ reached.log) ∧
    Failure.IsJoin (fun f => reached.furthest? = some f ∨ new.2.furthest? = some f)
      used.2.furthest? ∧
    Failure.Retained reached.furthest? used.2.furthest? ∧
    Failure.Retained session.furthest? used.2.furthest? := by
  intro reached used new
  have hused : used = (new.1, new.2.append reached) :=
    matchExpr_eq_append context expr cursor reached
  have hretains := matchExpr_retains context expr cursor reached
  refine ⟨?_, isJoin_matchExpr context expr cursor reached, hretains, ?_⟩
  · rw [hused]
    exact ⟨rfl, rfl, rfl⟩
  · exact (matchAll_retains context earlier session).trans hretains

/-- A match that fails is followed by one that is given up within two rules, and the failure is
still there. -/
example :
    let context : Context := ⟨Sample.phrases, .ofString "carx", { maxDepth := 2 }⟩
    let reached := context.matchAll [(.literal "carf", .start)] {}
    let used := context.matchExpr (.ruleRef "foo") .start reached
    used.1 = .error (.recursionLimit 2 0) ∧ used.2.furthest? = some (.single 3 "\"carf\"") := by
  intro context reached used
  exact ⟨rfl, rfl⟩

end Context

end Packrat
