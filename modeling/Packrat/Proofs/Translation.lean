import Packrat.Proofs.ByteOffset
import Packrat.Proofs.Shift
import Packrat.Sample.Grammars

/-!
# Matching does not look behind

What comes of matching at a position depends on the rest of the input alone: in a text that follows
another one, everything is as in the text itself, but further on (`Context.matchExpr_append`). Two
scripts are related by `Script.ShiftedBy` if the second asks and answers what the first does,
`offset` atoms further on. The scripts of an expression in the two texts are so related
(`Script.ofExpr_moves`), and related scripts run alike (`Script.ShiftedBy.run`), with the same
look-ups in caches that hold the same. Distances are in atoms; for patterns, whose matches may just
as well be measured in bytes, see `Context.matchPattern_bytes`.
-/

set_option autoImplicit false

namespace Packrat

/-! ## A text after another -/

instance : Append Input := ⟨fun before text => ⟨before.atoms ++ text.atoms⟩⟩

namespace Input

theorem ofString_append (before text : String) :
    ofString (before ++ text) = ofString before ++ ofString text := by
  unfold ofString
  rw [String.toList_append, ← List.append_toArray]
  rfl

variable (before text : Input) (pos : Nat)

theorem length_append : (before ++ text).length = text.length + before.length := by
  show (before.atoms ++ text.atoms).size = text.atoms.size + before.atoms.size
  rw [Array.size_append, Nat.add_comm]

theorem atom?_append : (before ++ text).atom? (pos + before.length) = text.atom? pos := by
  show (before.atoms ++ text.atoms)[pos + before.atoms.size]? = text.atoms[pos]?
  rw [Array.getElem?_append_right (Nat.le_add_left _ _), Nat.add_sub_cancel]

theorem rest_append : (before ++ text).rest (pos + before.length) = text.rest pos := by
  rw [rest_eq_drop, rest_eq_drop]
  show (before.atoms ++ text.atoms).toList.drop (pos + before.atoms.size) = _
  rw [Array.toList_append, Nat.add_comm, ← Array.length_toList, List.drop_length_add_append]

theorem clamp_append :
    (before ++ text).clamp (pos + before.length) = text.clamp pos + before.length := by
  simp only [clamp, length_append]
  omega

theorem agreement_append (chars : List Char) :
    (before ++ text).agreement chars (pos + before.length) = text.agreement chars pos := by
  induction chars generalizing pos with
  | nil => rfl
  | cons c chars ih =>
    simp only [agreement, atom?_append, Nat.add_right_comm pos before.length 1, ih]

end Input

/-- The cursor at the same place of a text that follows another. -/
def Cursor.after {text : Input} (cursor : Cursor text) (before : Input) :
    Cursor (before ++ text) :=
  ⟨cursor.position + before.length, by
    rw [Input.length_append]
    exact Nat.add_le_add_right cursor.le_length _⟩

/-! ## Scripts -/

/-- The second script does what the first does, `offset` atoms further on. -/
inductive Script.ShiftedBy (offset : Nat) {α : Type} (f : α → α) : Script α → Script α → Prop
  | done (value : α) : ShiftedBy offset f (done value) (done (f value))
  | note (failure : Failure) {next moved : Script α} (h : ShiftedBy offset f next moved) :
      ShiftedBy offset f (note failure next) (note (failure.shift offset) moved)
  | call (expr : Expr) (pos : Nat) {next moved : Outcome → Script α}
      (h : ∀ outcome, ShiftedBy offset f (next outcome) (moved (outcome.shift offset))) :
      ShiftedBy offset f (call expr pos next) (call expr (pos + offset) moved)
  | peek (expr : Expr) (pos : Nat) {next moved : Bool → Script α}
      (h : ∀ matched, ShiftedBy offset f (next matched) (moved matched)) :
      ShiftedBy offset f (peek expr pos next) (peek expr (pos + offset) moved)

/-- The second script's outcome is that of the first one further on. -/
abbrev Script.Moves (offset : Nat) (script moved : Script Outcome) : Prop :=
  Script.ShiftedBy offset (Outcome.shift offset) script moved

namespace Script

theorem ShiftedBy.map {α β : Type} {offset : Nat} {f : α → α} {f' : β → β} {g g' : α → β}
    (hg : ∀ value, f' (g value) = g' (f value)) {script moved : Script α}
    (h : ShiftedBy offset f script moved) :
    ShiftedBy offset f' (script.map g) (moved.map g') := by
  induction h with
  | done value =>
    simp only [Script.map, ← hg]
    exact .done _
  | note failure _ ih => exact .note failure ih
  | call expr pos _ ih => exact .call expr pos ih
  | peek expr pos _ ih => exact .peek expr pos ih

theorem moves_done {offset : Nat} {outcome moved : Outcome}
    (h : outcome.shift offset = moved) : Moves offset (done outcome) (done moved) := by
  rw [← h]
  exact .done outcome

theorem moves_fail (offset pos : Nat) (expected : String) :
    Moves offset (fail pos expected) (fail (pos + offset) expected) :=
  .note _ (.done _)

/-! ## The constructs -/

variable (before text : Input)

theorem ofLiteral_moves (chars : String) (pos : Nat) :
    Moves before.length (ofLiteral text chars pos)
      (ofLiteral (before ++ text) chars (pos + before.length)) := by
  simp only [ofLiteral, Input.agreement_append, Nat.add_right_comm pos before.length]
  split
  · exact moves_done (Outcome.shift_terminal ..)
  · exact moves_fail ..

theorem ofAtom_moves (test : Char → Bool) (expected : String) (pos : Nat) :
    Moves before.length (ofAtom text test expected pos)
      (ofAtom (before ++ text) test expected (pos + before.length)) := by
  simp only [ofAtom, Input.atom?_append]
  split
  · refine moves_done ?_
    rw [Outcome.shift_terminal, Nat.add_right_comm]
  · exact moves_fail ..

theorem ofEnd_moves (pos : Nat) :
    Moves before.length (ofEnd text pos) (ofEnd (before ++ text) (pos + before.length)) := by
  simp only [ofEnd, Input.length_append, Nat.add_right_cancel_iff]
  split
  · exact .done _
  · exact moves_fail ..

theorem ofPattern_moves (pattern : Pattern) (pos : Nat) :
    Moves before.length (ofPattern text pattern pos)
      (ofPattern (before ++ text) pattern (pos + before.length)) := by
  simp only [ofPattern, Input.rest_append]
  split
  · refine moves_done ?_
    rw [Outcome.shift_terminal, Nat.add_right_comm]
  · exact moves_fail ..

theorem ofSequence_moves (exprs : List Expr) (start pos : Nat) (children : List Node) :
    Moves before.length (ofSequence text start exprs pos children)
      (ofSequence (before ++ text) (start + before.length) exprs (pos + before.length)
        (children.map (Node.shift before.length))) := by
  induction exprs generalizing pos children with
  | nil => exact moves_done (Outcome.shift_gathered ..)
  | cons expr exprs ih =>
    refine .call expr pos fun outcome => ?_
    cases outcome with
    | success stop node? =>
      simp only [Outcome.shift, Input.clamp_append, ← Node.map_shift_push]
      exact ih _ _
    | failure failure => exact .done _

/-- An outcome with the index of its alternative, further on. -/
def shiftIndexed (offset : Nat) (indexed : Outcome × Nat) : Outcome × Nat :=
  (indexed.1.shift offset, indexed.2)

theorem ofChoice_moves (offset : Nat) (exprs : List Expr) (pos index : Nat)
    (failure? : Option Failure) :
    ShiftedBy offset (shiftIndexed offset) (ofChoice pos exprs index failure?)
      (ofChoice (pos + offset) exprs index (failure?.map (Failure.shift offset))) := by
  induction exprs generalizing index failure? with
  | nil =>
    have hfailure : (failure?.map (Failure.shift offset)).getD ⟨pos + offset, ∅⟩ =
        (failure?.getD ⟨pos, ∅⟩).shift offset := by
      cases failure? <;> rfl
    simp only [ofChoice, hfailure]
    exact .done _
  | cons expr exprs ih =>
    refine .call expr pos fun outcome => ?_
    cases outcome with
    | success stop node? => exact .done _
    | failure failure =>
      have hmerge := Failure.map_shift_mergeOption offset failure? (some failure)
      simp only [Outcome.shift, Option.map_some] at hmerge ⊢
      rw [← hmerge]
      exact ih _ _

theorem repeated_moves (offset start pos : Nat) (children : List Node) :
    Moves offset (repeated start pos children)
      (repeated (start + offset) (pos + offset) (children.map (Node.shift offset))) :=
  moves_done (Outcome.shift_gathered ..)

theorem ofRepetition_moves (expr : Expr) (attempts start pos : Nat) (children : List Node) :
    Moves before.length (ofRepetition text expr start attempts pos children)
      (ofRepetition (before ++ text) expr (start + before.length) attempts (pos + before.length)
        (children.map (Node.shift before.length))) := by
  induction attempts generalizing pos children with
  | zero => exact repeated_moves ..
  | succ attempts ih =>
    refine .call expr pos fun outcome => ?_
    cases outcome with
    | success stop node? =>
      simp only [Outcome.shift, Nat.add_right_cancel_iff]
      split
      · exact repeated_moves ..
      · rw [Input.clamp_append, ← Node.map_shift_push]
        exact ih _ _
    | failure failure => exact repeated_moves ..

theorem attempts_append (pos : Nat) :
    (before ++ text).length - (pos + before.length) + 1 = text.length - pos + 1 := by
  rw [Input.length_append, Nat.add_sub_add_right]

/-- **An expression does the same further on** in a text that follows another. -/
theorem ofExpr_moves (expr : Expr) (pos : Nat) :
    Moves before.length (ofExpr text expr pos)
      (ofExpr (before ++ text) expr (pos + before.length)) := by
  cases expr with
  | literal chars => exact ofLiteral_moves before text chars pos
  | oneIn cls => exact ofAtom_moves before text _ _ pos
  | any => exact ofAtom_moves before text _ _ pos
  | endOfInput => exact ofEnd_moves before text pos
  | regex pattern => exact ofPattern_moves before text pattern pos
  | sequence exprs => exact ofSequence_moves before text exprs pos pos []
  | choice exprs =>
    refine (ofChoice_moves before.length exprs pos 0 none).map ?_
    exact fun _ => rfl
  | zeroOrMore expr =>
    simp only [ofExpr, attempts_append]
    exact ofRepetition_moves before text expr _ pos pos []
  | oneOrMore expr =>
    simp only [ofExpr, attempts_append]
    refine .call expr pos fun outcome => ?_
    cases outcome with
    | success stop node? =>
      have hfirst := Node.map_shift_push before.length node? []
      simp only [List.append_nil, List.map_nil] at hfirst
      simp only [Outcome.shift, Nat.add_right_cancel_iff]
      rw [← hfirst]
      split
      · exact repeated_moves ..
      · rw [Input.clamp_append]
        exact ofRepetition_moves before text expr _ pos _ _
    | failure failure => exact .done _
  | optional expr =>
    refine .call expr pos fun outcome => ?_
    cases outcome with
    | success stop node? => exact .done _
    | failure failure => exact .done _
  | followedBy expr =>
    refine .peek expr pos fun matched => ?_
    cases matched with
    | true => exact .done _
    | false => exact moves_fail ..
  | notFollowedBy expr =>
    refine .peek expr pos fun matched => ?_
    cases matched with
    | true => exact moves_fail ..
    | false => exact .done _
  | ruleRef name => exact .call _ pos .done

theorem ofBody_moves (offset : Nat) (name : String) (body : Expr) (pos : Nat) :
    Moves offset (ofBody name body pos) (ofBody name body (pos + offset)) := by
  have called (expr : Expr) : Moves offset (call expr pos done) (call expr (pos + offset) done) :=
    .call expr pos .done
  cases body with
  | choice exprs =>
    refine (ofChoice_moves offset exprs pos 0 none).map ?_
    exact fun _ => Context.ruleOutcome_shift ..
  | _ =>
    refine (called _).map ?_
    exact fun _ => Context.ruleOutcome_shift ..

end Script

/-! ## Runs -/

/-- The second run ends as the first one does, further on. -/
structure Result.ShiftedBy {α : Type} (offset : Nat) (f : α → α) (run moved : Result α) :
    Prop where
  value : moved.1 = shiftResult f offset run.1
  session : run.2.ShiftedBy offset moved.2

/-- The second evaluator does what the first does, further on. -/
def Evaluator.ShiftedBy (offset : Nat) (eval moved : Evaluator) : Prop :=
  ∀ expr pos session session', Session.ShiftedBy offset session session' →
    Result.ShiftedBy offset (Outcome.shift offset) (eval expr pos session)
      (moved expr (pos + offset) session')

section
variable {offset : Nat} {eval evalMoved : Evaluator}
  (heval : eval.ShiftedBy offset evalMoved)
include heval

theorem Script.ShiftedBy.run {α : Type} {f : α → α} {script moved : Script α}
    (h : Script.ShiftedBy offset f script moved) {session session' : Session}
    (hs : session.ShiftedBy offset session') :
    Result.ShiftedBy offset f (script.run eval session) (moved.run evalMoved session') := by
  induction h generalizing session session' with
  | done value => exact ⟨rfl, hs⟩
  | note failure _ ih => exact ih (hs.note (some failure))
  | call expr pos _ ih =>
    obtain ⟨hvalue, hafter⟩ := heval expr pos session session' hs
    rcases hrun : eval expr pos session with ⟨error | outcome, after⟩ <;>
      rw [hrun] at hvalue hafter
    · rw [run_call_error hrun, run_call_error (Prod.ext hvalue rfl)]
      exact ⟨rfl, hafter⟩
    · rw [run_call_ok hrun, run_call_ok (Prod.ext hvalue rfl)]
      exact ih outcome hafter
  | @peek expr pos next moved _ ih =>
    obtain ⟨hvalue, hafter⟩ := heval expr pos _ _ hs.withoutFurthest
    rcases hrun : eval expr pos session.withoutFurthest with ⟨error | outcome, after⟩ <;>
      rw [hrun] at hvalue hafter
    · rw [run_peek_error hrun, run_peek_error (Prod.ext hvalue rfl)]
      exact ⟨rfl, hafter.restore hs⟩
    · rw [run_peek_ok hrun, run_peek_ok (Prod.ext hvalue rfl), Outcome.isSuccess_shift]
      exact ih outcome.isSuccess (hafter.restore hs)

namespace Context

variable {grammar : Grammar} {input further : Input} {options : Options}
  {session session' : Session} (hs : session.ShiftedBy offset session')
include hs

theorem enterRule_shifted (name : String) (body : Expr) (pos : Nat) :
    Result.ShiftedBy offset (Outcome.shift offset)
      (enterRule ⟨grammar, input, options⟩ eval name body pos session)
      (enterRule ⟨grammar, further, options⟩ evalMoved name body (pos + offset) session') := by
  have hentered := (hs.report (.ruleEntered name pos)).withoutFurthest
  obtain ⟨hvalue, hinner⟩ := (Script.ofBody_moves offset name body pos).run heval hentered
  rcases hrun : (Script.ofBody name body pos).run eval
    (session.report (.ruleEntered name pos)).withoutFurthest with ⟨error | outcome, inner⟩ <;>
    rw [hrun] at hvalue hinner
  · rw [enterRule_error hrun, enterRule_error (Prod.ext hvalue rfl)]
    exact ⟨rfl, hinner.mergedInto hs⟩
  · rw [enterRule_ok hrun, enterRule_ok (Prod.ext hvalue rfl)]
    refine ⟨rfl, ?_⟩
    simp only
    split
    · have hkept := (hinner.mergedInto hs).keep name pos ⟨outcome, inner.furthest?⟩
      rwa [CacheEntry.shift, ← hinner.furthest] at hkept
    · exact hinner.mergedInto hs

theorem matchRule_shifted (name : String) (pos : Nat) :
    Result.ShiftedBy offset (Outcome.shift offset)
      (matchRule ⟨grammar, input, options⟩ eval name pos session)
      (matchRule ⟨grammar, further, options⟩ evalMoved name (pos + offset) session') := by
  let here : Context := ⟨grammar, input, options⟩
  let there : Context := ⟨grammar, further, options⟩
  cases hr : grammar.rule? name with
  | none =>
    rw [matchRule_undefined (show here.grammar.rule? name = none from hr),
      matchRule_undefined (show there.grammar.rule? name = none from hr)]
    exact ⟨rfl, hs⟩
  | some rule =>
    have hr₁ : here.grammar.rule? name = some rule := hr
    have hr₂ : there.grammar.rule? name = some rule := hr
    cases hm : options.memoize with
    | false =>
      rw [matchRule_unmemoized hr₁ hm, matchRule_unmemoized hr₂ hm]
      exact enterRule_shifted heval hs name rule.body pos
    | true =>
      have hfound := hs.cache.found name pos
      cases hc : session.cache.get? name pos with
      | none =>
        rw [hc] at hfound
        rw [matchRule_miss hr₁ hm hc, matchRule_miss hr₂ hm hfound]
        exact enterRule_shifted heval hs.missed name rule.body pos
      | some entry =>
        rw [hc] at hfound
        rw [matchRule_hit hr₁ hm hc, matchRule_hit hr₂ hm hfound]
        exact ⟨rfl, (hs.hit.report (.cacheHit name pos)).note entry.furthest?⟩

end Context

end

namespace Context

theorem evaluate_shifted (grammar : Grammar) (before text : Input) (options : Options)
    (depth : Nat) :
    (evaluate ⟨grammar, text, options⟩ depth).ShiftedBy before.length
      (evaluate ⟨grammar, before ++ text, options⟩ depth) := by
  induction depth with
  | zero =>
    intro expr pos session session' hs
    exact ⟨rfl, hs⟩
  | succ depth ih =>
    intro expr pos session session' hs
    rcases expr.ruleRef_or_not with ⟨name, rfl⟩ | he
    · exact matchRule_shifted ih hs name pos
    · rw [evaluate, evaluate, step_eq_run _ _ he, step_eq_run _ _ he]
      exact (Script.ofExpr_moves before text expr pos).run ih hs

/-- **Matching does not look behind.** In a text that follows another one, a match over an empty
cache ends as it does in the text itself, further on by the length of the text before: so are the
outcome with its nodes or failure, or the position of an error; the furthest failure; the keys of
the entries in the cache and what they keep; and the events. The look-ups are the same. -/
theorem matchExpr_append (grammar : Grammar) (options : Options) (expr : Expr)
    (before text : Input) (cursor : Cursor text) :
    let offset := before.length
    let here := matchExpr ⟨grammar, text, options⟩ expr cursor {}
    let there := matchExpr ⟨grammar, before ++ text, options⟩ expr (cursor.after before) {}
    there.1 = shiftResult (Outcome.shift offset) offset here.1 ∧
    there.2.furthest? = here.2.furthest?.map (Failure.shift offset) ∧
    there.2.cache.entries.keys = here.2.cache.entries.keys.map (CacheKey.shift offset) ∧
    (∀ rule pos, there.2.cache.get? rule (pos + offset) =
      (here.2.cache.get? rule pos).map (CacheEntry.shift offset)) ∧
    there.2.cache.size = here.2.cache.size ∧ there.2.cache.hits = here.2.cache.hits ∧
    there.2.cache.misses = here.2.cache.misses ∧
    there.2.log = here.2.log.map (Event.shift offset) := by
  intro offset here there
  have hempty : Session.ShiftedBy offset {} {} := ⟨.empty offset, rfl, rfl⟩
  obtain ⟨hvalue, hcache, hfurthest, hlog⟩ :=
    evaluate_shifted grammar before text options options.maxDepth expr cursor.position {} {} hempty
  exact ⟨hvalue, hfurthest, hcache.keys, hcache.found, hcache.size, hcache.hits, hcache.misses,
    hlog⟩

/-- A number after two characters of five bytes, which ends at its own length two atoms further
on. -/
theorem matchExpr_append_number :
    (matchExpr ⟨∅, .ofString ("€ß" ++ "-12"), {}⟩ (.regex Sample.signedNumber)
      (.ofPosition 2) {}).1 = .ok (.terminal 2 5) := by
  let text : Input := .ofString "-12"
  have hhere : (matchExpr ⟨∅, text, {}⟩ (.regex Sample.signedNumber) (.ofPosition 0) {}).1 =
      .ok (.terminal 0 3) := rfl
  have happend := matchExpr_append ∅ {} (.regex Sample.signedNumber) (.ofString "€ß") text
    (.ofPosition 0)
  rw [Input.ofString_append]
  calc
    _ = shiftResult (Outcome.shift 2) 2 _ := happend.1
    _ = .ok (.terminal 2 5) := congrArg (shiftResult (Outcome.shift 2) 2) hhere

end Context

end Packrat
