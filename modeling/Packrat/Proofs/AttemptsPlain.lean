import Packrat.Proofs.Adequacy
import Packrat.Proofs.Attempts

/-!
# Attempts of plain evaluation

Plain evaluation matches what is attempted and raises what fails, no more and no less.

* What a script calls and notes is attempted and fails (`Script.obeys_expr`), so an expression
  without an answer evaluates one without an answer (`Grammar.exists_unanswered`).
* What is evaluated for an answer has an answer too, with less depth
  (`Grammar.Evaluates.answered`).
* The failures of an answer are its own and those of what is attempted (`Grammar.mem_raised_iff`),
  the rules entered for it are its own and those of what is evaluated (`Grammar.entered_cases`).
-/

set_option autoImplicit false

namespace Packrat

variable {grammar : Grammar} {input : Input}

/-! ## What a script does -/

namespace Script

variable {α β : Type}

/-- What a script may do: call an expression at a position, look ahead for one, note a failure. -/
structure Licence where
  called : Expr → Nat → Prop
  peeked : Expr → Nat → Prop := fun _ _ => False
  noted : Failure → Prop := fun _ => False

/-- The script does only what it may, if the values of its calls are among the known ones. -/
def Obeys (known : Expr → Nat → Except String Outcome → Prop) (licence : Licence) :
    Script α → Prop
  | done _ => True
  | note failure next => licence.noted failure ∧ next.Obeys known licence
  | call expr pos next =>
    licence.called expr pos ∧
      ∀ outcome, known expr pos (.ok outcome) → (next outcome).Obeys known licence
  | peek expr pos next =>
    licence.peeked expr pos ∧
      ∀ outcome, known expr pos (.ok outcome) → (next outcome.isSuccess).Obeys known licence

variable {known : Expr → Nat → Except String Outcome → Prop} {licence licence' : Licence}

theorem Obeys.imp (hcalled : ∀ expr pos, licence.called expr pos → licence'.called expr pos)
    (hpeeked : ∀ expr pos, licence.peeked expr pos → licence'.peeked expr pos)
    (hnoted : ∀ failure, licence.noted failure → licence'.noted failure) {script : Script α}
    (h : script.Obeys known licence) : script.Obeys known licence' := by
  induction script with
  | done value => trivial
  | note failure next ih => exact ⟨hnoted failure h.1, ih h.2⟩
  | call expr pos next ih =>
    exact ⟨hcalled expr pos h.1, fun outcome ho => ih outcome (h.2 outcome ho)⟩
  | peek expr pos next ih =>
    exact ⟨hpeeked expr pos h.1, fun outcome ho => ih outcome.isSuccess (h.2 outcome ho)⟩

theorem obeys_map {f : α → β} {script : Script α} :
    (script.map f).Obeys known licence ↔ script.Obeys known licence := by
  induction script with
  | done value => exact Iff.rfl
  | note failure next ih => simp only [map, Obeys, ih]
  | call expr pos next ih => simp only [map, Obeys, ih]
  | peek expr pos next ih => simp only [map, Obeys, ih]

section
variable {f : Expr → Nat → Option (Answer Outcome)}
  (hf : ∀ expr pos answer, f expr pos = some answer → known expr pos answer.value)
include hf

theorem Obeys.exists_unanswered {script : Script α} (h : script.Obeys known licence)
    (hn : script.answer? f = none) :
    ∃ expr pos, (licence.called expr pos ∨ licence.peeked expr pos) ∧ f expr pos = none := by
  induction script with
  | done value => cases hn
  | note failure next ih => exact ih h.2 (Option.map_eq_none_iff.1 hn)
  | call expr pos next ih =>
    cases hfirst : f expr pos with
    | none => exact ⟨expr, pos, .inl h.1, hfirst⟩
    | some first =>
      have hknown := hf expr pos first hfirst
      simp only [answer?, hfirst, Option.bind_some] at hn
      rcases hv : first.value with name | outcome
      · rw [Answer.andThen?_error hv] at hn
        cases hn
      · rw [Answer.andThen?_ok hv, Option.map_eq_none_iff] at hn
        exact ih outcome (h.2 outcome (hv ▸ hknown)) hn
  | peek expr pos next ih =>
    cases hfirst : f expr pos with
    | none => exact ⟨expr, pos, .inr h.1, hfirst⟩
    | some first =>
      have hknown := hf expr pos first hfirst
      simp only [answer?, hfirst, Option.bind_some] at hn
      rcases hv : first.value with name | outcome
      · have hv' : first.hidden.value = .error name := hv
        rw [Answer.andThen?_error hv'] at hn
        cases hn
      · have hv' : first.hidden.value = .ok outcome := hv
        rw [Answer.andThen?_ok hv', Option.map_eq_none_iff] at hn
        exact ih outcome.isSuccess (h.2 outcome (hv ▸ hknown)) hn

theorem Obeys.raised_cases {script : Script α} (h : script.Obeys known licence)
    {answer : Answer α} (ha : script.answer? f = some answer) {failure : Failure}
    (hmem : failure ∈ answer.raised) :
    licence.noted failure ∨ ∃ expr pos first,
      licence.called expr pos ∧ f expr pos = some first ∧ failure ∈ first.raised := by
  induction script generalizing answer with
  | done value =>
    cases ha
    cases hmem
  | note noted next ih =>
    obtain ⟨rest, hrest, rfl⟩ := Option.map_eq_some_iff.1 ha
    rcases List.mem_cons.1 hmem with rfl | hmem
    · exact .inl h.1
    · exact ih h.2 hrest hmem
  | call expr pos next ih =>
    obtain ⟨first, hfirst, hcases⟩ := answer?_call_cases ha
    have hknown := hf expr pos first hfirst
    obtain ⟨name, hv, rfl⟩ | ⟨outcome, rest, hv, hrest, rfl⟩ := hcases
    · exact .inr ⟨expr, pos, first, h.1, hfirst, hmem⟩
    · rcases List.mem_append.1 hmem with hmem | hmem
      · exact .inr ⟨expr, pos, first, h.1, hfirst, hmem⟩
      · exact ih outcome (h.2 outcome (hv ▸ hknown)) hrest hmem
  | peek expr pos next ih =>
    obtain ⟨first, hfirst, hcases⟩ := answer?_peek_cases ha
    have hknown := hf expr pos first hfirst
    obtain ⟨name, hv, rfl⟩ | ⟨outcome, rest, hv, hrest, rfl⟩ := hcases
    · cases hmem
    · exact ih outcome.isSuccess (h.2 outcome (hv ▸ hknown)) hrest hmem

theorem Obeys.entered_cases {script : Script α} (h : script.Obeys known licence)
    {answer : Answer α} (ha : script.answer? f = some answer) {key : CacheKey}
    (hmem : key ∈ answer.entered) :
    ∃ expr pos first, (licence.called expr pos ∨ licence.peeked expr pos) ∧
      f expr pos = some first ∧ key ∈ first.entered := by
  induction script generalizing answer with
  | done value =>
    cases ha
    cases hmem
  | note noted next ih =>
    obtain ⟨rest, hrest, rfl⟩ := Option.map_eq_some_iff.1 ha
    exact ih h.2 hrest hmem
  | call expr pos next ih =>
    obtain ⟨first, hfirst, hcases⟩ := answer?_call_cases ha
    have hknown := hf expr pos first hfirst
    obtain ⟨name, hv, rfl⟩ | ⟨outcome, rest, hv, hrest, rfl⟩ := hcases
    · exact ⟨expr, pos, first, .inl h.1, hfirst, hmem⟩
    · rcases List.mem_append.1 hmem with hmem | hmem
      · exact ⟨expr, pos, first, .inl h.1, hfirst, hmem⟩
      · exact ih outcome (h.2 outcome (hv ▸ hknown)) hrest hmem
  | peek expr pos next ih =>
    obtain ⟨first, hfirst, hcases⟩ := answer?_peek_cases ha
    have hknown := hf expr pos first hfirst
    obtain ⟨name, hv, rfl⟩ | ⟨outcome, rest, hv, hrest, rfl⟩ := hcases
    · exact ⟨expr, pos, first, .inr h.1, hfirst, hmem⟩
    · rcases List.mem_append.1 hmem with hmem | hmem
      · exact ⟨expr, pos, first, .inr h.1, hfirst, hmem⟩
      · exact ih outcome.isSuccess (h.2 outcome (hv ▸ hknown)) hrest hmem

end

/-! ## Scripts only do what is attempted and raised -/

/-- What the script of an expression at a position may do. -/
def Licence.of (grammar : Grammar) (input : Input) (expr : Expr) (pos : Nat) : Licence where
  called := grammar.Attempts input expr pos
  peeked := grammar.Evaluates input expr pos
  noted := grammar.Fails input expr pos

theorem Obeys.of_attempts {expr expr' : Expr} {pos pos' : Nat} {script : Script α}
    (h : script.Obeys known { called := grammar.Attempts input expr pos })
    (himp : ∀ part place, grammar.Attempts input expr pos part place →
      grammar.Attempts input expr' pos' part place) :
    script.Obeys known { called := grammar.Attempts input expr' pos' } := by
  refine h.imp himp ?_ ?_
  · exact fun _ _ hp => hp
  · exact fun _ hn => hn

theorem Obeys.licensed {expr : Expr} {pos : Nat} {script : Script α}
    (h : script.Obeys known { called := grammar.Attempts input expr pos }) :
    script.Obeys known (.of grammar input expr pos) := by
  refine h.imp ?_ ?_ ?_
  · exact fun _ _ hc => hc
  · exact fun _ _ hp => hp.elim
  · exact fun _ hn => hn.elim

theorem obeys_fail {expr : Expr} {pos place : Nat} {expected : String}
    (h : grammar.Fails input expr pos (.single place expected)) :
    (fail place expected).Obeys known (.of grammar input expr pos) := ⟨h, trivial⟩

variable {pos : Nat}

theorem obeys_literal (text : String) :
    (ofLiteral input text pos).Obeys known (.of grammar input (.literal text) pos) := by
  unfold ofLiteral
  simp only
  split
  · trivial
  · next h =>
    have hle : input.agreement text.toList pos ≤ text.toList.length :=
      Input.agreement_le_length text.toList pos
    refine obeys_fail (.literal ?_ ?_) <;> rw [Input.take_prefix_iff] <;> omega

theorem obeys_atom {expr : Expr} {test : Char → Bool} {expected : String}
    (h : (∀ c, input.atom? pos = some c → test c = false) →
      grammar.Fails input expr pos (.single pos expected)) :
    (ofAtom input test expected pos).Obeys known (.of grammar input expr pos) := by
  unfold ofAtom
  split
  · trivial
  · next ht =>
    refine obeys_fail (h fun c hc => ?_)
    rw [hc] at ht
    exact Bool.eq_false_iff.2 ht

theorem obeys_sequence (hpos : pos ≤ input.length) (start : Nat) (exprs : List Expr)
    (children : List Node) :
    (ofSequence input start exprs pos children).Obeys (Derived grammar input)
      { called := grammar.Attempts input (.sequence exprs) pos } := by
  induction exprs generalizing pos children with
  | nil => trivial
  | cons expr exprs ih =>
    refine ⟨.sequence_first, fun outcome ho => ?_⟩
    have hfirst := ho hpos
    cases outcome with
    | success stop node? =>
      have hstop := (hfirst.within hpos).2
      simp only [Input.clamp_of_le hstop]
      exact (ih hstop _).of_attempts fun _ _ => .sequence_rest hfirst
    | failure failure => trivial

theorem obeys_choice (hpos : pos ≤ input.length) (exprs : List Expr) (index : Nat)
    (failure? : Option Failure) :
    (ofChoice pos exprs index failure?).Obeys (Derived grammar input)
      { called := grammar.Attempts input (.choice exprs) pos } := by
  induction exprs generalizing index failure? with
  | nil => trivial
  | cons expr exprs ih =>
    refine ⟨.choice_first, fun outcome ho => ?_⟩
    have hfirst := ho hpos
    cases outcome with
    | success stop node? => trivial
    | failure failure => exact (ih _ _).of_attempts fun _ _ => .choice_rest hfirst

theorem obeys_repetition (hpos : pos ≤ input.length) (expr : Expr) (start attempts : Nat)
    (children : List Node) :
    (ofRepetition input expr start attempts pos children).Obeys (Derived grammar input)
      { called := grammar.Attempts input (.zeroOrMore expr) pos } := by
  induction attempts generalizing pos children with
  | zero => trivial
  | succ attempts ih =>
    refine ⟨.zeroOrMore_round, fun outcome ho => ?_⟩
    have hround := ho hpos
    cases outcome with
    | success stop node? =>
      simp only
      split
      · trivial
      · next hne =>
        have hstop := (hround.within hpos).2
        rw [Input.clamp_of_le hstop]
        exact (ih hstop _).of_attempts fun _ _ => .zeroOrMore_rest hround hne
    | failure failure => trivial

/-- **The script of an expression calls what is attempted and notes what is raised.** -/
theorem obeys_expr {expr : Expr} (he : ∀ name, expr ≠ .ruleRef name) (hpos : pos ≤ input.length) :
    (ofExpr input expr pos).Obeys (Derived grammar input) (.of grammar input expr pos) := by
  cases expr with
  | literal text => exact obeys_literal text
  | oneIn cls => exact obeys_atom .oneIn
  | any =>
    refine obeys_atom fun h => .any ?_
    cases hc : input.atom? pos with
    | none => rfl
    | some c => cases h c hc
  | endOfInput =>
    simp only [ofExpr, ofEnd]
    split
    · trivial
    · next h => exact obeys_fail (.endOfInput h)
  | regex pattern =>
    simp only [ofExpr, ofPattern]
    split
    · trivial
    · next h => exact obeys_fail (.regex h)
  | sequence exprs => exact (obeys_sequence hpos pos exprs []).licensed
  | choice exprs => exact obeys_map.2 (obeys_choice hpos exprs 0 none).licensed
  | zeroOrMore expr => exact (obeys_repetition hpos expr pos _ []).licensed
  | oneOrMore expr =>
    refine ⟨.oneOrMore_round, fun outcome ho => ?_⟩
    have hround := ho hpos
    cases outcome with
    | success stop node? =>
      simp only
      split
      · trivial
      · next hne =>
        have hstop := (hround.within hpos).2
        rw [Input.clamp_of_le hstop]
        refine Obeys.licensed (Obeys.of_attempts ?_ fun _ _ => .oneOrMore_rest hround hne)
        exact obeys_repetition hstop expr pos (input.length - pos + 1) node?.toList
    | failure failure => trivial
  | optional expr =>
    refine ⟨.optional_inner, fun outcome _ => ?_⟩
    cases outcome <;> trivial
  | followedBy expr =>
    refine ⟨.followedBy, fun outcome ho => ?_⟩
    have hinner := ho hpos
    cases outcome with
    | success stop node? => trivial
    | failure failure => exact obeys_fail (.followedBy hinner)
  | notFollowedBy expr =>
    refine ⟨.notFollowedBy, fun outcome ho => ?_⟩
    have hinner := ho hpos
    cases outcome with
    | success stop node? => exact obeys_fail (.notFollowedBy hinner)
    | failure failure => trivial
  | ruleRef name => exact absurd rfl (he name)

theorem obeys_body {name : String} {rule : Rule} (hr : grammar.rule? name = some rule)
    (hpos : pos ≤ input.length) :
    (ofBody name rule.body pos).Obeys (Derived grammar input)
      (.of grammar input (.ruleRef name) pos) := by
  cases hbody : rule.body with
  | choice exprs =>
    refine obeys_map.2 (Obeys.licensed (Obeys.of_attempts ?_ fun _ _ =>
      .ruleRef_alternative hr hbody))
    exact obeys_choice hpos exprs 0 none
  | _ =>
    have hattempt : grammar.Attempts input (.ruleRef name) pos rule.body pos :=
      .ruleRef_body hr (by simp [hbody])
    rw [hbody] at hattempt
    exact obeys_map.2 ⟨hattempt, fun _ _ => trivial⟩

/-! ## What is attempted is answered -/

/-- The expression is answered wherever the script is, and its failures are among the script's. -/
def Includes (f : Expr → Nat → Option (Answer Outcome)) (part : Expr) (place : Nat)
    (script : Script α) : Prop :=
  ∀ answer, script.answer? f = some answer →
    ∃ first, f part place = some first ∧ ∀ failure ∈ first.raised, failure ∈ answer.raised

theorem Includes.map {f : Expr → Nat → Option (Answer Outcome)} {part : Expr} {place : Nat}
    {script : Script α} (h : script.Includes f part place) (g : α → β) :
    (script.map g).Includes f part place := by
  intro answer ha
  rw [answer?_map] at ha
  obtain ⟨inner, hinner, rfl⟩ := Option.map_eq_some_iff.1 ha
  exact h inner hinner

theorem includes_call {f : Expr → Nat → Option (Answer Outcome)} {expr : Expr}
    {next : Outcome → Script α} : (call expr pos next).Includes f expr pos := by
  intro answer ha
  obtain ⟨first, hfirst, ⟨name, -, rfl⟩ | ⟨outcome, rest, -, -, rfl⟩⟩ := answer?_call_cases ha
  · exact ⟨first, hfirst, fun _ hmem => hmem⟩
  · exact ⟨first, hfirst, fun _ hmem => List.mem_append_left _ hmem⟩

section
variable {depth place : Nat} {expr part : Expr} {next : Outcome → Script α}
  (hpos : pos ≤ input.length)
include hpos

/-- A script goes on after a call with an outcome of the verdict that is derived. -/
theorem includes_after {verdict : Verdict} (hd : grammar.Derives input expr pos verdict)
    (hverdict : ∀ name, verdict ≠ .undefined name)
    (hnext : ∀ outcome, Verdict.ofValue (.ok outcome) = verdict →
      (next outcome).Includes (grammar.plain? input depth) part place) :
    (call expr pos next).Includes (grammar.plain? input depth) part place := by
  intro answer ha
  obtain ⟨first, hfirst, hcases⟩ := answer?_call_cases ha
  have hv := (Grammar.Yields.derives ⟨depth, hfirst⟩ hpos).unique hd hpos
  obtain ⟨name, hname, rfl⟩ | ⟨outcome, rest, houtcome, hrest, rfl⟩ := hcases
  · rw [hname] at hv
    exact absurd hv.symm (hverdict name)
  · rw [houtcome] at hv
    obtain ⟨inner, hinner, hsub⟩ := hnext outcome hv rest hrest
    exact ⟨inner, hinner, fun failure hmem => List.mem_append_right _ (hsub failure hmem)⟩

theorem includes_success {stop : Nat} (hd : grammar.Derives input expr pos (.success stop))
    (hnext : ∀ node?,
      (next (.success stop node?)).Includes (grammar.plain? input depth) part place) :
    (call expr pos next).Includes (grammar.plain? input depth) part place := by
  refine includes_after hpos hd nofun fun outcome ho => ?_
  obtain ⟨node?, hnode⟩ := Verdict.ofValue_eq_success.1 ho
  cases hnode
  exact hnext node?

theorem includes_failure (hd : grammar.Derives input expr pos .failure)
    (hnext : ∀ failure,
      (next (.failure failure)).Includes (grammar.plain? input depth) part place) :
    (call expr pos next).Includes (grammar.plain? input depth) part place := by
  refine includes_after hpos hd nofun fun outcome ho => ?_
  obtain ⟨failure, hfailure⟩ := Verdict.ofValue_eq_failure.1 ho
  cases hfailure
  exact hnext failure

end

end Script

namespace Grammar

variable {expr part : Expr} {pos place : Nat}

/-- The script of the expression includes the part, also where it goes on after earlier parts of a
sequence, alternatives of a choice or rounds of a repetition. -/
def Included (grammar : Grammar) (input : Input) (depth : Nat) (expr : Expr) (pos : Nat)
    (part : Expr) (place : Nat) : Prop :=
  match expr with
  | .sequence exprs => ∀ start children,
    (Script.ofSequence input start exprs pos children).Includes (grammar.plain? input depth) part
      place
  | .choice exprs => ∀ index failure?,
    (Script.ofChoice pos exprs index failure?).Includes (grammar.plain? input depth) part place
  | .zeroOrMore expr => ∀ start attempts children, input.length - pos < attempts →
    (Script.ofRepetition input expr start attempts pos children).Includes
      (grammar.plain? input depth) part place
  | .ruleRef name => ∀ rule, grammar.rule? name = some rule →
    (Script.ofBody name rule.body pos).Includes (grammar.plain? input depth) part place
  | expr => (Script.ofExpr input expr pos).Includes (grammar.plain? input depth) part place

theorem Attempts.included (h : grammar.Attempts input expr pos part place)
    (hpos : pos ≤ input.length) (depth : Nat) :
    grammar.Included input depth expr pos part place := by
  induction h with
  | sequence_first => exact fun start children => Script.includes_call
  | sequence_rest first _ ih =>
    intro start children
    have hstop := (first.within hpos).2
    refine Script.includes_success hpos first fun node? => ?_
    simp only [Input.clamp_of_le hstop]
    exact ih hstop _ _
  | choice_first => exact fun index failure? => Script.includes_call
  | choice_rest first _ ih =>
    exact fun index failure? => Script.includes_failure hpos first fun failure => ih hpos _ _
  | zeroOrMore_round =>
    -- there are more attempts than atoms left, so there is one
    intro start attempts children hattempts
    cases attempts with
    | zero => omega
    | succ attempts => exact Script.includes_call
  | zeroOrMore_rest round hne _ ih =>
    intro start attempts children hattempts
    obtain ⟨hle, hstop⟩ := round.within hpos
    cases attempts with
    | zero => omega
    | succ attempts =>
      refine Script.includes_success hpos round fun node? => ?_
      simp only [if_neg hne, Input.clamp_of_le hstop]
      exact ih hstop _ _ _ (by omega)
  | oneOrMore_round => exact Script.includes_call
  | oneOrMore_rest round hne _ ih =>
    obtain ⟨hle, hstop⟩ := round.within hpos
    refine Script.includes_success hpos round fun node? => ?_
    simp only [if_neg hne, Input.clamp_of_le hstop]
    exact ih hstop _ _ _ (by omega)
  | optional_inner => exact Script.includes_call
  | @ruleRef_body name rule pos hr hbody =>
    intro rule' hr'
    cases hr.symm.trans hr'
    have hcall : ((Script.call rule.body pos .done).map
        (Context.ruleOutcome name pos none)).Includes (grammar.plain? input depth) rule.body pos :=
      Script.includes_call.map _
    unfold Script.ofBody
    split
    · next exprs hexprs => exact absurd hexprs (hbody exprs)
    · exact hcall
  | ruleRef_alternative hr hbody _ ih =>
    intro rule' hr'
    cases hr.symm.trans hr'
    rw [hbody]
    exact (ih hpos 0 none).map _

theorem Included.script {depth : Nat} (h : grammar.Included input depth expr pos part place)
    (he : ∀ name, expr ≠ .ruleRef name) :
    (Script.ofExpr input expr pos).Includes (grammar.plain? input depth) part place := by
  cases expr with
  | sequence exprs => exact h pos []
  | choice exprs => exact (h 0 none).map _
  | zeroOrMore expr => exact h pos _ [] (Nat.lt_succ_self _)
  | ruleRef name => exact absurd rfl (he name)
  | _ => exact h

/-! ## Plain evaluation -/

variable {depth : Nat} {answer : Answer Outcome}

/-- What is attempted for an answer is answered, and its failures are among those of the answer. -/
theorem Attempts.answered (h : grammar.Attempts input expr pos part place)
    (hpos : pos ≤ input.length) (ha : grammar.plain? input (depth + 1) expr pos = some answer) :
    ∃ first, grammar.plain? input depth part place = some first ∧
      ∀ failure ∈ first.raised, failure ∈ answer.raised := by
  have hincluded := h.included hpos depth
  rcases expr.ruleRef_or_not with ⟨name, rfl⟩ | he
  · cases hr : grammar.rule? name with
    | none =>
      cases h with
      | ruleRef_body hr' _ => exact nomatch hr.symm.trans hr'
      | ruleRef_alternative hr' _ _ => exact nomatch hr.symm.trans hr'
    | some rule =>
      rw [plain?_ruleRef hr] at ha
      obtain ⟨inner, hinner, rfl⟩ := Option.map_eq_some_iff.1 ha
      exact hincluded rule hr inner hinner
  · rw [plain?_succ he] at ha
    exact hincluded.script he answer ha

/-- **What is evaluated for an answer is answered**, with less depth. -/
theorem Evaluates.answered (h : grammar.Evaluates input expr pos part place)
    (hpos : pos ≤ input.length) (ha : grammar.plain? input (depth + 1) expr pos = some answer) :
    ∃ first, grammar.plain? input depth part place = some first := by
  cases h with
  | attempted h =>
    obtain ⟨first, hfirst, -⟩ := h.answered hpos ha
    exact ⟨first, hfirst⟩
  | followedBy =>
    rw [plain?_succ (by simp)] at ha
    obtain ⟨first, hfirst, -⟩ := Script.answer?_peek_cases ha
    exact ⟨first, hfirst⟩
  | notFollowedBy =>
    rw [plain?_succ (by simp)] at ha
    obtain ⟨first, hfirst, -⟩ := Script.answer?_peek_cases ha
    exact ⟨first, hfirst⟩

/-- An expression is evaluated by a script that does what it may, unless it refers to a rule that is
not defined. Beside the rules that the script enters, a reference enters its own. -/
theorem exists_script (grammar : Grammar) (expr : Expr) (hpos : pos ≤ input.length) :
    (∃ name, expr = .ruleRef name ∧ grammar.rule? name = none) ∨
      ∃ (script : Script Outcome) (own : List CacheKey),
        script.Obeys (Derived grammar input) (.of grammar input expr pos) ∧
        (∀ key ∈ own, expr = .ruleRef key.rule ∧ pos = key.position ∧
          grammar.contains key.rule = true) ∧
        ∀ depth, grammar.plain? input (depth + 1) expr pos =
          (script.answer? (grammar.plain? input depth)).map fun inner =>
            { inner with entered := own ++ inner.entered } := by
  rcases expr.ruleRef_or_not with ⟨name, rfl⟩ | he
  · cases hr : grammar.rule? name with
    | none => exact .inl ⟨name, rfl, hr⟩
    | some rule =>
      refine .inr ⟨_, [⟨pos, name⟩], Script.obeys_body hr hpos, ?_,
        fun depth => plain?_ruleRef hr pos⟩
      intro key hkey
      cases List.mem_singleton.1 hkey
      exact ⟨rfl, rfl, by rw [contains, hr]; rfl⟩
  · refine .inr ⟨_, [], Script.obeys_expr he hpos, nofun, fun depth => ?_⟩
    rw [plain?_succ he]
    exact Option.map_id'.symm

theorem derived_of_plain? {part : Expr} {place : Nat} {first : Answer Outcome}
    (h : grammar.plain? input depth part place = some first) :
    Derived grammar input part place first.value := Yields.derives ⟨depth, h⟩

theorem evaluates_of_licence
    (h : (Script.Licence.of grammar input expr pos).called part place ∨
      (Script.Licence.of grammar input expr pos).peeked part place) :
    grammar.Evaluates input expr pos part place := h.elim .attempted id

theorem exists_unanswered (hpos : pos ≤ input.length)
    (hn : grammar.plain? input (depth + 1) expr pos = none) :
    ∃ part place, grammar.Evaluates input expr pos part place ∧
      grammar.plain? input depth part place = none := by
  obtain ⟨name, rfl, hr⟩ | ⟨script, own, hobeys, -, hplain⟩ :=
    exists_script grammar expr hpos
  · rw [plain?_undefined hr] at hn
    cases hn
  · rw [hplain, Option.map_eq_none_iff] at hn
    obtain ⟨part, place, hpart, hnone⟩ :=
      hobeys.exists_unanswered (fun _ _ _ => derived_of_plain?) hn
    exact ⟨part, place, evaluates_of_licence hpart, hnone⟩

theorem entered_cases (hpos : pos ≤ input.length)
    (ha : grammar.plain? input (depth + 1) expr pos = some answer) {key : CacheKey}
    (hmem : key ∈ answer.entered) :
    (expr = .ruleRef key.rule ∧ pos = key.position ∧ grammar.contains key.rule = true) ∨
      ∃ part place first, grammar.Evaluates input expr pos part place ∧
        grammar.plain? input depth part place = some first ∧ key ∈ first.entered := by
  obtain ⟨name, rfl, hr⟩ | ⟨script, own, hobeys, hown, hplain⟩ :=
    exists_script grammar expr hpos
  · rw [plain?_undefined hr] at ha
    cases ha
    cases hmem
  · rw [hplain] at ha
    obtain ⟨inner, hinner, rfl⟩ := Option.map_eq_some_iff.1 ha
    rcases List.mem_append.1 hmem with hmem | hmem
    · exact .inl (hown key hmem)
    · obtain ⟨part, place, first, hpart, hfirst, hkey⟩ :=
        hobeys.entered_cases (fun _ _ _ => derived_of_plain?) hinner hmem
      exact .inr ⟨part, place, first, evaluates_of_licence hpart, hfirst, hkey⟩

end Grammar

namespace Script

theorem mem_raised_fail {f : Expr → Nat → Option (Answer Outcome)} {place : Nat}
    {expected : String} {answer : Answer Outcome}
    (h : (fail place expected).answer? f = some answer) :
    .single place expected ∈ answer.raised := by
  cases h
  exact List.mem_cons_self

theorem ofAtom_eq_fail {test : Char → Bool} {expected : String} {pos : Nat}
    (h : ∀ c, input.atom? pos = some c → test c = false) :
    ofAtom input test expected pos = fail pos expected := by
  refine if_neg fun hany => ?_
  obtain ⟨c, hc, htest⟩ := (Option.any_eq_true _ _).1 hany
  rw [h c hc] at htest
  cases htest

end Script

namespace Grammar

variable {expr : Expr} {pos depth : Nat} {answer : Answer Outcome}

theorem Fails.mem_raised {failure : Failure} (h : grammar.Fails input expr pos failure)
    (hpos : pos ≤ input.length) (ha : grammar.plain? input (depth + 1) expr pos = some answer) :
    failure ∈ answer.raised := by
  cases h with
  | @literal text pos agreed hagreed hdiffers =>
    have hle : input.agreement text.toList pos ≤ text.toList.length :=
      Input.agreement_le_length text.toList pos
    rw [Input.take_prefix_iff] at hagreed hdiffers
    -- the text agrees so far and no further, which is where the engine reports the failure
    have hsame : input.agreement text.toList pos = agreed := by omega
    have hne : agreed ≠ text.toList.length := by omega
    rw [plain?_succ (by simp)] at ha
    simp only [Script.ofExpr, Script.ofLiteral, hsame, if_neg hne] at ha
    exact Script.mem_raised_fail ha
  | oneIn h =>
    rw [plain?_succ (by simp), Script.ofExpr, Script.ofAtom_eq_fail h] at ha
    exact Script.mem_raised_fail ha
  | any h =>
    have hnone : ∀ c, input.atom? pos = some c → true = false := by
      intro c hc
      rw [h] at hc
      cases hc
    rw [plain?_succ (by simp), Script.ofExpr, Script.ofAtom_eq_fail hnone] at ha
    exact Script.mem_raised_fail ha
  | endOfInput h =>
    rw [plain?_succ (by simp), Script.ofExpr, Script.ofEnd, if_neg h] at ha
    exact Script.mem_raised_fail ha
  | regex h =>
    rw [plain?_succ (by simp), Script.ofExpr, Script.ofPattern, h] at ha
    exact Script.mem_raised_fail ha
  | followedBy h =>
    rw [plain?_succ (by simp)] at ha
    obtain ⟨first, hfirst, hcases⟩ := Script.answer?_peek_cases ha
    have hv := (Yields.derives ⟨depth, hfirst⟩ hpos).unique h hpos
    obtain ⟨name, hname, rfl⟩ | ⟨outcome, rest, houtcome, hrest, rfl⟩ := hcases
    · rw [hname] at hv
      cases hv
    · rw [houtcome] at hv
      obtain ⟨f, hf⟩ := Verdict.ofValue_eq_failure.1 hv
      cases hf
      have hmem := Script.mem_raised_fail hrest
      exact hmem
  | notFollowedBy h =>
    rw [plain?_succ (by simp)] at ha
    obtain ⟨first, hfirst, hcases⟩ := Script.answer?_peek_cases ha
    have hv := (Yields.derives ⟨depth, hfirst⟩ hpos).unique h hpos
    obtain ⟨name, hname, rfl⟩ | ⟨outcome, rest, houtcome, hrest, rfl⟩ := hcases
    · rw [hname] at hv
      cases hv
    · rw [houtcome] at hv
      obtain ⟨node?, hnode⟩ := Verdict.ofValue_eq_success.1 hv
      cases hnode
      have hmem := Script.mem_raised_fail hrest
      exact hmem

/-- **The failures of an answer** are its own and those of what is attempted for it. -/
theorem mem_raised_iff (hpos : pos ≤ input.length)
    (ha : grammar.plain? input (depth + 1) expr pos = some answer) (failure : Failure) :
    failure ∈ answer.raised ↔ grammar.Fails input expr pos failure ∨
      ∃ part place first, grammar.Attempts input expr pos part place ∧
        grammar.plain? input depth part place = some first ∧ failure ∈ first.raised := by
  constructor
  · intro hmem
    obtain ⟨name, rfl, hr⟩ | ⟨script, own, hobeys, -, hplain⟩ :=
      exists_script grammar expr hpos
    · rw [plain?_undefined hr] at ha
      cases ha
      cases hmem
    · rw [hplain] at ha
      obtain ⟨inner, hinner, rfl⟩ := Option.map_eq_some_iff.1 ha
      exact hobeys.raised_cases (fun _ _ _ => derived_of_plain?) hinner hmem
  · rintro (hfails | ⟨part, place, first, hattempts, hfirst, hmem⟩)
    · exact hfails.mem_raised hpos ha
    · obtain ⟨first', hfirst', hsub⟩ := hattempts.answered hpos ha
      cases hfirst.symm.trans hfirst'
      exact hsub failure hmem

end Grammar

end Packrat
