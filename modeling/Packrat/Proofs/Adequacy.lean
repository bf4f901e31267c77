import Packrat.Proofs.Coverage
import Packrat.Proofs.Invariant
import Packrat.Proofs.Semantics
import Packrat.Sample.Grammars

/-!
# The engine follows the semantics

Plain evaluation comes to the verdict that the semantics derives, construct by construct: what a
script makes of derived verdicts is derived (`Grammar.Yields.derives`), and what is derived some
answer yields (`Grammar.Derives.yields`). With what is known of caches and depth this says how the
engine and the semantics agree (`Context.matchExpr_adequate`).
-/

set_option autoImplicit false

namespace Packrat

variable {grammar : Grammar} {input : Input}

/-! ## What is answered is derived -/

/-- The verdict of an evaluation within the input is derived. -/
def Derived (grammar : Grammar) (input : Input) (expr : Expr) (pos : Nat)
    (value : Except String Outcome) : Prop :=
  pos ≤ input.length → grammar.Derives input expr pos (.ofValue value)

theorem Verdict.ofValue_ruleOutcome (name : String) (pos : Nat) (alternative : Option Nat)
    (outcome : Outcome) :
    Verdict.ofValue (.ok (Context.ruleOutcome name pos alternative outcome)) =
      .ofValue (.ok outcome) := by
  cases outcome <;> rfl

namespace Script

theorem Ensures.imp {α : Type} {calls : Expr → Nat → Except String Outcome → Prop}
    {post post' : Except String α → Prop} (hpost : ∀ value, post value → post' value)
    {script : Script α} (h : script.Ensures calls post) : script.Ensures calls post' :=
  h.mono (fun _ _ _ hcalls => hcalls) hpost

theorem derived_of_le {script : Script Outcome} {expr : Expr} {pos : Nat}
    (h : pos ≤ input.length → script.Ensures (Derived grammar input)
      fun value => grammar.Derives input expr pos (.ofValue value)) :
    script.Ensures (Derived grammar input) (Derived grammar input expr pos) := by
  by_cases hpos : pos ≤ input.length
  · exact (h hpos).imp fun value hvalue _ => hvalue
  · exact .of_forall (fun value hpos' => absurd hpos' hpos) script

variable {pos : Nat}

theorem derived_literal (text : String) :
    (ofLiteral input text pos).Ensures (Derived grammar input)
      fun value => grammar.Derives input (.literal text) pos (.ofValue value) := by
  unfold ofLiteral
  simp only
  split
  · next h =>
    rw [h]
    exact .literal_success ((Input.agreement_eq_length_iff _ _).1 h)
  · next h =>
    refine .literal_failure fun hprefix => ?_
    exact h ((Input.agreement_eq_length_iff _ _).2 hprefix)

theorem derived_atom {expr : Expr} {test : Char → Bool} {expected : String}
    (hsuccess : ∀ c, input.atom? pos = some c → test c = true →
      grammar.Derives input expr pos (.success (pos + 1)))
    (hfailure : (∀ c, input.atom? pos = some c → test c = false) →
      grammar.Derives input expr pos .failure) :
    (ofAtom input test expected pos).Ensures (Derived grammar input)
      fun value => grammar.Derives input expr pos (.ofValue value) := by
  unfold ofAtom
  split
  · next h =>
    obtain ⟨c, hc, htest⟩ := (Option.any_eq_true _ _).1 h
    exact hsuccess c hc htest
  · next h =>
    refine hfailure fun c hc => ?_
    rw [hc] at h
    exact Bool.eq_false_iff.2 h

theorem derived_end : (ofEnd input pos).Ensures (Derived grammar input)
    fun value => grammar.Derives input .endOfInput pos (.ofValue value) := by
  unfold ofEnd
  split
  · next h => exact .endOfInput_success h
  · next h => exact .endOfInput_failure h

theorem derived_pattern (pattern : Pattern) :
    (ofPattern input pattern pos).Ensures (Derived grammar input)
      fun value => grammar.Derives input (.regex pattern) pos (.ofValue value) := by
  unfold ofPattern
  split
  · next h => exact .regex_success h
  · next h => exact .regex_failure h

theorem derived_sequence (hpos : pos ≤ input.length) (start : Nat) (exprs : List Expr)
    (children : List Node) :
    (ofSequence input start exprs pos children).Ensures (Derived grammar input)
      fun value => grammar.Derives input (.sequence exprs) pos (.ofValue value) := by
  induction exprs generalizing pos children with
  | nil => exact .sequence_nil
  | cons expr exprs ih =>
    refine ⟨fun outcome ho => ?_, fun name hn => .sequence_undefined (hn hpos)⟩
    have hfirst := ho hpos
    cases outcome with
    | success stop node? =>
      have hstop := (hfirst.within hpos).2
      simp only [Input.clamp_of_le hstop]
      exact (ih hstop _).imp fun value hrest => .sequence_cons hfirst hrest
    | failure failure => exact .sequence_failure hfirst

theorem derived_choice (hpos : pos ≤ input.length) (exprs : List Expr) (index : Nat)
    (failure? : Option Failure) :
    (ofChoice pos exprs index failure?).Ensures (Derived grammar input)
      fun value => grammar.Derives input (.choice exprs) pos (.ofValue (value.map Prod.fst)) := by
  induction exprs generalizing index failure? with
  | nil => exact .choice_nil
  | cons expr exprs ih =>
    refine ⟨fun outcome ho => ?_, fun name hn => .choice_undefined (hn hpos)⟩
    have hfirst := ho hpos
    cases outcome with
    | success stop node? => exact .choice_success hfirst
    | failure failure =>
      exact (ih _ _).imp fun value hrest => .choice_failure hfirst hrest

/-- There are more attempts than atoms left, so a repetition ends of itself. -/
theorem derived_repetition (hpos : pos ≤ input.length) (expr : Expr) (start : Nat)
    {attempts : Nat} (hattempts : input.length - pos < attempts) (children : List Node) :
    (ofRepetition input expr start attempts pos children).Ensures (Derived grammar input)
      fun value => grammar.Derives input (.zeroOrMore expr) pos (.ofValue value) := by
  induction attempts generalizing pos children with
  | zero => omega
  | succ attempts ih =>
    refine ⟨fun outcome ho => ?_, fun name hn => .zeroOrMore_undefined (hn hpos)⟩
    have hround := ho hpos
    cases outcome with
    | success stop node? =>
      simp only
      split
      · next hstop =>
        subst hstop
        exact .zeroOrMore_empty hround
      · next hne =>
        obtain ⟨hle, hstop⟩ := hround.within hpos
        rw [Input.clamp_of_le hstop]
        exact (ih hstop (by omega) _).imp fun value hrest => .zeroOrMore_more hround hne hrest
    | failure failure => exact .zeroOrMore_failure hround

/-- **What a script makes of derived verdicts is derived.** -/
theorem derived_expr (expr : Expr) (pos : Nat) (he : ∀ name, expr ≠ .ruleRef name) :
    (ofExpr input expr pos).Ensures (Derived grammar input) (Derived grammar input expr pos) := by
  refine derived_of_le fun hpos => ?_
  cases expr with
  | literal text => exact derived_literal text
  | oneIn cls => exact derived_atom (fun _ => .oneIn_success) .oneIn_failure
  | any =>
    refine derived_atom (fun c hc _ => .any_success hc) fun h => .any_failure ?_
    cases hc : input.atom? pos with
    | none => rfl
    | some c => cases h c hc
  | endOfInput => exact derived_end
  | regex pattern => exact derived_pattern pattern
  | sequence exprs => exact derived_sequence hpos pos exprs []
  | choice exprs => exact ensures_map.2 (derived_choice hpos exprs 0 none)
  | zeroOrMore expr => exact derived_repetition hpos expr pos (by omega) []
  | oneOrMore expr =>
    refine ⟨fun outcome ho => ?_, fun name hn => .oneOrMore_undefined (hn hpos)⟩
    have hround := ho hpos
    cases outcome with
    | success stop node? =>
      simp only
      split
      · next hstop =>
        subst hstop
        exact .oneOrMore_empty hround
      · next hne =>
        obtain ⟨hle, hstop⟩ := hround.within hpos
        rw [Input.clamp_of_le hstop]
        exact (derived_repetition hstop expr pos (by omega) _).imp
          fun value hrest => .oneOrMore_more hround hne hrest
    | failure failure => exact .oneOrMore_failure hround
  | optional expr =>
    refine ⟨fun outcome ho => ?_, fun name hn => .optional_undefined (hn hpos)⟩
    have hinner := ho hpos
    cases outcome with
    | success stop node? => exact .optional_success hinner
    | failure failure => exact .optional_failure hinner
  | followedBy expr =>
    refine ⟨fun outcome ho => ?_, fun name hn => .followedBy_undefined (hn hpos)⟩
    have hinner := ho hpos
    cases outcome with
    | success stop node? => exact .followedBy_success hinner
    | failure failure => exact .followedBy_failure hinner
  | notFollowedBy expr =>
    refine ⟨fun outcome ho => ?_, fun name hn => .notFollowedBy_undefined (hn hpos)⟩
    have hinner := ho hpos
    cases outcome with
    | success stop node? => exact .notFollowedBy_success hinner
    | failure failure => exact .notFollowedBy_failure hinner
  | ruleRef name => exact absurd rfl (he name)

theorem derived_body {name : String} {rule : Rule} (hr : grammar.rule? name = some rule)
    (pos : Nat) :
    (ofBody name rule.body pos).Ensures (Derived grammar input)
      (Derived grammar input (.ruleRef name) pos) := by
  refine derived_of_le fun hpos => ensures_body (fun exprs hbody => ?_) (fun outcome ho => ?_)
    fun _ hn => .ruleRef_body hr (hn hpos)
  · refine (derived_choice hpos exprs 0 none).imp fun value hvalue => .ruleRef_body hr ?_
    rw [hbody]
    rcases value with undefined | ⟨outcome, index⟩
    · exact hvalue
    · show grammar.Derives input (.choice exprs) pos
        (.ofValue (.ok (Context.ruleOutcome name pos (Context.recordedIndex index) outcome)))
      rw [Verdict.ofValue_ruleOutcome]
      exact hvalue
  · refine .ruleRef_body hr ?_
    rw [Verdict.ofValue_ruleOutcome]
    exact ho hpos

end Script

/-- **The verdict of an answer is derived.** -/
theorem Grammar.Yields.derives {expr : Expr} {pos : Nat} {answer : Answer Outcome}
    (h : grammar.Yields input expr pos answer) (hpos : pos ≤ input.length) :
    grammar.Derives input expr pos (.ofValue answer.value) := by
  have hderived : Derived grammar input expr pos answer.value :=
    h.induction Script.derived_expr (fun _ _ pos hr => Script.derived_body hr pos)
      fun _ _ hr _ => .ruleRef_undefined hr
  exact hderived hpos

/-! ## What is derived is answered -/

/-- The script has an answer with the verdict. -/
def Script.EndsIn (grammar : Grammar) (input : Input) (script : Script Outcome)
    (verdict : Verdict) : Prop :=
  ∃ answer, script.Yields grammar input answer ∧ Verdict.ofValue answer.value = verdict

/-- The expression has an answer with the verdict. -/
def Grammar.EndsIn (grammar : Grammar) (input : Input) (expr : Expr) (pos : Nat)
    (verdict : Verdict) : Prop :=
  ∃ answer, grammar.Yields input expr pos answer ∧ Verdict.ofValue answer.value = verdict

theorem Verdict.ofValue_eq_success {value : Except String Outcome} {stop : Nat} :
    Verdict.ofValue value = .success stop ↔ ∃ node?, value = .ok (.success stop node?) := by
  rcases value with name | ⟨stop', node?⟩ | failure <;> simp [Verdict.ofValue]

theorem Verdict.ofValue_eq_failure {value : Except String Outcome} :
    Verdict.ofValue value = .failure ↔ ∃ failure, value = .ok (.failure failure) := by
  rcases value with name | ⟨stop', node?⟩ | failure <;> simp [Verdict.ofValue]

theorem Verdict.ofValue_eq_undefined {value : Except String Outcome} {name : String} :
    Verdict.ofValue value = .undefined name ↔ value = .error name := by
  rcases value with name | ⟨stop', node?⟩ | failure <;> simp [Verdict.ofValue]

namespace Script

variable {expr : Expr} {pos stop : Nat} {verdict : Verdict} {name : String}
  {next : Outcome → Script Outcome} {after : Bool → Script Outcome}

theorem endsIn_done {outcome : Outcome} (h : Verdict.ofValue (.ok outcome) = verdict) :
    (done outcome).EndsIn grammar input verdict :=
  ⟨_, .done outcome, h⟩

theorem endsIn_fail (expected : String) : (fail pos expected).EndsIn grammar input .failure :=
  ⟨_, .note (.done _), rfl⟩

theorem endsIn_call_success (h : grammar.EndsIn input expr pos (.success stop))
    (hnext : ∀ node?, (next (.success stop node?)).EndsIn grammar input verdict) :
    (call expr pos next).EndsIn grammar input verdict := by
  obtain ⟨first, hfirst, hv⟩ := h
  obtain ⟨node?, hv⟩ := Verdict.ofValue_eq_success.1 hv
  obtain ⟨rest, hrest, hverdict⟩ := hnext node?
  exact ⟨_, .call hfirst hv hrest, hverdict⟩

theorem endsIn_call_failure (h : grammar.EndsIn input expr pos .failure)
    (hnext : ∀ failure, (next (.failure failure)).EndsIn grammar input verdict) :
    (call expr pos next).EndsIn grammar input verdict := by
  obtain ⟨first, hfirst, hv⟩ := h
  obtain ⟨failure, hv⟩ := Verdict.ofValue_eq_failure.1 hv
  obtain ⟨rest, hrest, hverdict⟩ := hnext failure
  exact ⟨_, .call hfirst hv hrest, hverdict⟩

theorem endsIn_call_undefined (h : grammar.EndsIn input expr pos (.undefined name)) :
    (call expr pos next).EndsIn grammar input (.undefined name) := by
  obtain ⟨first, hfirst, hv⟩ := h
  have hv := Verdict.ofValue_eq_undefined.1 hv
  exact ⟨_, .call_error hfirst hv, rfl⟩

theorem endsIn_peek_success (h : grammar.EndsIn input expr pos (.success stop))
    (hafter : (after true).EndsIn grammar input verdict) :
    (peek expr pos after).EndsIn grammar input verdict := by
  obtain ⟨first, hfirst, hv⟩ := h
  obtain ⟨node?, hv⟩ := Verdict.ofValue_eq_success.1 hv
  obtain ⟨rest, hrest, hverdict⟩ := hafter
  exact ⟨_, .peek hfirst hv hrest, hverdict⟩

theorem endsIn_peek_failure (h : grammar.EndsIn input expr pos .failure)
    (hafter : (after false).EndsIn grammar input verdict) :
    (peek expr pos after).EndsIn grammar input verdict := by
  obtain ⟨first, hfirst, hv⟩ := h
  obtain ⟨failure, hv⟩ := Verdict.ofValue_eq_failure.1 hv
  obtain ⟨rest, hrest, hverdict⟩ := hafter
  exact ⟨_, .peek hfirst hv hrest, hverdict⟩

theorem endsIn_peek_undefined (h : grammar.EndsIn input expr pos (.undefined name)) :
    (peek expr pos after).EndsIn grammar input (.undefined name) := by
  obtain ⟨first, hfirst, hv⟩ := h
  have hv := Verdict.ofValue_eq_undefined.1 hv
  exact ⟨_, .peek_error hfirst hv, rfl⟩

end Script

/-- The script of the expression ends in the verdict, also where it goes on after earlier parts of
a sequence, alternatives of a choice or rounds of a repetition. -/
def Grammar.Realized (grammar : Grammar) (input : Input) (expr : Expr) (pos : Nat)
    (verdict : Verdict) : Prop :=
  match expr with
  | .sequence exprs => ∀ start children,
    (Script.ofSequence input start exprs pos children).EndsIn grammar input verdict
  | .choice exprs => ∀ index failure? (f : Outcome × Nat → Outcome),
    (∀ value, Verdict.ofValue (.ok (f value)) = .ofValue (.ok value.1)) →
      ((Script.ofChoice pos exprs index failure?).map f).EndsIn grammar input verdict
  | .zeroOrMore expr => ∀ start attempts children, input.length - pos < attempts →
    (Script.ofRepetition input expr start attempts pos children).EndsIn grammar input verdict
  | .ruleRef name => grammar.EndsIn input (.ruleRef name) pos verdict
  | expr => (Script.ofExpr input expr pos).EndsIn grammar input verdict

namespace Grammar

variable {expr : Expr} {pos : Nat} {verdict : Verdict}

theorem EndsIn.of_script (he : ∀ name, expr ≠ .ruleRef name)
    (h : (Script.ofExpr input expr pos).EndsIn grammar input verdict) :
    grammar.EndsIn input expr pos verdict := by
  obtain ⟨answer, hy, hv⟩ := h
  exact ⟨answer, .of_script he hy, hv⟩

theorem Realized.endsIn (h : grammar.Realized input expr pos verdict) :
    grammar.EndsIn input expr pos verdict := by
  cases expr with
  | sequence exprs => exact .of_script nofun (h pos [])
  | choice exprs => exact .of_script nofun (h 0 none Prod.fst fun _ => rfl)
  | zeroOrMore expr => exact .of_script nofun (h pos _ [] (Nat.lt_succ_self _))
  | ruleRef name => exact h
  | _ => exact .of_script nofun h

theorem Realized.body {name : String} {rule : Rule} (hr : grammar.rule? name = some rule)
    (h : grammar.Realized input rule.body pos verdict) :
    grammar.EndsIn input (.ruleRef name) pos verdict := by
  have called : (Script.call rule.body pos fun outcome =>
      .done (Context.ruleOutcome name pos none outcome)).EndsIn grammar input verdict := by
    have hbody := h.endsIn
    cases verdict with
    | success stop =>
      exact Script.endsIn_call_success hbody fun node? => Script.endsIn_done rfl
    | failure => exact Script.endsIn_call_failure hbody fun failure => Script.endsIn_done rfl
    | undefined name' => exact Script.endsIn_call_undefined hbody
  have hscript : (Script.ofBody name rule.body pos).EndsIn grammar input verdict := by
    cases hbody : rule.body with
    | choice exprs =>
      rw [hbody] at h
      exact h 0 none _ fun value => Verdict.ofValue_ruleOutcome name pos _ value.1
    | _ =>
      rw [hbody] at called
      exact called
  obtain ⟨answer, hy, hv⟩ := hscript
  exact ⟨_, .of_body hr hy, hv⟩

/-- A repetition makes at least one attempt. -/
theorem Realized.of_round {round : Expr}
    (h : ∀ start attempts children, input.length - pos ≤ attempts →
      (Script.ofRepetition input round start (attempts + 1) pos children).EndsIn grammar input
        verdict) :
    grammar.Realized input (.zeroOrMore round) pos verdict := by
  intro start attempts children hattempts
  cases attempts with
  | zero => omega
  | succ attempts => exact h start attempts children (by omega)

/-- **What is derived, scripts end in**, construct by construct. -/
theorem Derives.realized (h : grammar.Derives input expr pos verdict)
    (hpos : pos ≤ input.length) : grammar.Realized input expr pos verdict := by
  induction h with
  | literal_success h =>
    have hagree := (Input.agreement_eq_length_iff _ _).2 h
    simp only [Realized, Script.ofExpr, Script.ofLiteral, hagree, if_true]
    exact Script.endsIn_done rfl
  | literal_failure h =>
    have hagree := mt (Input.agreement_eq_length_iff _ _).1 h
    simp only [Realized, Script.ofExpr, Script.ofLiteral, hagree, if_false]
    exact Script.endsIn_fail _
  | oneIn_success h hc =>
    simp only [Realized, Script.ofExpr, Script.ofAtom, h, Option.any_some, hc, if_true]
    exact Script.endsIn_done rfl
  | @oneIn_failure cls pos h =>
    have hany : ¬ (input.atom? pos).any cls.accepts := by
      intro hany
      obtain ⟨c, hc, haccepts⟩ := (Option.any_eq_true _ _).1 hany
      rw [h c hc] at haccepts
      cases haccepts
    simp only [Realized, Script.ofExpr, Script.ofAtom, hany]
    exact Script.endsIn_fail _
  | any_success h =>
    simp only [Realized, Script.ofExpr, Script.ofAtom, h, Option.any_some, if_true]
    exact Script.endsIn_done rfl
  | any_failure h =>
    simp only [Realized, Script.ofExpr, Script.ofAtom, h, Option.any_none]
    exact Script.endsIn_fail _
  | endOfInput_success h =>
    simp only [Realized, Script.ofExpr, Script.ofEnd, if_pos h]
    exact Script.endsIn_done rfl
  | endOfInput_failure h =>
    simp only [Realized, Script.ofExpr, Script.ofEnd, if_neg h]
    exact Script.endsIn_fail _
  | regex_success h =>
    simp only [Realized, Script.ofExpr, Script.ofPattern, h]
    exact Script.endsIn_done rfl
  | regex_failure h =>
    simp only [Realized, Script.ofExpr, Script.ofPattern, h]
    exact Script.endsIn_fail _
  | sequence_nil => exact fun start children => Script.endsIn_done rfl
  | sequence_cons first _ ihfirst ihrest =>
    intro start children
    -- the engine clamps where a match stops, which changes nothing within the input
    have hstop := (first.within hpos).2
    refine Script.endsIn_call_success (ihfirst hpos).endsIn fun node? => ?_
    simp only [Input.clamp_of_le hstop]
    exact ihrest hstop _ _
  | sequence_failure _ ih =>
    exact fun start children =>
      Script.endsIn_call_failure (ih hpos).endsIn fun failure => Script.endsIn_done rfl
  | sequence_undefined _ ih =>
    exact fun start children => Script.endsIn_call_undefined (ih hpos).endsIn
  | choice_nil =>
    intro index failure? f hf
    exact Script.endsIn_done (hf _)
  | choice_success _ ih =>
    intro index failure? f hf
    exact Script.endsIn_call_success (ih hpos).endsIn fun node? => Script.endsIn_done (hf _)
  | choice_failure _ _ ihfirst ihrest =>
    intro index failure? f hf
    exact Script.endsIn_call_failure (ihfirst hpos).endsIn fun failure => ihrest hpos _ _ f hf
  | choice_undefined _ ih =>
    exact fun index failure? f hf => Script.endsIn_call_undefined (ih hpos).endsIn
  | zeroOrMore_failure _ ih =>
    refine .of_round fun start attempts children hattempts => ?_
    exact Script.endsIn_call_failure (ih hpos).endsIn fun failure => Script.endsIn_done rfl
  | zeroOrMore_empty _ ih =>
    refine .of_round fun start attempts children hattempts => ?_
    refine Script.endsIn_call_success (ih hpos).endsIn fun node? => ?_
    simp only [if_true]
    exact Script.endsIn_done rfl
  | zeroOrMore_more round hne _ ihround ihrest =>
    -- a round that consumes something leaves at least as many attempts as atoms
    refine .of_round fun start attempts children hattempts => ?_
    obtain ⟨hle, hstop⟩ := round.within hpos
    refine Script.endsIn_call_success (ihround hpos).endsIn fun node? => ?_
    simp only [if_neg hne, Input.clamp_of_le hstop]
    exact ihrest hstop _ _ _ (by omega)
  | zeroOrMore_undefined _ ih =>
    refine .of_round fun start attempts children hattempts => ?_
    exact Script.endsIn_call_undefined (ih hpos).endsIn
  | oneOrMore_failure _ ih =>
    exact Script.endsIn_call_failure (ih hpos).endsIn fun failure => Script.endsIn_done rfl
  | oneOrMore_empty _ ih =>
    refine Script.endsIn_call_success (ih hpos).endsIn fun node? => ?_
    simp only [if_true]
    exact Script.endsIn_done rfl
  | oneOrMore_more round hne _ ihround ihrest =>
    obtain ⟨hle, hstop⟩ := round.within hpos
    refine Script.endsIn_call_success (ihround hpos).endsIn fun node? => ?_
    simp only [if_neg hne, Input.clamp_of_le hstop]
    exact ihrest hstop _ _ _ (by omega)
  | oneOrMore_undefined _ ih => exact Script.endsIn_call_undefined (ih hpos).endsIn
  | optional_success _ ih =>
    exact Script.endsIn_call_success (ih hpos).endsIn fun node? => Script.endsIn_done rfl
  | optional_failure _ ih =>
    exact Script.endsIn_call_failure (ih hpos).endsIn fun failure => Script.endsIn_done rfl
  | optional_undefined _ ih => exact Script.endsIn_call_undefined (ih hpos).endsIn
  | followedBy_success _ ih =>
    exact Script.endsIn_peek_success (ih hpos).endsIn (Script.endsIn_done rfl)
  | followedBy_failure _ ih =>
    exact Script.endsIn_peek_failure (ih hpos).endsIn (Script.endsIn_fail _)
  | followedBy_undefined _ ih => exact Script.endsIn_peek_undefined (ih hpos).endsIn
  | notFollowedBy_success _ ih =>
    exact Script.endsIn_peek_success (ih hpos).endsIn (Script.endsIn_fail _)
  | notFollowedBy_failure _ ih =>
    exact Script.endsIn_peek_failure (ih hpos).endsIn (Script.endsIn_done rfl)
  | notFollowedBy_undefined _ ih => exact Script.endsIn_peek_undefined (ih hpos).endsIn
  | ruleRef_body hr _ ih => exact (ih hpos).body hr
  | ruleRef_undefined hr => exact ⟨_, .of_undefined hr, rfl⟩

theorem Derives.endsIn (h : grammar.Derives input expr pos verdict) (hpos : pos ≤ input.length) :
    grammar.EndsIn input expr pos verdict := (h.realized hpos).endsIn

theorem Derives.unique {verdict' : Verdict} (h : grammar.Derives input expr pos verdict)
    (h' : grammar.Derives input expr pos verdict') (hpos : pos ≤ input.length) :
    verdict = verdict' := by
  obtain ⟨answer, hy, rfl⟩ := h.endsIn hpos
  obtain ⟨answer', hy', rfl⟩ := h'.endsIn hpos
  rw [hy.unique hy']

end Grammar

/-! ## The engine and the semantics -/

theorem Verdict.ofResult?_result (answer : Answer Outcome) :
    Verdict.ofResult? answer.result = some (.ofValue answer.value) := by
  unfold Answer.result
  rcases answer.value with name | ⟨stop, node?⟩ | failure <;> rfl

namespace Context

/-- **The engine follows the semantics.** Over an empty cache, what a match ends with, unless it is
exhausted, is derived; and what is derived every match ends with that has enough depth, with
memoization or without. -/
theorem matchExpr_adequate (grammar : Grammar) (input : Input) (expr : Expr)
    (cursor : Cursor input) :
    let result (options : Options) :=
      (matchExpr ⟨grammar, input, options⟩ expr cursor {}).1
    (∀ options, (∀ limit place, result options ≠ .error (.recursionLimit limit place)) →
      ∃ verdict, Verdict.ofResult? (result options) = some verdict ∧
        grammar.Derives input expr cursor.position verdict) ∧
    ∀ verdict, grammar.Derives input expr cursor.position verdict →
      ∃ depth, ∀ options : Options, depth ≤ options.maxDepth →
        Verdict.ofResult? (result options) = some verdict := by
  intro result
  have hempty : ({} : Session).cache.Sound grammar input := Cache.sound_empty
  refine ⟨fun options h => ?_, fun verdict h => ?_⟩
  · have hx : ¬ Exhausted (result options) := by
      rintro ⟨limit, place, he⟩
      exact h limit place he
    obtain ⟨answer, hy, hr, -⟩ := evaluate_yields hempty hx
    have hr : result options = answer.result := hr
    exact ⟨_, hr ▸ Verdict.ofResult?_result answer, hy.derives cursor.le_length⟩
  · obtain ⟨answer, hy, rfl⟩ := h.endsIn cursor.le_length
    obtain ⟨depth, hreturns⟩ := evaluate_of_yields hy
    refine ⟨depth, fun options hd => ?_⟩
    have hr : result options = answer.result :=
      (hreturns options.maxDepth hd options {} hempty).1
    rw [hr, Verdict.ofResult?_result]

/-- The keyword is not followed by more of an identifier. -/
theorem matchExpr_adequate_keyword :
    Sample.identifiers.Derives (.ofString "if ") (.ruleRef "keyword") 0 (.success 2) := by
  have h := (matchExpr_adequate Sample.identifiers (.ofString "if ") (.ruleRef "keyword") .start).1
    {} (by rintro limit place h; cases h)
  obtain ⟨verdict, hv, hd⟩ := h
  cases hv
  exact hd

end Context

end Packrat
