import Packrat.Grammar
import Packrat.Outcome
import Packrat.Proofs.Terminal

/-!
# The semantics of parsing expressions

`Grammar.Derives` says how an expression ends at a position: with a match up to a position, with a
failure, or at a rule that is not defined, by one or more rules for every kind of expression. No
cache, depth, tree or diagnosis occurs in it. A match does not go back and stays within the input
(`Derives.within`). Where it is known that an expression matches, its parts are told by an
equivalence, such as `derives_sequence_cons_iff`.
-/

set_option autoImplicit false

namespace Packrat

/-- How an expression ends. -/
inductive Verdict
  | success (stop : Nat)
  | failure
  /-- A rule was to be matched that is not defined. -/
  | undefined (name : String)
  deriving DecidableEq, Repr

/-- How an expression ended whose evaluation has this value. -/
def Verdict.ofValue : Except String Outcome → Verdict
  | .ok (.success stop _) => .success stop
  | .ok (.failure _) => .failure
  | .error name => .undefined name

/-- How an expression ended that the engine was asked to match, if it came to an end. -/
def Verdict.ofResult? : Except ParseError Outcome → Option Verdict
  | .ok (.success stop _) => some (.success stop)
  | .ok (.failure _) => some .failure
  | .error (.undefinedRule name) => some (.undefined name)
  | .error _ => none

/-- The expression ends at the position with the verdict. -/
inductive Grammar.Derives (grammar : Grammar) (input : Input) : Expr → Nat → Verdict → Prop
  | literal_success {text : String} {pos : Nat} (h : text.toList <+: input.rest pos) :
      Derives grammar input (.literal text) pos (.success (pos + text.toList.length))
  | literal_failure {text : String} {pos : Nat} (h : ¬ text.toList <+: input.rest pos) :
      Derives grammar input (.literal text) pos .failure
  | oneIn_success {cls : CharClass} {pos : Nat} {c : Char} (h : input.atom? pos = some c)
      (hc : cls.accepts c = true) : Derives grammar input (.oneIn cls) pos (.success (pos + 1))
  | oneIn_failure {cls : CharClass} {pos : Nat}
      (h : ∀ c, input.atom? pos = some c → cls.accepts c = false) :
      Derives grammar input (.oneIn cls) pos .failure
  | any_success {pos : Nat} {c : Char} (h : input.atom? pos = some c) :
      Derives grammar input .any pos (.success (pos + 1))
  | any_failure {pos : Nat} (h : input.atom? pos = none) : Derives grammar input .any pos .failure
  | endOfInput_success {pos : Nat} (h : pos = input.length) :
      Derives grammar input .endOfInput pos (.success pos)
  | endOfInput_failure {pos : Nat} (h : pos ≠ input.length) :
      Derives grammar input .endOfInput pos .failure
  | regex_success {pattern : Pattern} {pos length : Nat}
      (h : pattern.matchLength? (input.rest pos) = some length) :
      Derives grammar input (.regex pattern) pos (.success (pos + length))
  | regex_failure {pattern : Pattern} {pos : Nat}
      (h : pattern.matchLength? (input.rest pos) = none) :
      Derives grammar input (.regex pattern) pos .failure
  | sequence_nil {pos : Nat} : Derives grammar input (.sequence []) pos (.success pos)
  | sequence_cons {expr : Expr} {exprs : List Expr} {pos stop : Nat} {verdict : Verdict}
      (first : Derives grammar input expr pos (.success stop))
      (rest : Derives grammar input (.sequence exprs) stop verdict) :
      Derives grammar input (.sequence (expr :: exprs)) pos verdict
  | sequence_failure {expr : Expr} {exprs : List Expr} {pos : Nat}
      (first : Derives grammar input expr pos .failure) :
      Derives grammar input (.sequence (expr :: exprs)) pos .failure
  | sequence_undefined {expr : Expr} {exprs : List Expr} {pos : Nat} {name : String}
      (first : Derives grammar input expr pos (.undefined name)) :
      Derives grammar input (.sequence (expr :: exprs)) pos (.undefined name)
  | choice_nil {pos : Nat} : Derives grammar input (.choice []) pos .failure
  | choice_success {expr : Expr} {exprs : List Expr} {pos stop : Nat}
      (first : Derives grammar input expr pos (.success stop)) :
      Derives grammar input (.choice (expr :: exprs)) pos (.success stop)
  | choice_failure {expr : Expr} {exprs : List Expr} {pos : Nat} {verdict : Verdict}
      (first : Derives grammar input expr pos .failure)
      (rest : Derives grammar input (.choice exprs) pos verdict) :
      Derives grammar input (.choice (expr :: exprs)) pos verdict
  | choice_undefined {expr : Expr} {exprs : List Expr} {pos : Nat} {name : String}
      (first : Derives grammar input expr pos (.undefined name)) :
      Derives grammar input (.choice (expr :: exprs)) pos (.undefined name)
  | zeroOrMore_failure {expr : Expr} {pos : Nat}
      (round : Derives grammar input expr pos .failure) :
      Derives grammar input (.zeroOrMore expr) pos (.success pos)
  | zeroOrMore_empty {expr : Expr} {pos : Nat}
      (round : Derives grammar input expr pos (.success pos)) :
      Derives grammar input (.zeroOrMore expr) pos (.success pos)
  | zeroOrMore_more {expr : Expr} {pos stop : Nat} {verdict : Verdict}
      (round : Derives grammar input expr pos (.success stop)) (h : stop ≠ pos)
      (rest : Derives grammar input (.zeroOrMore expr) stop verdict) :
      Derives grammar input (.zeroOrMore expr) pos verdict
  | zeroOrMore_undefined {expr : Expr} {pos : Nat} {name : String}
      (round : Derives grammar input expr pos (.undefined name)) :
      Derives grammar input (.zeroOrMore expr) pos (.undefined name)
  | oneOrMore_failure {expr : Expr} {pos : Nat}
      (round : Derives grammar input expr pos .failure) :
      Derives grammar input (.oneOrMore expr) pos .failure
  | oneOrMore_empty {expr : Expr} {pos : Nat}
      (round : Derives grammar input expr pos (.success pos)) :
      Derives grammar input (.oneOrMore expr) pos (.success pos)
  | oneOrMore_more {expr : Expr} {pos stop : Nat} {verdict : Verdict}
      (round : Derives grammar input expr pos (.success stop)) (h : stop ≠ pos)
      (rest : Derives grammar input (.zeroOrMore expr) stop verdict) :
      Derives grammar input (.oneOrMore expr) pos verdict
  | oneOrMore_undefined {expr : Expr} {pos : Nat} {name : String}
      (round : Derives grammar input expr pos (.undefined name)) :
      Derives grammar input (.oneOrMore expr) pos (.undefined name)
  | optional_success {expr : Expr} {pos stop : Nat}
      (inner : Derives grammar input expr pos (.success stop)) :
      Derives grammar input (.optional expr) pos (.success stop)
  | optional_failure {expr : Expr} {pos : Nat}
      (inner : Derives grammar input expr pos .failure) :
      Derives grammar input (.optional expr) pos (.success pos)
  | optional_undefined {expr : Expr} {pos : Nat} {name : String}
      (inner : Derives grammar input expr pos (.undefined name)) :
      Derives grammar input (.optional expr) pos (.undefined name)
  | followedBy_success {expr : Expr} {pos stop : Nat}
      (inner : Derives grammar input expr pos (.success stop)) :
      Derives grammar input (.followedBy expr) pos (.success pos)
  | followedBy_failure {expr : Expr} {pos : Nat}
      (inner : Derives grammar input expr pos .failure) :
      Derives grammar input (.followedBy expr) pos .failure
  | followedBy_undefined {expr : Expr} {pos : Nat} {name : String}
      (inner : Derives grammar input expr pos (.undefined name)) :
      Derives grammar input (.followedBy expr) pos (.undefined name)
  | notFollowedBy_success {expr : Expr} {pos stop : Nat}
      (inner : Derives grammar input expr pos (.success stop)) :
      Derives grammar input (.notFollowedBy expr) pos .failure
  | notFollowedBy_failure {expr : Expr} {pos : Nat}
      (inner : Derives grammar input expr pos .failure) :
      Derives grammar input (.notFollowedBy expr) pos (.success pos)
  | notFollowedBy_undefined {expr : Expr} {pos : Nat} {name : String}
      (inner : Derives grammar input expr pos (.undefined name)) :
      Derives grammar input (.notFollowedBy expr) pos (.undefined name)
  | ruleRef_body {name : String} {rule : Rule} {pos : Nat} {verdict : Verdict}
      (h : grammar.rule? name = some rule)
      (body : Derives grammar input rule.body pos verdict) :
      Derives grammar input (.ruleRef name) pos verdict
  | ruleRef_undefined {name : String} {pos : Nat} (h : grammar.rule? name = none) :
      Derives grammar input (.ruleRef name) pos (.undefined name)

/-- A match does not go back and stays within the input. -/
def Verdict.Within (bound pos : Nat) : Verdict → Prop
  | .success stop => pos ≤ stop ∧ stop ≤ bound
  | .failure => True
  | .undefined _ => True

theorem Verdict.Within.of_le {bound pos stop : Nat} {verdict : Verdict} (hle : pos ≤ stop)
    (h : verdict.Within bound stop) : verdict.Within bound pos := by
  cases verdict with
  | success last =>
    obtain ⟨hstop, hbound⟩ := h
    exact ⟨Nat.le_trans hle hstop, hbound⟩
  | failure => trivial
  | undefined name => trivial

namespace Grammar

variable {grammar : Grammar} {input : Input} {expr : Expr} {pos : Nat} {verdict : Verdict}

theorem Derives.within (h : grammar.Derives input expr pos verdict) (hpos : pos ≤ input.length) :
    verdict.Within input.length pos := by
  induction h with
  | @literal_success text pos h =>
    have hlength := h.length_le
    rw [Input.rest_length] at hlength
    exact ⟨Nat.le_add_right _ _, by omega⟩
  | oneIn_success h _ => exact ⟨Nat.le_add_right _ _, Input.lt_length_of_atom? h⟩
  | any_success h => exact ⟨Nat.le_add_right _ _, Input.lt_length_of_atom? h⟩
  | @regex_success pattern pos length h =>
    have hlength := Pattern.matchLength?_le h
    rw [Input.rest_length] at hlength
    exact ⟨Nat.le_add_right _ _, by omega⟩
  | sequence_cons _ _ ihfirst ihrest =>
    obtain ⟨hle, hstop⟩ := ihfirst hpos
    exact (ihrest hstop).of_le hle
  | choice_success _ ih => exact ih hpos
  | choice_failure _ _ _ ih => exact ih hpos
  | zeroOrMore_more _ _ _ ihround ihrest =>
    obtain ⟨hle, hstop⟩ := ihround hpos
    exact (ihrest hstop).of_le hle
  | oneOrMore_more _ _ _ ihround ihrest =>
    obtain ⟨hle, hstop⟩ := ihround hpos
    exact (ihrest hstop).of_le hle
  | optional_success _ ih => exact ih hpos
  | ruleRef_body _ _ ih => exact ih hpos
  | _ => first | exact trivial | exact ⟨Nat.le_refl _, hpos⟩

/-! ## Matches construct by construct -/

section
variable {exprs : List Expr} {stop : Nat} {name : String} {rule : Rule}

theorem derives_endOfInput_iff :
    grammar.Derives input .endOfInput pos (.success stop) ↔ pos = input.length ∧ stop = pos := by
  constructor
  · rintro (_ | _)
    next h => exact ⟨h, rfl⟩
  · rintro ⟨h, rfl⟩
    exact .endOfInput_success h

theorem derives_sequence_nil_iff :
    grammar.Derives input (.sequence []) pos (.success stop) ↔ stop = pos := by
  constructor
  · rintro ⟨⟩
    rfl
  · rintro rfl
    exact .sequence_nil

theorem derives_sequence_cons_iff :
    grammar.Derives input (.sequence (expr :: exprs)) pos (.success stop) ↔
      ∃ middle, grammar.Derives input expr pos (.success middle) ∧
        grammar.Derives input (.sequence exprs) middle (.success stop) := by
  constructor
  · intro h
    cases h with
    | sequence_cons first rest => exact ⟨_, first, rest⟩
  · rintro ⟨middle, first, rest⟩
    exact .sequence_cons first rest

theorem not_derives_choice_nil :
    ¬ grammar.Derives input (.choice []) pos (.success stop) := nofun

theorem derives_choice_cons_iff :
    grammar.Derives input (.choice (expr :: exprs)) pos (.success stop) ↔
      grammar.Derives input expr pos (.success stop) ∨
        grammar.Derives input expr pos .failure ∧
          grammar.Derives input (.choice exprs) pos (.success stop) := by
  constructor
  · intro h
    cases h with
    | choice_success first => exact .inl first
    | choice_failure first rest => exact .inr ⟨first, rest⟩
  · rintro (first | ⟨first, rest⟩)
    · exact .choice_success first
    · exact .choice_failure first rest

theorem derives_notFollowedBy_iff :
    grammar.Derives input (.notFollowedBy expr) pos (.success stop) ↔
      grammar.Derives input expr pos .failure ∧ stop = pos := by
  constructor
  · intro h
    cases h with
    | notFollowedBy_failure inner => exact ⟨inner, rfl⟩
  · rintro ⟨inner, rfl⟩
    exact .notFollowedBy_failure inner

theorem derives_ruleRef_iff (hr : grammar.rule? name = some rule) :
    grammar.Derives input (.ruleRef name) pos verdict ↔
      grammar.Derives input rule.body pos verdict := by
  constructor
  · intro h
    cases h with
    | ruleRef_body hr' body =>
      cases hr.symm.trans hr'
      exact body
    | ruleRef_undefined hr' => cases hr.symm.trans hr'
  · exact .ruleRef_body hr

theorem Derives.stop_eq_length
    (h : grammar.Derives input (.sequence (exprs ++ [.endOfInput])) pos verdict)
    (hv : verdict = .success stop) : stop = input.length := by
  subst hv
  induction exprs generalizing pos with
  | nil =>
    obtain ⟨middle, hend, hrest⟩ := derives_sequence_cons_iff.1 h
    obtain ⟨hlength, hmiddle⟩ := derives_endOfInput_iff.1 hend
    rw [derives_sequence_nil_iff.1 hrest, hmiddle, hlength]
  | cons expr exprs ih =>
    obtain ⟨middle, -, hrest⟩ := derives_sequence_cons_iff.1 h
    exact ih hrest

end

end Grammar

end Packrat
