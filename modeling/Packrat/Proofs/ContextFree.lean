import Packrat.Proofs.Semantics

/-!
# Grammars read as context-free

Without the order of alternatives and the greed of repetitions, the rules of a grammar are those of
a context-free one, in which an expression generates texts (`Grammar.Generates`). What an expression
matches it also generates (`Grammar.Derives.generates`); the converse is a matter of the grammar.
-/

set_option autoImplicit false

namespace Packrat

/-- The expression generates the text: any alternative of a choice may be taken, a repetition has
any number of rounds, and the name of a rule stands for what its body generates. The end of the
input and lookahead generate nothing, wherever they stand; a pattern generates what it matches
before some text. -/
inductive Grammar.Generates (grammar : Grammar) : Expr → List Char → Prop
  | literal {text : String} : Generates grammar (.literal text) text.toList
  | oneIn {cls : CharClass} {c : Char} (h : cls.accepts c = true) :
      Generates grammar (.oneIn cls) [c]
  | any {c : Char} : Generates grammar .any [c]
  | endOfInput : Generates grammar .endOfInput []
  | regex {pattern : Pattern} {text after : List Char}
      (h : pattern.matchLength? (text ++ after) = some text.length) :
      Generates grammar (.regex pattern) text
  | sequence_nil : Generates grammar (.sequence []) []
  | sequence_cons {expr : Expr} {exprs : List Expr} {text text' : List Char}
      (first : Generates grammar expr text) (rest : Generates grammar (.sequence exprs) text') :
      Generates grammar (.sequence (expr :: exprs)) (text ++ text')
  | choice {expr : Expr} {exprs : List Expr} {text : List Char} (hmem : expr ∈ exprs)
      (h : Generates grammar expr text) : Generates grammar (.choice exprs) text
  | zeroOrMore_nil {expr : Expr} : Generates grammar (.zeroOrMore expr) []
  | zeroOrMore_cons {expr : Expr} {text text' : List Char} (round : Generates grammar expr text)
      (rest : Generates grammar (.zeroOrMore expr) text') :
      Generates grammar (.zeroOrMore expr) (text ++ text')
  | oneOrMore {expr : Expr} {text text' : List Char} (round : Generates grammar expr text)
      (rest : Generates grammar (.zeroOrMore expr) text') :
      Generates grammar (.oneOrMore expr) (text ++ text')
  | optional_nil {expr : Expr} : Generates grammar (.optional expr) []
  | optional {expr : Expr} {text : List Char} (h : Generates grammar expr text) :
      Generates grammar (.optional expr) text
  | followedBy {expr : Expr} : Generates grammar (.followedBy expr) []
  | notFollowedBy {expr : Expr} : Generates grammar (.notFollowedBy expr) []
  | ruleRef {name : String} {rule : Rule} {text : List Char}
      (hr : grammar.rule? name = some rule) (body : Generates grammar rule.body text) :
      Generates grammar (.ruleRef name) text

namespace Grammar

variable {grammar : Grammar} {expr : Expr} {exprs : List Expr} {text : List Char}

/-! ## What is generated -/

theorem generates_literal_iff {literal : String} :
    grammar.Generates (.literal literal) text ↔ text = literal.toList := by
  constructor
  · intro h
    cases h
    rfl
  · rintro rfl
    exact .literal

theorem generates_oneIn_iff {cls : CharClass} :
    grammar.Generates (.oneIn cls) text ↔ ∃ c, cls.accepts c = true ∧ text = [c] := by
  constructor
  · rintro (_ | h)
    exact ⟨_, h, rfl⟩
  · rintro ⟨c, h, rfl⟩
    exact .oneIn h

theorem generates_endOfInput_iff : grammar.Generates .endOfInput text ↔ text = [] := by
  constructor
  · intro h
    cases h
    rfl
  · rintro rfl
    exact .endOfInput

theorem generates_sequence_nil_iff : grammar.Generates (.sequence []) text ↔ text = [] := by
  constructor
  · intro h
    cases h
    rfl
  · rintro rfl
    exact .sequence_nil

theorem generates_sequence_cons_iff :
    grammar.Generates (.sequence (expr :: exprs)) text ↔
      ∃ first rest, grammar.Generates expr first ∧ grammar.Generates (.sequence exprs) rest ∧
        text = first ++ rest := by
  constructor
  · intro h
    cases h with
    | sequence_cons first rest => exact ⟨_, _, first, rest, rfl⟩
  · rintro ⟨first, rest, hfirst, hrest, rfl⟩
    exact .sequence_cons hfirst hrest

theorem generates_choice_iff :
    grammar.Generates (.choice exprs) text ↔ ∃ expr ∈ exprs, grammar.Generates expr text := by
  constructor
  · intro h
    cases h with
    | choice hmem h => exact ⟨_, hmem, h⟩
  · rintro ⟨expr, hmem, h⟩
    exact .choice hmem h

theorem generates_ruleRef_iff {name : String} {rule : Rule} (hr : grammar.rule? name = some rule) :
    grammar.Generates (.ruleRef name) text ↔ grammar.Generates rule.body text := by
  constructor
  · intro h
    cases h with
    | ruleRef hr' h =>
      cases hr.symm.trans hr'
      exact h
  · exact .ruleRef hr

/-! ## What is matched is generated -/

/-- **What an expression matches it generates**, as the text between where the match starts and
where it stops. -/
theorem Derives.generates {input : Input} {pos : Nat} {verdict : Verdict}
    (h : grammar.Derives input expr pos verdict) {stop : Nat} (hv : verdict = .success stop) :
    ∃ text, grammar.Generates expr text ∧ input.rest pos = text ++ input.rest stop := by
  induction h generalizing stop with
  | @literal_success literal pos hprefix =>
    cases hv
    obtain ⟨after, hafter⟩ := hprefix
    exact ⟨_, .literal, by rw [Input.rest_of_append hafter.symm, hafter]⟩
  | oneIn_success hatom haccepts =>
    cases hv
    exact ⟨_, .oneIn haccepts, Input.rest_of_atom? hatom⟩
  | any_success hatom =>
    cases hv
    exact ⟨_, .any, Input.rest_of_atom? hatom⟩
  | endOfInput_success => cases hv; exact ⟨[], .endOfInput, rfl⟩
  | @regex_success pattern pos length hlength =>
    cases hv
    have hle := Pattern.matchLength?_le hlength
    have hsplit : input.rest pos = (input.rest pos).take length ++ (input.rest pos).drop length :=
      (List.take_append_drop _ _).symm
    have htake : ((input.rest pos).take length).length = length := List.length_take_of_le hle
    have hrest := Input.rest_of_append hsplit
    rw [htake] at hrest
    -- a pattern generates what it matches before some text, here the rest of the input
    have hmatch : pattern.matchLength? ((input.rest pos).take length ++
        (input.rest pos).drop length) = some ((input.rest pos).take length).length := by
      rw [← hsplit, htake, hlength]
    exact ⟨_, .regex hmatch, by rw [hrest, ← hsplit]⟩
  | sequence_nil => cases hv; exact ⟨[], .sequence_nil, rfl⟩
  | sequence_cons _ _ ihfirst ihrest =>
    obtain ⟨text, hfirst, htext⟩ := ihfirst rfl
    obtain ⟨text', hrest, htext'⟩ := ihrest hv
    exact ⟨_, .sequence_cons hfirst hrest, by rw [htext, htext', List.append_assoc]⟩
  | choice_success _ ih =>
    obtain ⟨text, h, htext⟩ := ih hv
    exact ⟨text, .choice (.head _) h, htext⟩
  | choice_failure _ _ _ ih =>
    obtain ⟨text, h, htext⟩ := ih hv
    obtain ⟨expr, hmem, h⟩ := generates_choice_iff.1 h
    exact ⟨text, .choice (.tail _ hmem) h, htext⟩
  | zeroOrMore_failure => cases hv; exact ⟨[], .zeroOrMore_nil, rfl⟩
  | zeroOrMore_empty => cases hv; exact ⟨[], .zeroOrMore_nil, rfl⟩
  | zeroOrMore_more _ _ _ ihround ihrest =>
    obtain ⟨text, hround, htext⟩ := ihround rfl
    obtain ⟨text', hrest, htext'⟩ := ihrest hv
    exact ⟨_, .zeroOrMore_cons hround hrest, by rw [htext, htext', List.append_assoc]⟩
  | oneOrMore_empty _ ih =>
    cases hv
    obtain ⟨text, hround, htext⟩ := ih rfl
    exact ⟨_, .oneOrMore hround .zeroOrMore_nil, by rw [List.append_nil, ← htext]⟩
  | oneOrMore_more _ _ _ ihround ihrest =>
    obtain ⟨text, hround, htext⟩ := ihround rfl
    obtain ⟨text', hrest, htext'⟩ := ihrest hv
    exact ⟨_, .oneOrMore hround hrest, by rw [htext, htext', List.append_assoc]⟩
  | optional_success _ ih =>
    obtain ⟨text, h, htext⟩ := ih hv
    exact ⟨text, .optional h, htext⟩
  | optional_failure => cases hv; exact ⟨[], .optional_nil, rfl⟩
  | followedBy_success => cases hv; exact ⟨[], .followedBy, rfl⟩
  | notFollowedBy_failure => cases hv; exact ⟨[], .notFollowedBy, rfl⟩
  | ruleRef_body hr _ ih =>
    obtain ⟨text, h, htext⟩ := ih hv
    exact ⟨text, .ruleRef hr h, htext⟩
  | _ => cases hv

theorem Derives.generates_whole {text : String}
    (h : grammar.Derives (.ofString text) expr 0 (.success (Input.ofString text).length)) :
    grammar.Generates expr text.toList := by
  obtain ⟨generated, hg, hrest⟩ := h.generates rfl
  have hend : (Input.ofString text).rest (Input.ofString text).length = [] :=
    List.eq_nil_of_length_eq_zero (by rw [Input.rest_length, Nat.sub_self])
  rw [(Input.Remains.start text).rest, hend, List.append_nil] at hrest
  rwa [hrest]

end Grammar

end Packrat
