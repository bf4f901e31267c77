import Packrat.Proofs.Lockstep
import Packrat.Proofs.UndefinedRules

/-!
# Rules that a parse does not need

A grammar may be extended by more rules. The run of a parse stays the same, step by step, unless it
ends at a missing rule that the larger grammar has (`Parser.parseWithCache_eq_of_extendedBy`). Now
the rules that the start reaches are a grammar of their own (`Grammar.prune`), which every grammar
extends that agrees on them, and a parse ends at no rule that is missing only there. So a parse
depends on nothing but the rules that its start reaches (`Parser.parse_eq_of_agreesFrom`).
-/

set_option autoImplicit false

namespace Packrat

/-! ## More rules -/

/-- All rules of the grammar are rules of the larger one. -/
def Grammar.ExtendedBy (grammar larger : Grammar) : Prop :=
  ∀ rule ∈ grammar.rules, rule ∈ larger.rules

/-- A rule is missing that the grammar has. -/
def ParseError.SuppliedBy (grammar : Grammar) (error : ParseError) : Prop :=
  ∃ name rule, grammar.rule? name = some rule ∧ error = .undefinedRule name

section
variable {grammar larger : Grammar} (h : grammar.ExtendedBy larger)
include h

theorem Grammar.ExtendedBy.rule?_eq_or (name : String) :
    larger.rule? name = grammar.rule? name ∨
      grammar.rule? name = none ∧ ParseError.SuppliedBy larger (.undefinedRule name) := by
  cases hr : grammar.rule? name with
  | some rule =>
    obtain ⟨hmem, hname⟩ := Grammar.rule?_eq_some_iff.1 hr
    exact .inl (Grammar.rule?_eq_some_iff.2 ⟨h rule hmem, hname⟩)
  | none =>
    cases hl : larger.rule? name with
    | none => exact .inl rfl
    | some rule => exact .inr ⟨rfl, name, rule, hl, rfl⟩

theorem Context.evaluate_agreesUnless (input : Input) (options : Options) (depth : Nat) :
    Evaluator.AgreesUnless (ParseError.SuppliedBy larger)
      (evaluate ⟨grammar, input, options⟩ depth) (evaluate ⟨larger, input, options⟩ depth) := by
  induction depth with
  | zero => exact fun _ _ _ _ => rfl
  | succ depth ih => exact step_agreesUnless ih rfl h.rule?_eq_or

end

namespace Parser

variable {grammar larger other : Grammar} {start : String} {input : Input} {options : Options}
  {cache : Cache}

/-- A parse depends on its grammar by way of the run of the start rule alone. -/
theorem parseWithCache_congr
    (h : startRun larger start input options = startRun grammar start input options)
    (cache : Cache) :
    parseWithCache ⟨larger, options⟩ start input cache =
      parseWithCache ⟨grammar, options⟩ start input cache := by
  unfold startRun opening at h
  simp only [parseWithCache, h]

/-- **More rules leave a parse as it was**, unless it ends at a missing rule that is among them. -/
theorem parseWithCache_eq_of_extendedBy (h : grammar.ExtendedBy larger)
    (hx : ∀ name rule, larger.rule? name = some rule →
      (parseWithCache ⟨grammar, options⟩ start input cache).result ≠
        .error (.undefinedRule name)) :
    parseWithCache ⟨larger, options⟩ start input cache =
      parseWithCache ⟨grammar, options⟩ start input cache := by
  cases hlimit : options.maxInputLength?.filter (· < input.length) with
  | some limit => rw [parseWithCache_tooLarge hlimit, parseWithCache_tooLarge hlimit]
  | none =>
    refine parseWithCache_congr ?_ cache
    refine Context.evaluate_agreesUnless h input options options.maxDepth (.ruleRef start) 0
      (opening start input) ?_
    rintro ⟨error, he, name, rule, hr, rfl⟩
    have hrun : (startRun grammar start input options).1 = .error (.undefinedRule name) := he
    have hresult : (parseWithCache ⟨grammar, options⟩ start input cache).result = _ :=
      parseWithCache_result hlimit cache
    rw [hrun] at hresult
    exact hx name rule hr hresult

/-- **References are resolved when they are met.** A parse that does not end at a missing rule is
the same over every larger grammar, whatever it defines besides and in whatever order: its result
or error, the entries and counts of the cache, and its events. -/
theorem parse_eq_of_extendedBy (h : grammar.ExtendedBy larger)
    (hdefined : ∀ name, (parseWithCache ⟨grammar, options⟩ start input cache).result ≠
      .error (.undefinedRule name)) :
    parseWithCache ⟨larger, options⟩ start input cache =
      parseWithCache ⟨grammar, options⟩ start input cache :=
  parseWithCache_eq_of_extendedBy h fun name _ _ => hdefined name

/-- An alternative that is not tried may be defined later, and the rules in another order. -/
theorem parse_eq_of_extendedBy_alternative :
    let body := Expr.choice [.literal "a", .ruleRef "Missing"]
    let missing := Sample.singleRule "Start" body
    let defined : Grammar :=
      { rules := [⟨"Missing", .literal "b"⟩, ⟨"Start", body⟩]
        names_nodup := by simp
        names_nonempty := by simp }
    missing.ExtendedBy defined ∧
      (parseText ⟨missing, {}⟩ "Start" "b").result = .error (.undefinedRule "Missing") ∧
      parseText ⟨defined, {}⟩ "Start" "a" = parseText ⟨missing, {}⟩ "Start" "a" := by
  intro body missing defined
  have h : missing.ExtendedBy defined := by
    intro rule hmem
    rw [List.mem_singleton.1 hmem]
    exact .tail _ (.head _)
  have hdefined (name : String) : (parseWithCache ⟨missing, {}⟩ "Start" (.ofString "a") {}).result ≠
      .error (.undefinedRule name) := by
    intro he
    have hsome : (parseText ⟨missing, {}⟩ "Start" "a").result.toOption.isSome = true := rfl
    rw [show (parseText ⟨missing, {}⟩ "Start" "a").result = _ from he] at hsome
    cases hsome
  exact ⟨h, rfl, parse_eq_of_extendedBy h hdefined⟩

end Parser

/-! ## The rules that are reached -/

namespace Grammar

/-- The grammar without the rules that the check from a start reports as unreachable. -/
def prune (grammar : Grammar) (start : String) : Grammar where
  rules := grammar.rules.filter fun rule => rule.name ∉ (grammar.check start).unreachable
  names_nodup := (List.filter_sublist.map _).nodup grammar.names_nodup
  names_nonempty rule hmem := grammar.names_nonempty rule (List.mem_filter.1 hmem).1

/-- Another grammar has the same rules under the names that the start reaches, and misses the same
of them. -/
def AgreesFrom (grammar : Grammar) (start : String) (other : Grammar) : Prop :=
  ∀ name, grammar.Reaches start name → other.rule? name = grammar.rule? name

variable {grammar other : Grammar} {start name : String} {rule : Rule}

theorem rule?_prune_eq_some_iff :
    (grammar.prune start).rule? name = some rule ↔
      grammar.rule? name = some rule ∧ grammar.Reaches start name := by
  rw [rule?_eq_some_iff, rule?_eq_some_iff]
  simp only [prune, List.mem_filter, decide_eq_true_eq, mem_unreachable_iff, not_and, not_not]
  constructor
  · rintro ⟨⟨hmem, hreaches⟩, rfl⟩
    exact ⟨⟨hmem, rfl⟩, hreaches ⟨rule, rule?_eq_some_iff.2 ⟨hmem, rfl⟩⟩⟩
  · rintro ⟨⟨hmem, rfl⟩, hreaches⟩
    exact ⟨⟨hmem, fun _ => hreaches⟩, rfl⟩

theorem Reaches.of_prune (h : (grammar.prune start).Reaches start name) :
    grammar.Reaches start name := by
  refine Relation.ReflTransGen.mono ?_ _ _ h
  rintro referrer name ⟨rule, hr, hmem⟩
  exact ⟨rule, (rule?_prune_eq_some_iff.1 hr).1, hmem⟩

theorem AgreesFrom.refl (grammar : Grammar) (start : String) : grammar.AgreesFrom start grammar :=
  fun _ _ => rfl

theorem AgreesFrom.extendedBy (h : grammar.AgreesFrom start other) :
    (grammar.prune start).ExtendedBy other := by
  intro rule hmem
  have hr : (grammar.prune start).rule? rule.name = some rule := rule?_eq_some_iff.2 ⟨hmem, rfl⟩
  obtain ⟨hr, hreaches⟩ := rule?_prune_eq_some_iff.1 hr
  exact (rule?_eq_some_iff.1 ((h rule.name hreaches).trans hr)).1

/-- Grammars agree that differ only in rules reported as unreachable. -/
theorem AgreesFrom.of_unreachable
    (h : ∀ name ∉ (grammar.check start).unreachable, other.rule? name = grammar.rule? name) :
    grammar.AgreesFrom start other :=
  fun name hreaches => h name fun hmem => (mem_unreachable_iff.1 hmem).2 hreaches

theorem AgreesFrom.of_perm (h : other.rules.Perm grammar.rules) :
    grammar.AgreesFrom start other := by
  intro name _
  refine Option.ext fun rule => ?_
  rw [rule?_eq_some_iff, rule?_eq_some_iff, h.mem_iff]

end Grammar

namespace Parser

variable {grammar other : Grammar} {start : String}

/-- **The rules that are reached are enough** for a parse. A rule that is missing among them is
missing in the grammar too, as references lead to it. -/
theorem parseWithCache_eq_prune (h : grammar.AgreesFrom start other) (options : Options)
    (input : Input) (cache : Cache) :
    parseWithCache ⟨other, options⟩ start input cache =
      parseWithCache ⟨grammar.prune start, options⟩ start input cache := by
  refine parseWithCache_eq_of_extendedBy h.extendedBy fun name rule hr he => ?_
  obtain ⟨answer, hy, hv⟩ := yields_of_undefinedRule he
  have hderives := hy.derives (Nat.zero_le _)
  rw [hv] at hderives
  obtain ⟨hnone, reference, hmem, hreaches⟩ := hderives.misses rfl
  rw [List.mem_singleton.1 hmem] at hreaches
  have hreaches := hreaches.of_prune
  have hsome := Grammar.rule?_prune_eq_some_iff.2 ⟨(h name hreaches).symm.trans hr, hreaches⟩
  cases hsome.symm.trans hnone

/-- **Only the rules that are reached matter.** From a start, with whatever options, on whatever
input and over whatever cache, a parse is the same over every grammar that agrees on the names
reached: its result or error, the entries and counts of the cache, and its events. So is the parse
over a grammar in which rules reported as unreachable are missing or are others, or in which the
rules have another order. -/
theorem parse_eq_of_agreesFrom (grammar : Grammar) (start : String) :
    let same (other : Grammar) := ∀ (options : Options) (input : Input) (cache : Cache),
      parseWithCache ⟨other, options⟩ start input cache =
        parseWithCache ⟨grammar, options⟩ start input cache
    (∀ other, grammar.AgreesFrom start other → same other) ∧
    (∀ other, (∀ name ∉ (grammar.check start).unreachable,
      other.rule? name = grammar.rule? name) → same other) ∧
    ∀ other : Grammar, other.rules.Perm grammar.rules → same other := by
  intro same
  have agree (other : Grammar) (h : grammar.AgreesFrom start other) : same other := by
    intro options input cache
    rw [parseWithCache_eq_prune h, parseWithCache_eq_prune (.refl grammar start)]
  exact ⟨agree, fun other h => agree other (.of_unreachable h),
    fun other h => agree other (.of_perm h)⟩

/-- From `keyword`, the other rules may be missing, be others and come first. -/
theorem parse_eq_of_agreesFrom_keyword :
    let keyword : Expr := .sequence [
      .choice [.literal "if", .literal "else", .literal "while"],
      .notFollowedBy (.oneIn .xidContinue)]
    let other : Grammar :=
      { rules := [⟨"ident", .ruleRef "digit"⟩, ⟨"keyword", keyword⟩]
        names_nodup := by decide
        names_nonempty := by decide }
    (Sample.identifiers.check "keyword").unreachable = ["statement", "ident", "list"] ∧
      parseText ⟨other, {}⟩ "keyword" "if" = parseText ⟨Sample.identifiers, {}⟩ "keyword" "if" ∧
      (parseText ⟨other, {}⟩ "keyword" "if").result.toOption.isSome = true := by
  intro keyword other
  have hlist : (Sample.identifiers.check "keyword").unreachable = ["statement", "ident", "list"] :=
    by decide
  refine ⟨hlist, ?_, rfl⟩
  refine (parse_eq_of_agreesFrom Sample.identifiers "keyword").2.1 other ?_ {} (.ofString "if") {}
  rw [hlist]
  intro name hname
  simp only [List.mem_cons, List.not_mem_nil, or_false, not_or] at hname
  obtain ⟨hstatement, hident, hno⟩ := hname
  simp [Grammar.rule?, Sample.identifiers, other, keyword, List.find?, Ne.symm hstatement,
    Ne.symm hident, Ne.symm hno]

end Parser

end Packrat
