import Packrat.Proofs.Adequacy
import Packrat.Proofs.Reachability
import Packrat.Proofs.StartRun
import Packrat.Sample.Grammars

/-!
# Undefined rules

An expression ends at a rule that is not defined only if its references lead there
(`Grammar.Derives.misses`), with one step for each rule whose body is matched on the way. The check
of a grammar follows all references of the rules that it reaches, whether or not an input leads a
parse there, so a parse ends at no undefined rule but those reported
(`Parser.undefinedRule_reported`).
-/

set_option autoImplicit false

namespace Packrat

/-- There is no rule of the name, and some reference of the expression leads to it. -/
def Expr.Misses (grammar : Grammar) (expr : Expr) (name : String) : Prop :=
  grammar.rule? name = none ∧ ∃ reference ∈ expr.references, grammar.Reaches reference name

variable {grammar : Grammar} {input : Input} {expr : Expr} {pos : Nat} {verdict : Verdict}
  {name : String}

theorem Expr.Misses.mono {part : Expr} (h : part.Misses grammar name)
    (hsub : ∀ reference ∈ part.references, reference ∈ expr.references) :
    expr.Misses grammar name := by
  obtain ⟨hnone, reference, hmem, hreaches⟩ := h
  exact ⟨hnone, reference, hsub reference hmem, hreaches⟩

theorem Expr.Misses.ruleRef {rule : Rule} {referrer : String}
    (h : rule.body.Misses grammar name) (hr : grammar.rule? referrer = some rule) :
    (Expr.ruleRef referrer).Misses grammar name := by
  obtain ⟨hnone, reference, hmem, hreaches⟩ := h
  have hrefers : grammar.RefersTo referrer reference := ⟨rule, hr, hmem⟩
  exact ⟨hnone, referrer, List.mem_singleton_self _, .head hrefers hreaches⟩

namespace Grammar

theorem Derives.misses (h : grammar.Derives input expr pos verdict)
    (hv : verdict = .undefined name) : expr.Misses grammar name := by
  induction h with
  | sequence_cons _ _ _ ih =>
    refine (ih hv).mono fun reference hmem => ?_
    rw [Expr.references_sequence_cons]
    exact List.mem_append_left _ hmem
  | sequence_undefined _ ih =>
    refine (ih hv).mono fun reference hmem => ?_
    rw [Expr.references_sequence_cons]
    exact List.mem_append_right _ hmem
  | choice_failure _ _ _ ih =>
    refine (ih hv).mono fun reference hmem => ?_
    rw [Expr.references_choice_cons]
    exact List.mem_append_left _ hmem
  | choice_undefined _ ih =>
    refine (ih hv).mono fun reference hmem => ?_
    rw [Expr.references_choice_cons]
    exact List.mem_append_right _ hmem
  | zeroOrMore_more _ _ _ _ ih => exact ih hv
  | zeroOrMore_undefined _ ih => exact ih hv
  | oneOrMore_more _ _ _ _ ih => exact ih hv
  | oneOrMore_undefined _ ih => exact ih hv
  | optional_undefined _ ih => exact ih hv
  | followedBy_undefined _ ih => exact ih hv
  | notFollowedBy_undefined _ ih => exact ih hv
  | ruleRef_body hr _ ih => exact (ih hv).ruleRef hr
  | ruleRef_undefined hr =>
    cases hv
    exact ⟨hr, name, List.mem_singleton_self _, .refl⟩
  | _ => cases hv

/-- A start rule that ends at an undefined rule has it reported. -/
theorem Derives.reported {start : String}
    (h : grammar.Derives input (.ruleRef start) pos (.undefined name)) :
    ∃ reference ∈ (grammar.check start).undefined, reference.rule = name := by
  obtain ⟨hnone, reference, hmem, hreaches⟩ := h.misses rfl
  rw [List.mem_singleton.1 hmem] at hreaches
  exact exists_undefined_of_reaches hreaches hnone

end Grammar

namespace Parser

/-- **Parses end at no undefined rule but those that the check reports**, whatever the input, the
options and the cache. So if it reports none, no parse ends at one. -/
theorem undefinedRule_reported (grammar : Grammar) (start : String) :
    let result (input : Input) (options : Options) (cache : Cache) :=
      (parseWithCache ⟨grammar, options⟩ start input cache).result
    (∀ input options cache name, result input options cache = .error (.undefinedRule name) →
      ∃ reference ∈ (grammar.check start).undefined, reference.rule = name) ∧
    ((grammar.check start).undefined = ∅ →
      ∀ input options cache name, result input options cache ≠ .error (.undefinedRule name)) := by
  intro result
  have reported (input : Input) (options : Options) (cache : Cache) (name : String)
      (h : result input options cache = .error (.undefinedRule name)) :
      ∃ reference ∈ (grammar.check start).undefined, reference.rule = name := by
    obtain ⟨answer, hy, hv⟩ := yields_of_undefinedRule h
    have hderives := hy.derives (Nat.zero_le _)
    rw [hv] at hderives
    obtain ⟨hnone, reference, hmem, hreaches⟩ := hderives.misses rfl
    rw [List.mem_singleton.1 hmem] at hreaches
    exact Grammar.exists_undefined_of_reaches hreaches hnone
  refine ⟨reported, fun hempty input options cache name h => ?_⟩
  obtain ⟨reference, hmem, -⟩ := reported input options cache name h
  rw [hempty] at hmem
  exact SortedSet.not_mem_empty reference hmem

/-- A missing alternative is reported also where the alternative before it matches, and a grammar
that misses none never ends at one. -/
theorem undefinedRule_reported_missing :
    let missing := Sample.singleRule "Start" (.choice [.literal "a", .ruleRef "Missing"])
    ((parseText ⟨missing, {}⟩ "Start" "b").result = .error (.undefinedRule "Missing") ∧
      ∃ reference ∈ (missing.check "Start").undefined, reference.rule = "Missing") ∧
    (Sample.identifiers.check "statement").undefined = ∅ ∧
      ∀ input options cache name,
        (parseWithCache ⟨Sample.identifiers, options⟩ "statement" input cache).result ≠
          .error (.undefinedRule name) := by
  intro missing
  have hresult : (parseText ⟨missing, {}⟩ "Start" "b").result =
      .error (.undefinedRule "Missing") := rfl
  have hempty : (Sample.identifiers.check "statement").undefined = ∅ := by decide
  refine ⟨⟨hresult, ?_⟩, hempty, ?_⟩
  · exact (undefinedRule_reported missing "Start").1 (.ofString "b") {} {} "Missing" hresult
  · exact (undefinedRule_reported Sample.identifiers "statement").2 hempty

end Parser

end Packrat
