import Packrat.Event
import Packrat.Grammar

/-!
# The check of a grammar

Which rules a parse from a start rule can reach, and which references it can meet that have no
rule. Parsing does not depend on the check.
-/

set_option autoImplicit false

namespace Packrat

/-- A reference to a rule that there is not, by a rule or, without one, by whoever starts there. -/
structure UndefinedReference where
  referrer? : Option String
  rule : String
  deriving DecidableEq, Repr

/-- References are ordered by referrer and then by rule; those without a referrer come first. -/
instance : Ord UndefinedReference :=
  ⟨compareLex (compareOn UndefinedReference.referrer?) (compareOn UndefinedReference.rule)⟩

instance : Std.TransOrd UndefinedReference := inferInstanceAs (Std.TransCmp (compareLex _ _))

instance : Std.LawfulEqOrd UndefinedReference where
  eq_of_compare {a b} h := by
    have h := compareLex_eq_eq.1 h
    cases a
    cases b
    simp only [compareOn] at h
    rw [UndefinedReference.mk.injEq]
    exact ⟨Std.LawfulEqOrd.eq_of_compare h.1, Std.LawfulEqOrd.eq_of_compare h.2⟩

/-- What the check of a grammar finds. -/
structure GrammarReport where
  undefined : SortedSet UndefinedReference
  /-- The rules that cannot be reached, in the order of their definition. -/
  unreachable : List String
  deriving DecidableEq

namespace GrammarReport

/-- Whether nothing was found. -/
def isClean (report : GrammarReport) : Bool :=
  report.undefined.toList.isEmpty && report.unreachable.isEmpty

/-- The findings as events. -/
def events (report : GrammarReport) : List Event :=
  report.unreachable.map .unusedRule ++
    report.undefined.toList.map fun reference =>
      .undefinedReference reference.referrer? reference.rule

end GrammarReport

/-- The rules that were reached, and the others. -/
structure Reach where
  reached : List Rule
  others : List Rule

namespace Reach

/-- Goes on to the rules among the others whose names are `wanted`, and from these to the rules
that they refer to. The first argument bounds the number of rounds. -/
def close : Nat → (wanted : List String) → Reach → Reach
  | 0, _, reach => reach
  | rounds + 1, wanted, reach =>
    let (found, others) := reach.others.partition fun rule => wanted.contains rule.name
    if found.isEmpty then reach
    else
      close rounds (found.flatMap fun rule => rule.body.references)
        ⟨reach.reached ++ found, others⟩

end Reach

namespace Grammar

/-- The rules that can be reached from a start rule, and the others. Every round but the last
reaches a rule, so there need be no more rounds than rules. -/
def reach (grammar : Grammar) (start : String) : Reach :=
  Reach.close grammar.rules.length [start] ⟨[], grammar.rules⟩

/-- The references of a rule that have no rule. -/
def undefinedReferences (grammar : Grammar) (rule : Rule) : List UndefinedReference :=
  (rule.body.references.filter fun name => !grammar.contains name).map fun name =>
    ⟨some rule.name, name⟩

/-- Checks a grammar from a start rule. -/
def check (grammar : Grammar) (start : String) : GrammarReport :=
  let reach := grammar.reach start
  let starting : List UndefinedReference :=
    if grammar.contains start then [] else [⟨none, start⟩]
  { undefined := .ofList (starting ++ reach.reached.flatMap grammar.undefinedReferences)
    unreachable := reach.others.map Rule.name }

end Grammar

end Packrat
