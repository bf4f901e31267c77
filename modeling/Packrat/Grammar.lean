import Packrat.Expr

/-!
# Grammars

The rules of a grammar in the order of their definition, with names that are not empty and of which
no two are the same.
-/

set_option autoImplicit false

namespace Packrat

/-- A rule of a grammar. -/
structure Rule where
  name : String
  body : Expr

/-- A list of rules, each with a name of its own. -/
structure Grammar where
  rules : List Rule
  names_nodup : (rules.map Rule.name).Nodup
  names_nonempty : ∀ rule ∈ rules, rule.name ≠ ""

namespace Grammar

/-- The grammar without rules. -/
def empty : Grammar := ⟨[], .nil, nofun⟩

instance : EmptyCollection Grammar := ⟨empty⟩

/-- The names of the rules in the order of their definition. -/
def names (grammar : Grammar) : List String := grammar.rules.map Rule.name

/-- The number of rules. -/
def size (grammar : Grammar) : Nat := grammar.rules.length

/-- Whether there are no rules. -/
def isEmpty (grammar : Grammar) : Bool := grammar.rules.isEmpty

/-- The rule of a name. -/
def rule? (grammar : Grammar) (name : String) : Option Rule :=
  grammar.rules.find? fun rule => rule.name = name

/-- Whether there is a rule of a name. -/
def contains (grammar : Grammar) (name : String) : Bool := (grammar.rule? name).isSome

/-- The body of the rule of a name. -/
def resolve (grammar : Grammar) (name : String) : Except ParseError Expr :=
  match grammar.rule? name with
  | some rule => .ok rule.body
  | none => .error (.undefinedRule name)

theorem not_mem_names_of_rule?_eq_none {grammar : Grammar} {name : String}
    (h : grammar.rule? name = none) : name ∉ grammar.rules.map Rule.name := by
  simp only [rule?, List.find?_eq_none, decide_eq_true_eq] at h
  grind

/-- The grammar with one more rule at its end. -/
def define (grammar : Grammar) (name : String) (body : Expr) : Except GrammarError Grammar :=
  if empty : name = "" then .error .emptyName
  else
    match h : grammar.rule? name with
    | some _ => .error (.duplicateRule name)
    | none =>
      .ok {
        rules := grammar.rules ++ [⟨name, body⟩]
        names_nodup := by
          have fresh := not_mem_names_of_rule?_eq_none h
          simp only [List.map_append, List.map_cons, List.map_nil]
          exact List.nodup_append.2 ⟨grammar.names_nodup, by simp, by grind⟩
        names_nonempty := by
          have := grammar.names_nonempty
          simp only [List.mem_append, List.mem_singleton]
          grind }

end Grammar

end Packrat
