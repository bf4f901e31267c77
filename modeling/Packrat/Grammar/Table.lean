import Packrat.Grammar
import Std.Data.TreeMap

/-!
# Tables of rules

The rules of a grammar while it is being defined, call by call: the definitions in their order, and
for each name the number of its definition. A definition is found by way of its number, and a number
that is not one of a definition is not checked for.
-/

set_option autoImplicit false

namespace Packrat

/-- Definitions, and the number of each by its name. -/
structure RuleTable where
  numbers : Std.TreeMap String Nat := ∅
  definitions : Array Rule := #[]

namespace RuleTable

/-- Adds a rule, or refuses to. -/
def define (table : RuleTable) (name : String) (body : Expr) :
    Except GrammarError Unit × RuleTable :=
  if name = "" then (.error .emptyName, table)
  else if table.numbers.contains name then (.error (.duplicateRule name), table)
  else
    (.ok (), {
      numbers := table.numbers.insert name table.definitions.size
      definitions := table.definitions.push ⟨name, body⟩ })

/-- Adds rules one after the other, whichever of them are refused. -/
def defineAll (table : RuleTable) : List Rule → List (Except GrammarError Unit) × RuleTable
  | [] => ([], table)
  | rule :: rules =>
    let (answer, table) := table.define rule.name rule.body
    let (answers, table) := table.defineAll rules
    (answer :: answers, table)

/-- The number of the definition of a name. -/
def resolveNumber (table : RuleTable) (name : String) : Except ParseError Nat :=
  match table.numbers[name]? with
  | some number => .ok number
  | none => .error (.undefinedRule name)

/-- The definition of a number, if there is one. -/
def definition? (table : RuleTable) (number : Nat) : Option Rule := table.definitions[number]?

/-- The body of the rule of a name; nothing, if the name has the number of no definition. -/
def resolve? (table : RuleTable) (name : String) : Option (Except ParseError Expr) :=
  match table.resolveNumber name with
  | .ok number => (table.definition? number).map fun rule => .ok rule.body
  | .error error => some (.error error)

/-- Whether there is a rule of a name. -/
def contains (table : RuleTable) (name : String) : Bool := table.numbers.contains name

/-- The number of rules. -/
def size (table : RuleTable) : Nat := table.definitions.size

/-- Whether there are no rules. -/
def isEmpty (table : RuleTable) : Bool := table.definitions.isEmpty

end RuleTable

end Packrat
