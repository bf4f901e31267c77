/-!
# Errors

What is wrong with a grammar, and what ends a parse before it has an outcome. A text that does not
match is no error.
-/

set_option autoImplicit false

namespace Packrat

/-- Why a rule, or an expression of it, cannot be part of a grammar. -/
inductive GrammarError
  | duplicateRule (name : String)
  | emptyName
  | invalidRegex (source : String)
  deriving DecidableEq, Repr

/-- The error in words. -/
def GrammarError.message : GrammarError → String
  | duplicateRule name => "rule \x60" ++ name ++ "\x60 is already defined"
  | emptyName => "rule name must not be empty"
  | invalidRegex source => "invalid regular expression \x60" ++ source ++ "\x60"

/-- Why a parse was given up. -/
inductive ParseError
  | undefinedRule (name : String)
  /-- More than `limit` evaluations were nested. -/
  | recursionLimit (limit position : Nat)
  /-- The input has more atoms than allowed. -/
  | inputTooLarge (length limit : Nat)
  deriving DecidableEq, Repr

namespace ParseError

/-- The error in words. -/
def message : ParseError → String
  | undefinedRule name => "rule \x60" ++ name ++ "\x60 is not defined"
  | recursionLimit limit position =>
    s!"recursion depth limit of {limit} exceeded at position {position}"
  | inputTooLarge length limit => s!"input of {length} atoms exceeds the limit of {limit}"

/-- Whether a limit that the caller has set was exceeded. -/
def isResourceExhaustion : ParseError → Bool
  | undefinedRule _ => false
  | recursionLimit _ _ => true
  | inputTooLarge _ _ => true

end ParseError

end Packrat
