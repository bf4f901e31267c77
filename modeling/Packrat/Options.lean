/-!
# Options

The settings of a parse.
-/

set_option autoImplicit false

namespace Packrat

/-- How many evaluations may be nested unless the caller says otherwise. -/
def defaultMaxDepth : Nat := 200

/-- The settings of a parse. -/
structure Options where
  /-- Whether the outcomes of rules are kept and used again. -/
  memoize : Bool := true
  /-- How many evaluations of expressions may be nested. -/
  maxDepth : Nat := defaultMaxDepth
  /-- How many atoms the input may have. -/
  maxInputLength? : Option Nat := none
  deriving DecidableEq, Repr

end Packrat
