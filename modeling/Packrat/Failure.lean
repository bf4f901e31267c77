import Packrat.SortedSet

/-!
# Failures

Where matching stopped and what would have been accepted there. Failures are merged so that the
furthest position wins and failures at one position pool what they expected.
-/

set_option autoImplicit false

namespace Packrat

/-- A position at which matching stopped and the descriptions of what was expected there. -/
structure Failure where
  position : Nat
  expected : SortedSet String
  deriving DecidableEq

namespace Failure

/-- The failure of one expectation. -/
def single (position : Nat) (expected : String) : Failure := ⟨position, .singleton expected⟩

/-- The failure further on; at one position, the expectations of both. -/
def merge (f g : Failure) : Failure :=
  match compare f.position g.position with
  | .gt => f
  | .lt => g
  | .eq => ⟨f.position, f.expected.union g.expected⟩

/-- The merge of two failures of which either may be missing. -/
def mergeOption : Option Failure → Option Failure → Option Failure
  | some f, some g => some (f.merge g)
  | some f, none => some f
  | none, g => g

/-- The failure in words. -/
def message (f : Failure) : String :=
  match f.expected.toList with
  | [] => s!"unexpected input at position {f.position}"
  | [one] => s!"expected {one} at position {f.position}"
  | many =>
    let listing := ", ".intercalate many
    s!"expected one of {listing} at position {f.position}"

end Failure

end Packrat
