import Packrat.Outcome
import Std.Data.TreeMap

/-!
# The cache of rule outcomes

Outcomes of rules by the rule's name and the position, failures as well as successes, with a count
of the look-ups. The entries hold for one grammar and one input.
-/

set_option autoImplicit false

namespace Packrat

/-- A rule at a position. -/
structure CacheKey where
  position : Nat
  rule : String
  deriving DecidableEq

instance : Ord CacheKey := ⟨compareLex (compareOn CacheKey.position) (compareOn CacheKey.rule)⟩

instance : Std.TransOrd CacheKey := inferInstanceAs (Std.TransCmp (compareLex _ _))

instance : Std.LawfulEqOrd CacheKey where
  eq_of_compare {a b} h := by
    have h := compareLex_eq_eq.1 h
    cases a
    cases b
    simp only [compareOn] at h
    rw [CacheKey.mk.injEq]
    exact ⟨Std.LawfulEqOrd.eq_of_compare h.1, Std.LawfulEqOrd.eq_of_compare h.2⟩

/-- What is kept of the evaluation of a rule: its outcome, and the furthest failure met on the way,
which every use of the outcome reports again. -/
structure CacheEntry where
  outcome : Outcome
  furthest? : Option Failure
  deriving DecidableEq

/-- The entries, and how many look-ups found one and how many did not. -/
structure Cache where
  entries : Std.TreeMap CacheKey CacheEntry := ∅
  hits : Nat := 0
  misses : Nat := 0

namespace Cache

/-- The number of entries. -/
def size (cache : Cache) : Nat := cache.entries.size

/-- Whether there are no entries. -/
def isEmpty (cache : Cache) : Bool := cache.entries.isEmpty

/-- The entry of a rule at a position. -/
def get? (cache : Cache) (rule : String) (position : Nat) : Option CacheEntry :=
  cache.entries[(⟨position, rule⟩ : CacheKey)]?

/-- Looks up a rule at a position and counts the look-up. -/
def lookup (cache : Cache) (rule : String) (position : Nat) : Option CacheEntry × Cache :=
  match cache.get? rule position with
  | some entry => (some entry, { cache with hits := cache.hits + 1 })
  | none => (none, { cache with misses := cache.misses + 1 })

/-- The cache with the entry of a rule at a position set. -/
def insert (cache : Cache) (rule : String) (position : Nat) (entry : CacheEntry) : Cache :=
  { cache with entries := cache.entries.insert ⟨position, rule⟩ entry }

@[simp] theorem get?_empty (rule : String) (position : Nat) :
    ({} : Cache).get? rule position = none := Std.TreeMap.getElem?_emptyc

theorem get?_insert (cache : Cache) (rule other : String) (position pos : Nat)
    (entry : CacheEntry) :
    (cache.insert rule position entry).get? other pos =
      if rule = other ∧ position = pos then some entry else cache.get? other pos := by
  have same : compare (⟨position, rule⟩ : CacheKey) ⟨pos, other⟩ = .eq ↔
      rule = other ∧ position = pos := by
    rw [Std.LawfulEqOrd.compare_eq_iff_eq, CacheKey.mk.injEq, and_comm]
  simp only [get?, insert, Std.TreeMap.getElem?_insert, same]

end Cache

end Packrat
