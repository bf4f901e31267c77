import Packrat.Proofs.FailureMerge

/-!
# The order of merging

What a collection of failures comes to does not depend on how they are merged. Since that is one
thing only (`Failure.IsJoin.unique`), merging is commutative and idempotent (`Failure.merge_comm`,
`Failure.merge_self`), and any way of merging the same failures has the same result
(`Failure.Merging.isJoin_result`).
-/

set_option autoImplicit false

namespace Packrat.Failure

/-! ## Failures that may be missing -/

theorem mergeOption_comm (f? g? : Option Failure) : mergeOption f? g? = mergeOption g? f? := by
  have h := (isJoin_toList f?).merge (isJoin_toList g?)
  have h' := (isJoin_toList g?).merge (isJoin_toList f?)
  exact h.unique (h'.congr fun f => or_comm)

theorem mergeOption_self (f? : Option Failure) : mergeOption f? f? = f? := by
  have h := (isJoin_toList f?).merge (isJoin_toList f?)
  exact (h.congr fun f => or_self_iff).unique (isJoin_toList f?)

/-! ## Two failures -/

theorem merge_comm (f g : Failure) : f.merge g = g.merge f :=
  Option.some.inj (mergeOption_comm (some f) (some g))

theorem merge_self (f : Failure) : f.merge f = f :=
  Option.some.inj (mergeOption_self (some f))

/-! ## Ways of merging -/

/-- A way of merging failures, each as often as one likes, in any order and grouping; some may be
missing. -/
inductive Merging
  | missing
  | given (failure : Failure)
  | merged (first second : Merging)

namespace Merging

/-- The failures that are merged, in order. -/
def failures : Merging → List Failure
  | missing => []
  | given failure => [failure]
  | merged first second => first.failures ++ second.failures

/-- What the merging ends with. -/
def result : Merging → Option Failure
  | missing => none
  | given failure => some failure
  | merged first second => mergeOption first.result second.result

/-- **Every way of merging** ends with what its failures come to. -/
theorem isJoin_result (merging : Merging) : IsJoin (· ∈ merging.failures) merging.result := by
  induction merging with
  | missing => exact isJoin_none.congr fun f => by simp [failures]
  | given failure => exact (isJoin_some failure).congr fun f => List.mem_singleton.symm
  | merged first second ihfirst ihsecond =>
    exact (ihfirst.merge ihsecond).congr fun f => List.mem_append.symm

end Merging

theorem isJoin_foldl (f : Failure) (fs : List Failure) :
    IsJoin (· ∈ f :: fs) (some (fs.foldl merge f)) := by
  induction fs generalizing f with
  | nil => exact (isJoin_some f).congr fun g => List.mem_singleton.symm
  | cons g fs ih =>
    have hmerged := (isJoin_some f).merge (isJoin_some g)
    have hjoined := (hmerged.merge (isJoin_join fs)).congr fun x => or_assoc
    have hwhole : mergeOption (some (f.merge g)) (join fs) = some (fs.foldl merge (f.merge g)) :=
      (isJoin_join (f.merge g :: fs)).unique (ih (f.merge g))
    rw [List.foldl_cons, ← hwhole]
    exact hjoined.congr fun x => by simp only [List.mem_cons]

/-- **Merging is a join.** It is associative, commutative and idempotent, also where failures may be
missing, and then what is missing is neutral. However failures are merged, in whatever order and as
often as one likes, what comes of it is their furthest position with all that one of them expects
there, so it depends on nothing but which failures they are. -/
theorem merge_semilattice :
    (∀ f g h : Failure, (f.merge g).merge h = f.merge (g.merge h)) ∧
    (∀ f g : Failure, f.merge g = g.merge f) ∧
    (∀ f : Failure, f.merge f = f) ∧
    (∀ f? g? h? : Option Failure,
      mergeOption (mergeOption f? g?) h? = mergeOption f? (mergeOption g? h?)) ∧
    (∀ f? g? : Option Failure, mergeOption f? g? = mergeOption g? f?) ∧
    (∀ f? : Option Failure, mergeOption f? f? = f?) ∧
    (∀ f? : Option Failure, mergeOption none f? = f? ∧ mergeOption f? none = f?) ∧
    (∀ (f : Failure) (fs : List Failure), IsJoin (· ∈ f :: fs) (some (fs.foldl merge f))) ∧
    (∀ merging : Merging, IsJoin (· ∈ merging.failures) merging.result) ∧
    ∀ merging merging' : Merging, (∀ f, f ∈ merging.failures ↔ f ∈ merging'.failures) →
      merging.result = merging'.result := by
  refine ⟨merge_assoc, merge_comm, merge_self, mergeOption_assoc, mergeOption_comm,
    mergeOption_self, fun f? => ⟨mergeOption_none_left f?, mergeOption_none_right f?⟩,
    isJoin_foldl, Merging.isJoin_result, fun merging merging' hsame => ?_⟩
  exact merging.isJoin_result.unique (merging'.isJoin_result.congr fun f => (hsame f).symm)

/-- A near failure, and two further on that are merged in one order or the other, one of them
twice. -/
theorem merge_semilattice_tie :
    let near : Merging := .given (single 1 "\"a\"")
    let letter : Merging := .given (single 3 "\"b\"")
    let digit : Merging := .given (single 3 "digit")
    let merging : Merging := .merged (.merged letter near) (.merged digit letter)
    let merging' : Merging := .merged digit (.merged (.merged near .missing) letter)
    merging.result = merging'.result ∧ merging.result = some ⟨3, .ofList ["digit", "\"b\""]⟩ := by
  intro near letter digit merging merging'
  obtain ⟨-, -, -, -, -, -, -, -, -, hresult⟩ := merge_semilattice
  refine ⟨hresult merging merging' fun f => ?_, by decide⟩
  simp only [merging, merging', near, letter, digit, Merging.failures, List.mem_append,
    List.mem_cons, List.not_mem_nil, or_false]
  grind

end Packrat.Failure
