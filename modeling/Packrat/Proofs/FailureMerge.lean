import Packrat.Failure

/-!
# Merging failures

`Failure.merge` keeps the failure further on and pools what two failures at one position expected.
It is associative (`merge_assoc`), and so is `mergeOption` with `none` as its identity
(`mergeOption_assoc`). `Failure.join` is the merge of a whole list. `Failure.IsJoin` says what a
collection of failures comes to, without an order in which they are merged; the merge of a list
does (`isJoin_join`).
-/

set_option autoImplicit false

namespace Packrat

namespace SortedSet

variable {α : Type} [Ord α] [Std.LawfulEqOrd α] [Std.TransOrd α]

theorem union_assoc (s t u : SortedSet α) : (s.union t).union u = s.union (t.union u) :=
  ext fun x => by simp only [mem_union, or_assoc]

end SortedSet

namespace Failure

/-! ## Two failures -/

theorem merge_of_lt {f g : Failure} (h : f.position < g.position) : f.merge g = g := by
  unfold merge
  rw [Nat.compare_eq_lt.2 h]

theorem merge_of_gt {f g : Failure} (h : g.position < f.position) : f.merge g = f := by
  unfold merge
  rw [Nat.compare_eq_gt.2 h]

theorem merge_of_eq {f g : Failure} (h : f.position = g.position) :
    f.merge g = ⟨f.position, f.expected.union g.expected⟩ := by
  unfold merge
  rw [Nat.compare_eq_eq.2 h]

theorem position_merge (f g : Failure) : (f.merge g).position = max f.position g.position := by
  rcases Nat.lt_trichotomy f.position g.position with h | h | h
  · rw [merge_of_lt h]; omega
  · rw [merge_of_eq h]; simp only; omega
  · rw [merge_of_gt h]; omega

theorem merge_assoc (f g h : Failure) : (f.merge g).merge h = f.merge (g.merge h) := by
  have hfg := position_merge f g
  have hgh := position_merge g h
  rcases Nat.lt_trichotomy f.position g.position with h₁ | h₁ | h₁ <;>
    rcases Nat.lt_trichotomy g.position h.position with h₂ | h₂ | h₂
  · rw [merge_of_lt h₁, merge_of_lt h₂, merge_of_lt (by omega)]
  · rw [merge_of_lt h₁, merge_of_lt (f := f) (by omega)]
  · rw [merge_of_lt h₁, merge_of_gt h₂, merge_of_lt h₁]
  · rw [merge_of_lt h₂, merge_of_lt (by omega), merge_of_lt (by omega)]
  · -- all three stand at one position
    rw [merge_of_eq (f := f.merge g) (by omega), merge_of_eq (g := g.merge h) (by omega),
      merge_of_eq h₁, merge_of_eq h₂, SortedSet.union_assoc]
  · rw [merge_of_gt h₂, merge_of_gt (by omega)]
  · rw [merge_of_gt h₁, merge_of_lt h₂]
  · rw [merge_of_gt h₁, merge_of_gt (g := g.merge h) (by omega), merge_of_gt (by omega)]
  · rw [merge_of_gt h₁, merge_of_gt h₂, merge_of_gt h₁, merge_of_gt (by omega)]

/-! ## Failures that may be missing -/

@[simp] theorem mergeOption_none_left (g? : Option Failure) : mergeOption none g? = g? := by
  cases g? <;> rfl

@[simp] theorem mergeOption_none_right (f? : Option Failure) : mergeOption f? none = f? := by
  cases f? <;> rfl

theorem mergeOption_assoc (f? g? h? : Option Failure) :
    mergeOption (mergeOption f? g?) h? = mergeOption f? (mergeOption g? h?) := by
  cases f? with
  | none => rw [mergeOption_none_left, mergeOption_none_left]
  | some f =>
    cases g? with
    | none => rw [mergeOption_none_right, mergeOption_none_left]
    | some g =>
      cases h? with
      | none => rw [mergeOption_none_right, mergeOption_none_right]
      | some h => simp only [mergeOption, merge_assoc]

/-! ## Lists of failures -/

/-- The merge of all failures of a list. -/
def join : List Failure → Option Failure
  | [] => none
  | f :: fs => mergeOption (some f) (join fs)

theorem join_append (fs gs : List Failure) : join (fs ++ gs) = mergeOption (join fs) (join gs) := by
  induction fs with
  | nil => rw [List.nil_append, join, mergeOption_none_left]
  | cons f fs ih => rw [List.cons_append, join, join, ih, mergeOption_assoc]

/-! ## Collections of failures -/

theorem mem_merge {f g : Failure} {text : String} :
    text ∈ (f.merge g).expected ↔
      g.position ≤ f.position ∧ text ∈ f.expected ∨
        f.position ≤ g.position ∧ text ∈ g.expected := by
  rcases Nat.lt_trichotomy f.position g.position with h | h | h
  · rw [merge_of_lt h]
    simp only [Nat.not_le.2 h, Nat.le_of_lt h, false_and, false_or, true_and]
  · rw [merge_of_eq h]
    simp only [SortedSet.mem_union, h, Nat.le_refl, true_and]
  · rw [merge_of_gt h]
    simp only [Nat.not_le.2 h, Nat.le_of_lt h, false_and, or_false, true_and]

/-- What a collection of failures comes to: their furthest position, with whatever one of them
expects there; nothing if there is none of them. -/
structure IsJoin (failures : Failure → Prop) (join? : Option Failure) : Prop where
  none_iff : join? = none ↔ ∀ f, ¬ failures f
  furthest : ∀ j, join? = some j → ∀ f, failures f → f.position ≤ j.position
  attained : ∀ j, join? = some j → ∃ f, failures f ∧ f.position = j.position
  expected : ∀ j, join? = some j → ∀ text,
    text ∈ j.expected ↔ ∃ f, failures f ∧ f.position = j.position ∧ text ∈ f.expected

theorem IsJoin.unique {failures : Failure → Prop} {a? b? : Option Failure}
    (ha : IsJoin failures a?) (hb : IsJoin failures b?) : a? = b? := by
  cases a? with
  | none => exact (hb.none_iff.2 (ha.none_iff.1 rfl)).symm
  | some a =>
    cases b? with
    | none => exact ha.none_iff.2 (hb.none_iff.1 rfl)
    | some b =>
      obtain ⟨f, hf, hfa⟩ := ha.attained a rfl
      obtain ⟨g, hg, hgb⟩ := hb.attained b rfl
      have hpos : a.position = b.position := by
        have := hb.furthest b rfl f hf
        have := ha.furthest a rfl g hg
        omega
      have hset : a.expected = b.expected := SortedSet.ext fun text => by
        rw [ha.expected a rfl, hb.expected b rfl, hpos]
      rw [show a = b from by cases a; cases b; simp_all]

theorem IsJoin.congr {failures failures' : Failure → Prop} {join? : Option Failure}
    (h : IsJoin failures join?) (hiff : ∀ f, failures f ↔ failures' f) :
    IsJoin failures' join? := by
  obtain rfl : failures = failures' := funext fun f => propext (hiff f)
  exact h

theorem isJoin_none : IsJoin (fun _ => False) none := ⟨by simp, nofun, nofun, nofun⟩

theorem isJoin_some (f : Failure) : IsJoin (· = f) (some f) := by
  refine ⟨⟨nofun, fun h => absurd rfl (h f)⟩, ?_, ?_, ?_⟩
  · rintro j ⟨⟩ g rfl
    exact Nat.le_refl _
  · rintro j ⟨⟩
    exact ⟨f, rfl, rfl⟩
  · rintro j ⟨⟩ text
    simp

/-- **The merge of what two collections come to** is what they come to together. -/
theorem IsJoin.merge {failures failures' : Failure → Prop} {a? b? : Option Failure}
    (ha : IsJoin failures a?) (hb : IsJoin failures' b?) :
    IsJoin (fun f => failures f ∨ failures' f) (mergeOption a? b?) := by
  cases a? with
  | none =>
    rw [mergeOption_none_left]
    exact hb.congr fun f => ⟨.inr, fun h => h.resolve_left (ha.none_iff.1 rfl f)⟩
  | some a =>
    cases b? with
    | none =>
      rw [mergeOption_none_right]
      exact ha.congr fun f => ⟨.inl, fun h => h.resolve_right (hb.none_iff.1 rfl f)⟩
    | some b =>
      have hmax := position_merge a b
      obtain ⟨f, hf, hfa⟩ := ha.attained a rfl
      obtain ⟨g, hg, hgb⟩ := hb.attained b rfl
      refine ⟨⟨nofun, fun h => absurd (.inl hf) (h f)⟩, ?_, ?_, ?_⟩
      · rintro j ⟨⟩ h (hh | hh)
        · have := ha.furthest a rfl h hh
          omega
        · have := hb.furthest b rfl h hh
          omega
      · rintro j ⟨⟩
        -- the merge stands where the further of the two does
        rcases Nat.le_total a.position b.position with hle | hle
        · exact ⟨g, .inr hg, by omega⟩
        · exact ⟨f, .inl hf, by omega⟩
      · rintro j ⟨⟩ text
        rw [mem_merge, ha.expected a rfl, hb.expected b rfl]
        constructor
        · rintro (⟨hle, h, hh, hpos, htext⟩ | ⟨hle, h, hh, hpos, htext⟩)
          · exact ⟨h, .inl hh, by omega, htext⟩
          · exact ⟨h, .inr hh, by omega, htext⟩
        · rintro ⟨h, hh | hh, hpos, htext⟩
          · have := ha.furthest a rfl h hh
            exact .inl ⟨by omega, h, hh, by omega, htext⟩
          · have := hb.furthest b rfl h hh
            exact .inr ⟨by omega, h, hh, by omega, htext⟩

theorem isJoin_toList (f? : Option Failure) : IsJoin (f? = some ·) f? := by
  cases f? with
  | none => exact isJoin_none.congr fun f => by simp
  | some f => exact (isJoin_some f).congr fun g => by rw [Option.some.injEq, eq_comm]

theorem isJoin_join (fs : List Failure) : IsJoin (· ∈ fs) (join fs) := by
  induction fs with
  | nil => exact isJoin_none.congr fun f => by simp
  | cons f fs ih => exact ((isJoin_some f).merge ih).congr fun g => List.mem_cons.symm

end Failure

end Packrat
