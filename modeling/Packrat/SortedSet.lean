/-!
# Sorted sets

A finite set kept as its strictly ascending list of members, so equal sets are equal values and
listing one needs no sorting. `mem_insert` and `mem_union` say what the two operations add, and
`ext` that a set is determined by its members.
-/

set_option autoImplicit false

namespace Packrat

/-- A finite set of values, listed in strictly ascending order. -/
structure SortedSet (α : Type) [Ord α] where
  toList : List α
  ascending : toList.Pairwise fun a b => compare a b = .lt
  deriving DecidableEq

namespace SortedSet

variable {α : Type} [Ord α]

/-- The set without members. -/
def empty : SortedSet α := ⟨[], .nil⟩

instance : EmptyCollection (SortedSet α) := ⟨empty⟩

/-- The set with one member. -/
def singleton (a : α) : SortedSet α := ⟨[a], List.pairwise_singleton _ _⟩

instance : Membership α (SortedSet α) := ⟨fun s a => a ∈ s.toList⟩

@[simp] theorem not_mem_empty (a : α) : a ∉ (∅ : SortedSet α) := List.not_mem_nil

@[simp] theorem mem_singleton {a b : α} : a ∈ singleton b ↔ a = b := List.mem_singleton

/-- Insertion into an ascending list; a member already there is kept once. -/
def insertList (a : α) : List α → List α
  | [] => [a]
  | b :: rest =>
    match compare a b with
    | .lt => a :: b :: rest
    | .eq => b :: rest
    | .gt => b :: insertList a rest

variable [Std.LawfulEqOrd α]

theorem mem_insertList {a x : α} {l : List α} : x ∈ insertList a l ↔ x = a ∨ x ∈ l := by
  induction l with
  | nil => simp [insertList]
  | cons b rest ih =>
    simp only [insertList]
    split
    · simp
    · next h => cases Std.LawfulEqOrd.eq_of_compare h; simp
    · simp only [List.mem_cons, ih]; grind

variable [Std.TransOrd α]

theorem pairwise_insertList {a : α} {l : List α}
    (h : l.Pairwise fun x y => compare x y = .lt) :
    (insertList a l).Pairwise fun x y => compare x y = .lt := by
  induction l with
  | nil => exact List.pairwise_singleton _ _
  | cons b rest ih =>
    obtain ⟨hb, hrest⟩ := List.pairwise_cons.1 h
    simp only [insertList]
    split
    · next hlt =>
      refine List.pairwise_cons.2 ⟨fun x hx => ?_, h⟩
      rcases List.mem_cons.1 hx with rfl | hx
      · exact hlt
      · exact Std.TransCmp.lt_trans hlt (hb x hx)
    · exact h
    · next hgt =>
      refine List.pairwise_cons.2 ⟨fun x hx => ?_, ih hrest⟩
      rcases mem_insertList.1 hx with rfl | hx
      · exact Std.OrientedCmp.lt_of_gt hgt
      · exact hb x hx

/-- The set with one more member. -/
def insert (a : α) (s : SortedSet α) : SortedSet α :=
  ⟨insertList a s.toList, pairwise_insertList s.ascending⟩

/-- The members of either set. -/
def union (s t : SortedSet α) : SortedSet α := t.toList.foldl (fun s a => s.insert a) s

/-- The set of the members of a list. -/
def ofList (l : List α) : SortedSet α := l.foldl (fun s a => s.insert a) ∅

@[simp] theorem mem_insert {a x : α} {s : SortedSet α} : x ∈ s.insert a ↔ x = a ∨ x ∈ s :=
  mem_insertList

theorem mem_foldl_insert {x : α} {l : List α} {s : SortedSet α} :
    x ∈ l.foldl (fun s a => s.insert a) s ↔ x ∈ s ∨ x ∈ l := by
  induction l generalizing s with
  | nil => simp
  | cons a l ih => simp only [List.foldl_cons, ih, mem_insert, List.mem_cons]; grind

@[simp] theorem mem_union {x : α} {s t : SortedSet α} : x ∈ s.union t ↔ x ∈ s ∨ x ∈ t :=
  mem_foldl_insert

@[simp] theorem mem_ofList {x : α} {l : List α} : x ∈ ofList l ↔ x ∈ l := by
  simp [ofList, mem_foldl_insert]

/-- Two ascending lists with the same members are the same list. -/
theorem eq_of_mem_iff {l m : List α} (hl : l.Pairwise fun x y => compare x y = .lt)
    (hm : m.Pairwise fun x y => compare x y = .lt) (h : ∀ x, x ∈ l ↔ x ∈ m) : l = m := by
  induction l generalizing m with
  | nil =>
    cases m with
    | nil => rfl
    | cons b m => exact absurd ((h b).2 List.mem_cons_self) List.not_mem_nil
  | cons a l ih =>
    cases m with
    | nil => exact absurd ((h a).1 List.mem_cons_self) List.not_mem_nil
    | cons b m =>
      obtain ⟨hal, hl'⟩ := List.pairwise_cons.1 hl
      obtain ⟨hbm, hm'⟩ := List.pairwise_cons.1 hm
      have irrefl (x : α) : compare x x ≠ .lt := by
        simp [Std.compare_self]
      have hab : a = b := by
        rcases List.mem_cons.1 ((h a).1 List.mem_cons_self) with hab | ham
        · exact hab
        · rcases List.mem_cons.1 ((h b).2 List.mem_cons_self) with hba | hbl
          · exact hba.symm
          · exact absurd (Std.TransCmp.lt_trans (hal b hbl) (hbm a ham)) (irrefl a)
      subst hab
      congr 1
      refine ih hl' hm' fun x => ⟨fun hx => ?_, fun hx => ?_⟩
      · rcases List.mem_cons.1 ((h x).1 (List.mem_cons_of_mem _ hx)) with rfl | hx'
        · exact absurd (hal _ hx) (irrefl _)
        · exact hx'
      · rcases List.mem_cons.1 ((h x).2 (List.mem_cons_of_mem _ hx)) with rfl | hx'
        · exact absurd (hbm _ hx) (irrefl _)
        · exact hx'

theorem ext {s t : SortedSet α} (h : ∀ x, x ∈ s ↔ x ∈ t) : s = t := by
  obtain ⟨l, hl⟩ := s
  obtain ⟨m, hm⟩ := t
  cases eq_of_mem_iff hl hm h
  rfl

end SortedSet

end Packrat
