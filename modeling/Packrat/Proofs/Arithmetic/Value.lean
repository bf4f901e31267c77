import Mathlib.Data.List.Induction
import Mathlib.Data.Nat.Digits.Defs
import Packrat.Arithmetic.Term

/-!
# Values in words of 64 bits

What a term comes to in signed words of 64 bits, by the operations of such words and apart from the
evaluation with integers in a range: its value, if all numbers and results fit (`Term.Computes`), or
nothing (`Term.Fails`). One of the two holds of every term (`Term.computes_or_fails`), and
evaluation finds it (`Term.evaluate_eq_some_iff`, `Term.evaluate_eq_none_iff`).
-/

set_option autoImplicit false

namespace Packrat.Arithmetic

/-! ## Checked operations -/

/-- The result of an operation on words, unless it overflows or divides by zero. Only the quotient
of the least word and minus one overflows in a division, and in the remainder that goes with it. -/
def Operator.checked? (operator : Operator) (a b : Int64) : Option Int64 :=
  match operator with
  | .add => if BitVec.saddOverflow a.toBitVec b.toBitVec then none else some (a + b)
  | .sub => if BitVec.ssubOverflow a.toBitVec b.toBitVec then none else some (a - b)
  | .mul => if BitVec.smulOverflow a.toBitVec b.toBitVec then none else some (a * b)
  | .div => if b = 0 ∨ a = Int64.minValue ∧ b = -1 then none else some (a / b)
  | .mod => if b = 0 ∨ a = Int64.minValue ∧ b = -1 then none else some (a % b)

namespace WordRange

theorem fit?_signed64 (value : Int) :
    signed64.fit? value = if -2 ^ 63 ≤ value ∧ value < 2 ^ 63 then some value else none := by
  unfold fit? signed64
  simp only
  split <;> split <;> first | rfl | omega

theorem fit?_toInt (word : Int64) : signed64.fit? word.toInt = some word.toInt := by
  rw [fit?_signed64, if_pos ⟨word.le_toInt, word.toInt_lt⟩]

/-- An exact result that overflows is none, and one that does not is that of the words. -/
theorem fit?_of_overflow {exact : Int} {overflows : Bool} {word : Int64}
    (hoverflows : overflows = (decide (exact ≥ 2 ^ 63) || decide (exact < -2 ^ 63)))
    (hword : word.toInt = exact.bmod (2 ^ 64)) :
    signed64.fit? exact = (if overflows then none else some word).map Int64.toInt := by
  rw [fit?_signed64]
  cases overflows with
  | true =>
    have h : ¬ (-2 ^ 63 ≤ exact ∧ exact < 2 ^ 63) := by
      have h := hoverflows.symm
      simp only [Bool.or_eq_true, decide_eq_true_eq] at h
      omega
    rw [if_neg h]
    rfl
  | false =>
    have h : -2 ^ 63 ≤ exact ∧ exact < 2 ^ 63 := by
      have h := hoverflows.symm
      simp only [Bool.or_eq_false_iff, decide_eq_false_iff_not] at h
      omega
    rw [if_pos h, if_neg Bool.false_ne_true, Option.map_some, hword,
      Int.bmod_eq_of_le (by omega) (by omega)]

/-- The quotient of two words fits unless it is that of the least word and minus one. -/
theorem tdiv_fits {a b : Int64} (hb : b ≠ 0) :
    (-2 ^ 63 ≤ a.toInt.tdiv b.toInt ∧ a.toInt.tdiv b.toInt < 2 ^ 63) ↔
      ¬ (a = Int64.minValue ∧ b = -1) := by
  have ha := a.le_toInt
  have ha' := a.toInt_lt
  have hzero : b.toInt ≠ 0 := fun h => hb (Int64.toInt_inj.1 h)
  have hquotient := Int.natAbs_tdiv a.toInt b.toInt
  rw [← Int64.toInt_inj, ← @Int64.toInt_inj b, Int64.toInt_minValue,
    show (-1 : Int64).toInt = -1 by decide]
  by_cases hneg : b.toInt = -1
  · rw [hneg, Int.tdiv_neg, Int.tdiv_one]
    omega
  · by_cases hone : b.toInt = 1
    · rw [hone, Int.tdiv_one]
      omega
    · -- the quotient is at most half of the dividend
      have hhalf : a.toInt.natAbs / b.toInt.natAbs ≤ a.toInt.natAbs / 2 :=
        Nat.div_le_div_left (by omega) (by omega)
      have hquotient : (a.toInt.tdiv b.toInt).natAbs = a.toInt.natAbs / b.toInt.natAbs := hquotient
      omega

/-- A division of words, or its remainder, is undefined where the quotient does not fit. -/
theorem divides_of_exact {a b word : Int64} {exact : Int} (hword : ¬ (b = 0) →
      ¬ (a = Int64.minValue ∧ b = -1) → word.toInt = exact) :
    (if b.toInt = 0 then none else (signed64.fit? (a.toInt.tdiv b.toInt)).map fun _ => exact) =
      (if b = 0 ∨ a = Int64.minValue ∧ b = -1 then none else some word).map Int64.toInt := by
  by_cases hb : b = 0
  · rw [if_pos (by rw [hb]; rfl), if_pos (.inl hb)]
    rfl
  · have hzero : b.toInt ≠ 0 := fun h => hb (Int64.toInt_inj.1 h)
    rw [if_neg hzero, fit?_signed64]
    by_cases hmin : a = Int64.minValue ∧ b = -1
    · rw [if_neg fun h => (tdiv_fits hb).1 h hmin, if_pos (.inr hmin)]
      rfl
    · rw [if_pos ((tdiv_fits hb).2 hmin), if_neg (not_or.2 ⟨hb, hmin⟩), Option.map_some,
        Option.map_some, hword hb hmin]

/-- **Operations on integers in the range of words are those of words.** -/
theorem compute?_signed64 (operator : Operator) (a b : Int64) :
    signed64.compute? operator a.toInt b.toInt = (operator.checked? a b).map Int64.toInt := by
  cases operator with
  | add => exact fit?_of_overflow rfl (Int64.toInt_add a b)
  | sub => exact fit?_of_overflow rfl (Int64.toInt_sub a b)
  | mul => exact fit?_of_overflow rfl (Int64.toInt_mul a b)
  | div =>
    have hword (hb : ¬ b = 0) (hmin : ¬ (a = Int64.minValue ∧ b = -1)) :
        (a / b).toInt = a.toInt.tdiv b.toInt := by
      have hfits := (tdiv_fits hb).2 hmin
      rw [Int64.toInt_div, Int.bmod_eq_of_le (by omega) (by omega)]
    rw [Operator.checked?, ← divides_of_exact hword]
    unfold compute? fit?
    simp only
    split
    · rfl
    · split <;> rfl
  | mod => exact divides_of_exact fun _ _ => Int64.toInt_mod a b

end WordRange

/-! ## Numbers -/

/-- The number that decimal digits stand for, the first one being the highest. -/
def decimal (digits : List Char) : Nat :=
  Nat.ofDigits 10 (digits.reverse.map fun c => c.toNat - '0'.toNat)

theorem digitsValue_eq_decimal (digits : String) : digitsValue digits = decimal digits.toList := by
  unfold digitsValue decimal
  generalize digits.toList = chars
  induction chars using List.reverseRecOn with
  | nil => rfl
  | append_singleton chars c ih =>
    rw [List.foldl_append, ih, List.reverse_append]
    simp only [List.foldl_cons, List.foldl_nil, List.reverse_singleton, List.singleton_append,
      List.map_cons, Nat.ofDigits_cons]
    omega

/-! ## Terms -/

namespace Term

/-- All numbers of the term fit in words, no operation of it overflows or divides by zero, and it
comes to the value. -/
inductive Computes : Term → Int64 → Prop
  | number {digits : String} {value : Int64} (h : value.toInt = decimal digits.toList) :
      Computes (.number digits) value
  | operation {operator : Operator} {position : Nat} {left right : Term} {a b value : Int64}
      (hleft : Computes left a) (hright : Computes right b)
      (h : operator.checked? a b = some value) :
      Computes (.operation operator position left right) value

/-- A number of the term does not fit in a word, or an operation of it overflows or divides by
zero. -/
inductive Fails : Term → Prop
  | number {digits : String} (h : 2 ^ 63 ≤ decimal digits.toList) : Fails (.number digits)
  | left {operator : Operator} {position : Nat} {left right : Term} (h : Fails left) :
      Fails (.operation operator position left right)
  | right {operator : Operator} {position : Nat} {left right : Term} (h : Fails right) :
      Fails (.operation operator position left right)
  | operation {operator : Operator} {position : Nat} {left right : Term} {a b : Int64}
      (hleft : Computes left a) (hright : Computes right b) (h : operator.checked? a b = none) :
      Fails (.operation operator position left right)

theorem computes_or_fails (term : Term) : (∃ value, term.Computes value) ∨ term.Fails := by
  induction term with
  | number digits =>
    by_cases h : 2 ^ 63 ≤ decimal digits.toList
    · exact .inr (.number h)
    · refine .inl ⟨Int64.ofInt (decimal digits.toList), .number ?_⟩
      rw [Int64.toInt_ofInt_of_le (by omega) (by omega)]
  | operation operator position left right ihleft ihright =>
    rcases ihleft with ⟨a, hleft⟩ | hleft
    · rcases ihright with ⟨b, hright⟩ | hright
      · cases h : operator.checked? a b with
        | some value => exact .inl ⟨value, .operation hleft hright h⟩
        | none => exact .inr (.operation hleft hright h)
      · exact .inr (.right hright)
    · exact .inr (.left hleft)

theorem Computes.evaluate {term : Term} {value : Int64} (h : term.Computes value) :
    term.evaluate .signed64 = .ok value.toInt := by
  induction h with
  | number h =>
    rw [Term.evaluate, digitsValue_eq_decimal, ← h, WordRange.fit?_toInt]
  | @operation operator position left right a b value _ _ h ihleft ihright =>
    have hcompute := WordRange.compute?_signed64 operator a b
    rw [h] at hcompute
    simp only [Term.evaluate, ihleft, ihright, bind, Except.bind, hcompute, Option.map_some]

theorem Fails.evaluate {term : Term} (h : term.Fails) :
    ∃ fault, term.evaluate .signed64 = .error fault := by
  induction h with
  | @number digits h =>
    refine ⟨.number digits, ?_⟩
    rw [Term.evaluate, digitsValue_eq_decimal, WordRange.fit?_signed64, if_neg (by omega)]
  | left _ ih =>
    obtain ⟨fault, ih⟩ := ih
    exact ⟨fault, by simp only [Term.evaluate, ih, bind, Except.bind]⟩
  | @right operator position left right _ ih =>
    obtain ⟨fault, ih⟩ := ih
    cases hleft : left.evaluate .signed64 with
    | error fault' => exact ⟨fault', by simp only [Term.evaluate, hleft, bind, Except.bind]⟩
    | ok a => exact ⟨fault, by simp only [Term.evaluate, hleft, ih, bind, Except.bind]⟩
  | @operation operator position left right a b hleft hright h =>
    have hcompute := WordRange.compute?_signed64 operator a b
    rw [h] at hcompute
    refine ⟨.operation position, ?_⟩
    simp only [Term.evaluate, hleft.evaluate, hright.evaluate, bind, Except.bind, hcompute,
      Option.map_none]

/-- **Evaluation finds the value** of a term in words, and nothing else. -/
theorem evaluate_eq_some_iff {term : Term} {value : Int64} :
    (term.evaluate .signed64).toOption = some value.toInt ↔ term.Computes value := by
  constructor
  · intro h
    rcases term.computes_or_fails with ⟨other, hother⟩ | hfails
    · rw [hother.evaluate] at h
      rwa [← Int64.toInt_inj.1 (Option.some.inj h)]
    · obtain ⟨fault, hfault⟩ := hfails.evaluate
      rw [hfault] at h
      cases h
  · intro h
    rw [h.evaluate]
    rfl

theorem evaluate_eq_none_iff {term : Term} :
    (term.evaluate .signed64).toOption = none ↔ term.Fails := by
  constructor
  · intro h
    rcases term.computes_or_fails with ⟨value, hvalue⟩ | hfails
    · rw [hvalue.evaluate] at h
      cases h
    · exact hfails
  · intro h
    obtain ⟨fault, hfault⟩ := h.evaluate
    rw [hfault]
    rfl

end Term

end Packrat.Arithmetic
