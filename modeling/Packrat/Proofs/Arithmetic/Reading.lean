import Mathlib.Data.List.TakeWhile
import Packrat.Arithmetic.Term

/-!
# How terms are read

Which term a text stands for, apart from any grammar: an operation reads with the operators of its
level associated to the left and those of products bound more tightly than those of sums, with white
space around operators and inside of parentheses (`Reads`, `ReadsAs`). What may follow a text that
is read without belonging to it is the matter of `Ends`.
-/

set_option autoImplicit false

namespace Packrat.Arithmetic

/-! ## Operators -/

/-- How tightly an operator binds: one of products more tightly than one of sums. -/
inductive Level
  | sum
  | product
  deriving DecidableEq, Repr

namespace Operator

/-- How tightly the operator binds. -/
def level : Operator → Level
  | add => .sum
  | sub => .sum
  | mul => .product
  | div => .product
  | mod => .product

/-- The sign of the operator. -/
def sign : Operator → Char
  | add => '+'
  | sub => '-'
  | mul => '*'
  | div => '/'
  | mod => '%'

theorem ofText?_sign (operator : Operator) :
    ofText? (String.ofList [operator.sign]) = some operator := by
  cases operator <;> rfl

theorem sign_injective {a b : Operator} (h : a.sign = b.sign) : a = b := by
  cases a <;> cases b <;> simp_all [sign]

theorem sign_not_digit (operator : Operator) : operator.sign.isDigit = false := by
  cases operator <;> rfl

theorem closing_ne_sign (operator : Operator) : ')' ≠ operator.sign := by
  cases operator <;> decide

end Operator

/-- What a text may be read as: an operand without operators around it, or operands of a level with
operators between them. -/
inductive Phrase
  | factor
  | operands (level : Level)
  deriving DecidableEq, Repr

/-- The operands of a level's operators. -/
def Level.operand : Level → Phrase
  | sum => .operands .product
  | product => .factor

namespace Phrase

/-- The rule for the phrase in a grammar. -/
def name : Phrase → String
  | factor => "factor"
  | operands .sum => "expr"
  | operands .product => "term"

/-- The levels of the operators that stand in the phrase outside of parentheses. -/
def levels : Phrase → List Level
  | factor => []
  | operands .sum => [.sum, .product]
  | operands .product => [.product]

end Phrase

theorem Level.mem_levels (level : Level) : level ∈ (Phrase.operands level).levels := by
  cases level <;> decide

theorem Level.not_mem_levels (level : Level) : level ∉ level.operand.levels := by
  cases level <;> decide

theorem Level.levels_operand_subset {level other : Level} (h : other ∈ level.operand.levels) :
    other ∈ (Phrase.operands level).levels := by
  cases level <;> cases other <;> simp_all [operand, Phrase.levels]

/-! ## Texts -/

variable {blank : Char → Bool}

/-- The text reads as the term, for the white space of `blank` and at a position, which the
operations keep: that of the white space before their operators. -/
inductive Reads (blank : Char → Bool) : Phrase → Nat → List Char → Term → Prop
  | number {pos : Nat} {digits : List Char} (hne : digits ≠ [])
      (h : ∀ c ∈ digits, c.isDigit = true) :
      Reads blank .factor pos digits (.number (String.ofList digits))
  | parentheses {pos : Nat} {before text after : List Char} {term : Term}
      (hbefore : ∀ c ∈ before, blank c = true) (hafter : ∀ c ∈ after, blank c = true)
      (inner : Reads blank (.operands .sum) (pos + 1 + before.length) text term) :
      Reads blank .factor pos ('(' :: (before ++ (text ++ (after ++ [')'])))) term
  | operand {level : Level} {pos : Nat} {text : List Char} {term : Term}
      (h : Reads blank level.operand pos text term) : Reads blank (.operands level) pos text term
  | operation {level : Level} {operator : Operator} (hlevel : operator.level = level) {pos : Nat}
      {left before after right : List Char} {leftTerm rightTerm : Term}
      (hleft : Reads blank (.operands level) pos left leftTerm)
      (hbefore : ∀ c ∈ before, blank c = true) (hafter : ∀ c ∈ after, blank c = true)
      (hright : Reads blank level.operand (pos + left.length + before.length + 1 + after.length)
        right rightTerm) :
      Reads blank (.operands level) pos
        (left ++ (before ++ operator.sign :: (after ++ right)))
        (.operation operator (pos + left.length) leftTerm rightTerm)

/-- The whole text reads as the term, with white space around it. -/
def ReadsAs (blank : Char → Bool) (text : List Char) (term : Term) : Prop :=
  ∃ before inner after, (∀ c ∈ before, blank c = true) ∧ (∀ c ∈ after, blank c = true) ∧
    Reads blank (.operands .sum) before.length inner term ∧ text = before ++ (inner ++ after)

/-- No character that is white space has another meaning in a term. -/
structure IsBlank (blank : Char → Bool) : Prop where
  digit : ∀ c, c.isDigit = true → blank c = false
  opening : blank '(' = false
  closing : blank ')' = false
  sign : ∀ operator : Operator, blank operator.sign = false

theorem IsBlank.digit_eq_false (hb : IsBlank blank) {c : Char} (hc : blank c = true) :
    c.isDigit = false := by
  apply Bool.eq_false_iff.2
  intro hdigit
  rw [hb.digit c hdigit] at hc
  cases hc

theorem Reads.head {phrase : Phrase} {pos : Nat} {text : List Char} {term : Term}
    (h : Reads blank phrase pos text term) :
    ∃ c rest, text = c :: rest ∧ (c.isDigit = true ∨ c = '(') := by
  induction h with
  | @number pos digits hne hdigits =>
    obtain ⟨c, rest, rfl⟩ := List.exists_cons_of_ne_nil hne
    exact ⟨c, rest, rfl, .inl (hdigits c (.head _))⟩
  | parentheses => exact ⟨'(', _, rfl, .inr rfl⟩
  | operand _ ih => exact ih
  | operation _ _ _ _ _ ihleft =>
    obtain ⟨c, rest, rfl, hc⟩ := ihleft
    exact ⟨c, _, rfl, hc⟩

theorem Reads.head_not_blank {phrase : Phrase} {pos : Nat} {text after : List Char} {term : Term}
    (hb : IsBlank blank) (h : Reads blank phrase pos text term) {c : Char}
    (hc : (text ++ after).head? = some c) : blank c = false := by
  obtain ⟨c', rest, rfl, hdigit | rfl⟩ := h.head
  · cases hc
    exact hb.digit _ hdigit
  · cases hc
    exact hb.opening

/-! ## What follows -/

/-- The text may follow the phrase: it neither goes on with a digit nor, after white space, with an
operator that belongs to the phrase. -/
structure Ends (blank : Char → Bool) (phrase : Phrase) (text : List Char) : Prop where
  no_digit : ∀ c, text.head? = some c → c.isDigit = false
  no_sign : ∀ c, (text.dropWhile blank).head? = some c →
    ∀ operator : Operator, operator.level ∈ phrase.levels → c ≠ operator.sign

namespace Ends

variable {phrase : Phrase} {level : Level} {before after text : List Char}

theorem dropWhile_append (hbefore : ∀ c ∈ before, blank c = true) {c : Char}
    (hc : blank c = false) : (before ++ c :: after).dropWhile blank = c :: after := by
  rw [List.dropWhile_append_of_pos hbefore, List.dropWhile_cons_of_neg (by simp [hc])]

/-- White space and then a character that is neither white space nor digit may follow a phrase to
which the character does not belong. -/
theorem of_blank (hb : IsBlank blank) (hbefore : ∀ c ∈ before, blank c = true) {c : Char}
    (hblank : blank c = false) (hdigit : c.isDigit = false)
    (hsign : ∀ operator : Operator, operator.level ∈ phrase.levels → c ≠ operator.sign) :
    Ends blank phrase (before ++ c :: after) := by
  constructor
  · intro d hd
    cases before with
    | nil =>
      cases hd
      exact hdigit
    | cons first before =>
      cases hd
      exact hb.digit_eq_false (hbefore d (.head _))
  · intro d hd
    rw [dropWhile_append hbefore hblank] at hd
    cases hd
    exact hsign

theorem sign (hb : IsBlank blank) (hbefore : ∀ c ∈ before, blank c = true) (operator : Operator) :
    Ends blank operator.level.operand (before ++ operator.sign :: after) := by
  refine of_blank hb hbefore (hb.sign operator) operator.sign_not_digit ?_
  intro other hother heq
  cases Operator.sign_injective heq
  exact operator.level.not_mem_levels hother

theorem closing (hb : IsBlank blank) (hbefore : ∀ c ∈ before, blank c = true) (phrase : Phrase) :
    Ends blank phrase (before ++ ')' :: after) :=
  of_blank hb hbefore hb.closing rfl fun operator _ => operator.closing_ne_sign

theorem blanks (hb : IsBlank blank) (h : ∀ c ∈ text, blank c = true) (phrase : Phrase) :
    Ends blank phrase text := by
  constructor
  · intro c hc
    exact hb.digit_eq_false (h c (List.mem_of_mem_head? hc))
  · intro c hc
    rw [List.dropWhile_eq_nil_iff.2 h] at hc
    cases hc

theorem operand (h : Ends blank (.operands level) text) : Ends blank level.operand text :=
  ⟨h.no_digit, fun c hc operator hlevel =>
    h.no_sign c hc operator (Level.levels_operand_subset hlevel)⟩

end Ends

end Packrat.Arithmetic
