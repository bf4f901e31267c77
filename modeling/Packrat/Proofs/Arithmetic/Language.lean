import Packrat.Proofs.Arithmetic.Recognition
import Packrat.Proofs.ContextFree

/-!
# The language of arithmetic

What a grammar for arithmetic generates, read as a context-free one, reads as a term
(`Spells.readsAs`), given that its rules for numbers, operators and white space generate what they
should. Rounds of a repetition are added one by one to what stands on the left of them; a term in
parentheses is shorter than the text with these, which is what the induction is on.
-/

set_option autoImplicit false

namespace Packrat.Arithmetic

/-- The rules for white space, numbers and operators generate nothing but these. -/
structure Spells (grammar : Grammar) (sign : Level → Expr) (blank : Char → Bool) : Prop
    extends HasRules grammar sign where
  ws : ∀ text, grammar.Generates (.ruleRef "ws") text → ∀ c ∈ text, blank c = true
  number : ∀ text, grammar.Generates (.ruleRef "num") text →
    text ≠ [] ∧ ∀ c ∈ text, c.isDigit = true
  sign : ∀ level text, grammar.Generates (sign level) text →
    ∃ operator : Operator, operator.level = level ∧ text = [operator.sign]

/-- Wherever it stands, the text reads as a term. -/
def Readable (blank : Char → Bool) (phrase : Phrase) (text : List Char) : Prop :=
  ∀ pos, ∃ term, Reads blank phrase pos text term

namespace Spells

variable {grammar : Grammar} {sign : Level → Expr} {blank : Char → Bool}
  (h : Spells grammar sign blank) {level : Level} {text : List Char}
include h

theorem readable_factor
    (inner : ∀ shorter, shorter.length < text.length →
      grammar.Generates (.ruleRef "expr") shorter → Readable blank (.operands .sum) shorter)
    (hg : grammar.Generates (.ruleRef "factor") text) : Readable blank .factor text := by
  intro pos
  rw [Grammar.generates_ruleRef_iff h.factor] at hg
  obtain ⟨expr, hmem, hg⟩ := Grammar.generates_choice_iff.1 hg
  rcases List.mem_cons.1 hmem with rfl | hmem
  · simp only [Grammar.generates_sequence_cons_iff, Grammar.generates_sequence_nil_iff,
      Grammar.generates_literal_iff] at hg
    obtain ⟨_, _, rfl, ⟨before, _, hbefore, ⟨term, _, hterm, ⟨after, _, hafter,
      ⟨_, _, rfl, rfl, rfl⟩, rfl⟩, rfl⟩, rfl⟩, rfl⟩ := hg
    obtain ⟨inner, hinner⟩ := inner term (by simp; omega) hterm (pos + 1 + before.length)
    exact ⟨inner, .parentheses (h.ws before hbefore) (h.ws after hafter) hinner⟩
  · rw [List.mem_singleton.1 hmem] at hg
    obtain ⟨hne, hdigits⟩ := h.number text hg
    exact ⟨_, .number hne hdigits⟩

theorem reads_append {bound : Nat}
    (operand : ∀ shorter, shorter.length ≤ bound →
      grammar.Generates (.ruleRef level.operand.name) shorter →
        Readable blank level.operand shorter)
    {operations : List Char} (hbound : operations.length ≤ bound)
    (hg : grammar.Generates (.zeroOrMore (operationExpr (sign level) level.operand.name))
      operations) {pos : Nat} {left : List Char} {leftTerm : Term}
    (hleft : Reads blank (.operands level) pos left leftTerm) :
    ∃ term, Reads blank (.operands level) pos (left ++ operations) term := by
  generalize hexpr : Expr.zeroOrMore (operationExpr (sign level) level.operand.name) = expr at hg
  induction hg generalizing left leftTerm with
  | zeroOrMore_nil => exact ⟨leftTerm, by rwa [List.append_nil]⟩
  | zeroOrMore_cons round rest _ ih =>
    cases hexpr
    simp only [operationExpr, Grammar.generates_sequence_cons_iff,
      Grammar.generates_sequence_nil_iff] at round
    obtain ⟨before, _, hbefore, ⟨_, _, hsign, ⟨after, _, hafter, ⟨right, _, hright, rfl, rfl⟩,
      rfl⟩, rfl⟩, rfl⟩ := round
    obtain ⟨operator, hlevel, rfl⟩ := h.sign level _ hsign
    simp only [List.length_append] at hbound
    obtain ⟨rightTerm, hright⟩ := operand right (by omega) hright
      (pos + left.length + before.length + 1 + after.length)
    have hoperation := Reads.operation hlevel hleft (h.ws before hbefore) (h.ws after hafter) hright
    obtain ⟨term, hterm⟩ := ih (by omega) hoperation rfl
    exact ⟨term, by simpa using hterm⟩
  | _ => cases hexpr

theorem readable_operands
    (operand : ∀ shorter, shorter.length ≤ text.length →
      grammar.Generates (.ruleRef level.operand.name) shorter →
        Readable blank level.operand shorter)
    (hg : grammar.Generates (.ruleRef (Phrase.operands level).name) text) :
    Readable blank (.operands level) text := by
  intro pos
  rw [Grammar.generates_ruleRef_iff (h.operands level)] at hg
  simp only [operands, Grammar.generates_sequence_cons_iff,
    Grammar.generates_sequence_nil_iff] at hg
  obtain ⟨first, _, hfirst, ⟨operations, _, hoperations, rfl, rfl⟩, rfl⟩ := hg
  simp only [List.append_nil, List.length_append] at operand ⊢
  obtain ⟨left, hleft⟩ := operand first (by omega) hfirst pos
  exact h.reads_append operand (by omega) hoperations (.operand hleft)

/-- **What the rules generate reads as a term**, by induction on the length of the text, and for one
text from operands of products to sums. -/
theorem readable (hg : grammar.Generates (.ruleRef "expr") text) :
    Readable blank (.operands .sum) text := by
  induction hlength : text.length using Nat.strongRecOn generalizing text with
  | ind length ih =>
    have factor (shorter : List Char) (hle : shorter.length ≤ length)
        (hg : grammar.Generates (.ruleRef "factor") shorter) : Readable blank .factor shorter :=
      h.readable_factor (fun inner hlt hg => ih inner.length (by omega) hg rfl) hg
    have product (shorter : List Char) (hle : shorter.length ≤ length)
        (hg : grammar.Generates (.ruleRef "term") shorter) :
        Readable blank (.operands .product) shorter :=
      h.readable_operands (fun inner hinner hg => factor inner (by omega) hg) hg
    exact h.readable_operands (fun inner hinner hg => product inner (by omega) hg) hg

theorem readsAs (hg : grammar.Generates (.ruleRef "calculator") text) :
    ∃ term, ReadsAs blank text term := by
  rw [Grammar.generates_ruleRef_iff h.calculator] at hg
  simp only [wholeTerm, Grammar.generates_sequence_cons_iff, Grammar.generates_sequence_nil_iff,
    Grammar.generates_endOfInput_iff] at hg
  obtain ⟨before, _, hbefore, ⟨inner, _, hinner, ⟨after, _, hafter, ⟨_, _, rfl, rfl, rfl⟩, rfl⟩,
    rfl⟩, rfl⟩ := hg
  obtain ⟨term, hterm⟩ := h.readable hinner before.length
  exact ⟨term, before, inner, after, h.ws before hbefore, h.ws after hafter, hterm, by simp⟩

end Spells

end Packrat.Arithmetic
