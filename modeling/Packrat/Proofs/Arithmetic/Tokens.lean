import Packrat.Arithmetic.Grammars
import Packrat.Proofs.Arithmetic.Reading
import Packrat.Proofs.ContextFree

/-!
# Tokens of arithmetic

What a grammar matches and generates without reference to other rules: runs of characters of a
class, from which white space and numbers are made, and choices of literals, among them those of
single characters, such as the operators of a level (`Level.expr_eq`).
-/

set_option autoImplicit false

namespace Packrat

variable {grammar : Grammar} {input : Input} {pos : Nat} {before after text : List Char}

namespace Grammar

/-! ## Runs of characters -/

variable {cls : CharClass}

theorem accepts_whitespace (c : Char) :
    CharClass.whitespace.accepts c = Unicode.isWhiteSpace c := by
  simp [CharClass.accepts, CharClass.whitespace, CharClass.Part.accepts]

theorem derives_run (hpos : input.Remains pos (before ++ after))
    (hbefore : ∀ c ∈ before, cls.accepts c = true)
    (hafter : ∀ c, after.head? = some c → cls.accepts c = false) :
    grammar.Derives input (.zeroOrMore (.oneIn cls)) pos (.success (pos + before.length)) := by
  induction before generalizing pos with
  | nil =>
    refine .zeroOrMore_failure (.oneIn_failure fun c hc => hafter c ?_)
    exact hpos.atom?.symm.trans hc
  | cons c before ih =>
    rw [List.forall_mem_cons] at hbefore
    have hrest := ih hpos.tail hbefore.2
    rw [Nat.add_assoc, Nat.add_comm 1] at hrest
    exact .zeroOrMore_more (.oneIn_success hpos.atom? hbefore.1) (by omega) hrest

theorem derives_run_one (hpos : input.Remains pos (before ++ after)) (hne : before ≠ [])
    (hbefore : ∀ c ∈ before, cls.accepts c = true)
    (hafter : ∀ c, after.head? = some c → cls.accepts c = false) :
    grammar.Derives input (.oneOrMore (.oneIn cls)) pos (.success (pos + before.length)) := by
  obtain ⟨c, before, rfl⟩ := List.exists_cons_of_ne_nil hne
  rw [List.forall_mem_cons] at hbefore
  have hrest := @derives_run grammar input (pos + 1) before after cls hpos.tail hbefore.2 hafter
  rw [Nat.add_assoc, Nat.add_comm 1] at hrest
  exact .oneOrMore_more (.oneIn_success hpos.atom? hbefore.1) (by omega) hrest

theorem generates_run (h : grammar.Generates (.zeroOrMore (.oneIn cls)) text) :
    ∀ c ∈ text, cls.accepts c = true := by
  generalize hexpr : Expr.zeroOrMore (.oneIn cls) = expr at h
  induction h with
  | zeroOrMore_nil => exact fun c hmem => nomatch hmem
  | zeroOrMore_cons round rest _ ih =>
    cases hexpr
    obtain ⟨c, hc, rfl⟩ := generates_oneIn_iff.1 round
    exact List.forall_mem_cons.2 ⟨hc, ih rfl⟩
  | _ => cases hexpr

theorem generates_run_one (h : grammar.Generates (.oneOrMore (.oneIn cls)) text) :
    text ≠ [] ∧ ∀ c ∈ text, cls.accepts c = true := by
  cases h with
  | oneOrMore round rest =>
    obtain ⟨c, hc, rfl⟩ := generates_oneIn_iff.1 round
    exact ⟨nofun, List.forall_mem_cons.2 ⟨hc, generates_run rest⟩⟩

/-! ## Choices of literals -/

section
variable {literals : List String} {literal : String}

/-- A choice of literals takes the one that stands there, if it is the only one. -/
theorem derives_choice_literal (hmem : literal ∈ literals)
    (hbegins : literal.toList <+: input.rest pos)
    (hunique : ∀ other ∈ literals, other.toList <+: input.rest pos → other = literal) :
    grammar.Derives input (.choice (literals.map .literal)) pos
      (.success (pos + literal.toList.length)) := by
  induction literals with
  | nil => cases hmem
  | cons first literals ih =>
    rw [List.forall_mem_cons] at hunique
    by_cases hfirst : first.toList <+: input.rest pos
    · cases hunique.1 hfirst
      exact .choice_success (.literal_success hbegins)
    · have hne : literal ≠ first := fun heq => hfirst (heq ▸ hbegins)
      exact .choice_failure (.literal_failure hfirst)
        (ih (List.mem_of_ne_of_mem hne hmem) hunique.2)

theorem derives_choice_literal_failure
    (h : ∀ literal ∈ literals, ¬ literal.toList <+: input.rest pos) :
    grammar.Derives input (.choice (literals.map .literal)) pos .failure := by
  induction literals with
  | nil => exact .choice_nil
  | cons first literals ih =>
    rw [List.forall_mem_cons] at h
    exact .choice_failure (.literal_failure h.1) (ih h.2)

end

/-! ## Single characters -/

/-- A literal of one character. -/
def charLiteral (c : Char) : Expr := .literal (String.ofList [c])

theorem char_prefix_iff {c : Char} (hpos : input.Remains pos text) :
    (String.ofList [c]).toList <+: input.rest pos ↔ text.head? = some c := by
  rw [hpos.rest, String.toList_ofList, List.head?_eq_some_iff]
  exact ⟨fun ⟨rest, hrest⟩ => ⟨rest, hrest.symm⟩, fun ⟨rest, hrest⟩ => ⟨rest, hrest.symm⟩⟩

theorem derives_charLiteral {c : Char} (hpos : input.Remains pos (c :: after)) :
    grammar.Derives input (charLiteral c) pos (.success (pos + 1)) := by
  have h : grammar.Derives input (charLiteral c) pos _ :=
    .literal_success ((char_prefix_iff hpos).2 rfl)
  rwa [String.toList_ofList] at h

theorem derives_charLiteral_failure {c : Char} (hpos : input.Remains pos after)
    (h : after.head? ≠ some c) : grammar.Derives input (charLiteral c) pos .failure :=
  .literal_failure fun hbegins => h ((char_prefix_iff hpos).1 hbegins)

variable {chars : List Char}

theorem choice_char_eq :
    chars.map charLiteral = (chars.map fun c => String.ofList [c]).map .literal := by
  rw [List.map_map]
  rfl

theorem derives_choice_char {c : Char} (hmem : c ∈ chars) (hpos : input.Remains pos (c :: after)) :
    grammar.Derives input (.choice (chars.map charLiteral)) pos (.success (pos + 1)) := by
  have hunique : ∀ other ∈ chars.map fun c => String.ofList [c],
      other.toList <+: input.rest pos → other = String.ofList [c] := by
    refine List.forall_mem_map.2 fun other _ hother => ?_
    rw [Option.some.inj ((char_prefix_iff hpos).1 hother)]
  have hliteral : String.ofList [c] ∈ chars.map fun c => String.ofList [c] :=
    List.mem_map.2 ⟨c, hmem, rfl⟩
  have h : grammar.Derives input _ pos _ :=
    derives_choice_literal hliteral ((char_prefix_iff hpos).2 rfl) hunique
  rwa [String.toList_ofList, ← choice_char_eq] at h

theorem derives_choice_char_failure (hpos : input.Remains pos after)
    (h : ∀ c, after.head? = some c → c ∉ chars) :
    grammar.Derives input (.choice (chars.map charLiteral)) pos .failure := by
  rw [choice_char_eq]
  refine derives_choice_literal_failure (List.forall_mem_map.2 fun c hmem hbegins => ?_)
  exact h c ((char_prefix_iff hpos).1 hbegins) hmem

theorem generates_choice_char (h : grammar.Generates (.choice (chars.map charLiteral)) text) :
    ∃ c ∈ chars, text = [c] := by
  obtain ⟨expr, hmem, h⟩ := generates_choice_iff.1 h
  obtain ⟨c, hc, rfl⟩ := List.mem_map.1 hmem
  exact ⟨c, hc, by rw [generates_literal_iff.1 h, String.toList_ofList]⟩

end Grammar

/-! ## Operators -/

namespace Arithmetic.Level

/-- The signs of the operators of the level. -/
def signs : Level → List Char
  | sum => ['+', '-']
  | product => ['*', '/', '%']

/-- The expression for the operators of the level. -/
def expr : Level → Expr
  | sum => sumOperator
  | product => productOperator

theorem expr_eq (level : Level) : level.expr = .choice (level.signs.map Grammar.charLiteral) := by
  cases level <;> rfl

theorem mem_signs_iff {level : Level} {c : Char} :
    c ∈ level.signs ↔ ∃ operator : Operator, operator.level = level ∧ c = operator.sign := by
  constructor
  · intro hmem
    cases level with
    | sum =>
      simp only [signs, List.mem_cons, List.not_mem_nil, or_false] at hmem
      obtain rfl | rfl := hmem
      · exact ⟨.add, rfl, rfl⟩
      · exact ⟨.sub, rfl, rfl⟩
    | product =>
      simp only [signs, List.mem_cons, List.not_mem_nil, or_false] at hmem
      obtain rfl | rfl | rfl := hmem
      · exact ⟨.mul, rfl, rfl⟩
      · exact ⟨.div, rfl, rfl⟩
      · exact ⟨.mod, rfl, rfl⟩
  · rintro ⟨operator, rfl, rfl⟩
    cases operator <;> decide

theorem derives_expr (operator : Operator) (hpos : input.Remains pos (operator.sign :: after)) :
    grammar.Derives input operator.level.expr pos (.success (pos + 1)) := by
  rw [expr_eq]
  exact Grammar.derives_choice_char (mem_signs_iff.2 ⟨operator, rfl, rfl⟩) hpos

theorem derives_expr_failure (level : Level) (hpos : input.Remains pos after)
    (h : ∀ c, after.head? = some c → ∀ operator : Operator, operator.level = level →
      c ≠ operator.sign) : grammar.Derives input level.expr pos .failure := by
  rw [expr_eq]
  refine Grammar.derives_choice_char_failure hpos fun c hc hmem => ?_
  obtain ⟨operator, hlevel, hsign⟩ := mem_signs_iff.1 hmem
  exact h c hc operator hlevel hsign

theorem generates_expr {level : Level} (h : grammar.Generates level.expr text) :
    ∃ operator : Operator, operator.level = level ∧ text = [operator.sign] := by
  rw [expr_eq] at h
  obtain ⟨c, hmem, rfl⟩ := Grammar.generates_choice_char h
  obtain ⟨operator, hlevel, rfl⟩ := mem_signs_iff.1 hmem
  exact ⟨operator, hlevel, rfl⟩

end Arithmetic.Level

end Packrat
