import Packrat.CommandLine
import Packrat.Proofs.Arithmetic.Agreement

/-!
# The place of a fault

The evaluation of a text in unsigned words from the left to the right, apart from trees and terms
(`Evaluates`), ends with a value, at a number that is too large, or at the sign of the first
operation without a result. Every text that reads as a term has one such ending, which is what its
term comes to (`Reads.evaluates`, `Evaluates.reads`). The command line reports a fault by the place
where the left operand ends, so its offset is that of the sign less the white space before the sign
(`CommandLine.fault_offset`), and is not the sign's own unless there is none
(`CommandLine.fault_offset_before_sign`).
-/

set_option autoImplicit false

namespace Packrat.Arithmetic

/-! ## Checked operations -/

/-- The result of an operation on unsigned words, unless it overflows, underflows or divides by
zero. -/
def Operator.checkedUnsigned? (operator : Operator) (a b : UInt64) : Option UInt64 :=
  match operator with
  | .add => if BitVec.uaddOverflow a.toBitVec b.toBitVec then none else some (a + b)
  | .sub => if BitVec.usubOverflow a.toBitVec b.toBitVec then none else some (a - b)
  | .mul => if BitVec.umulOverflow a.toBitVec b.toBitVec then none else some (a * b)
  | .div => if b = 0 then none else some (a / b)
  | .mod => if b = 0 then none else some (a % b)

namespace WordRange

theorem fit?_unsigned64 {exact : Int} {overflows : Bool} {word : UInt64}
    (hoverflows : overflows = true ↔ ¬ (0 ≤ exact ∧ exact < 2 ^ 64))
    (hword : 0 ≤ exact → exact < 2 ^ 64 → (word.toNat : Int) = exact) :
    unsigned64.fit? exact =
      (if overflows then none else some word).map fun word => (word.toNat : Int) := by
  unfold fit? unsigned64
  simp only
  by_cases h : 0 ≤ exact ∧ exact < 2 ^ 64
  · rw [if_pos (by omega), if_neg (fun ho => hoverflows.1 ho h), Option.map_some, hword h.1 h.2]
  · rw [if_neg (by omega), if_pos (hoverflows.2 h), Option.map_none]

theorem fit?_of_le {n : Nat} {word : UInt64} (hle : n ≤ word.toNat) :
    unsigned64.fit? n = some (n : Int) := by
  have hlt := word.toNat_lt
  unfold fit? unsigned64
  rw [if_pos (by constructor <;> simp only <;> omega)]

/-- **Operations on natural numbers in the range of words are those of words.** -/
theorem compute?_unsigned64 (operator : Operator) (a b : UInt64) :
    unsigned64.compute? operator a.toNat b.toNat =
      (operator.checkedUnsigned? a b).map fun word => (word.toNat : Int) := by
  have ha := a.toNat_lt
  have hb := b.toNat_lt
  have hquotient : unsigned64.fit? ((a.toNat : Int).tdiv b.toNat) =
      some ((a.toNat : Int).tdiv b.toNat) := by
    rw [← Int.ofNat_tdiv]
    exact fit?_of_le (Nat.div_le_self _ _)
  have hzero : (b.toNat : Int) = 0 ↔ b = 0 := by
    rw [← UInt64.toNat_inj, UInt64.toNat_zero]
    omega
  cases operator with
  | add =>
    refine fit?_unsigned64 ?_ fun _ _ => ?_
    · simp only [BitVec.uaddOverflow, UInt64.toNat_toBitVec, decide_eq_true_eq]
      omega
    · rw [UInt64.toNat_add]
      omega
  | sub =>
    refine fit?_unsigned64 ?_ fun _ _ => ?_
    · simp only [BitVec.usubOverflow, UInt64.toNat_toBitVec, decide_eq_true_eq]
      omega
    · rw [UInt64.toNat_sub]
      omega
  | mul =>
    refine fit?_unsigned64 ?_ fun _ _ => ?_
    · simp only [BitVec.umulOverflow, UInt64.toNat_toBitVec, decide_eq_true_eq]
      omega
    · rw [UInt64.toNat_mul]
      omega
  | div =>
    unfold compute? Operator.checkedUnsigned?
    simp only [hzero]
    split
    · rfl
    · rw [hquotient, Option.map_some, UInt64.toNat_div, Int.ofNat_tdiv]
  | mod =>
    unfold compute? Operator.checkedUnsigned?
    simp only [hzero]
    split
    · rfl
    · rw [hquotient, Option.map_some, Option.map_some, UInt64.toNat_mod, Int.ofNat_tmod]

end WordRange

/-! ## Evaluation from the left to the right -/

/-- How the evaluation of a text ends. -/
inductive Ending
  | value (word : UInt64)
  /-- The number is too large for a word. -/
  | tooLarge (digits : String)
  /-- The operation whose sign stands at a place, after so many characters of white space,
  overflows, underflows or divides by zero. -/
  | fault (place blanks : Nat)
  deriving DecidableEq, Repr

namespace Ending

/-- How the evaluation of a number ends. -/
def ofDigits (digits : List Char) : Ending :=
  if decimal digits < 2 ^ 64 then value (.ofNat (decimal digits))
  else tooLarge (String.ofList digits)

/-- How the evaluation of an operation ends, given how that of its operands does. The left one comes
first, then the right one, then the operation itself. -/
def operate (operator : Operator) (place blanks : Nat) : Ending → Ending → Ending
  | value a, value b =>
    match operator.checkedUnsigned? a b with
    | some word => value word
    | none => fault place blanks
  | value _, right => right
  | left, _ => left

end Ending

variable {blank : Char → Bool} {phrase : Phrase} {pos : Nat} {text : List Char} {term : Term}
  {ending : Ending}

/-- The evaluation of the text, which stands at a position and is a phrase for the white space of
`blank`, ends so. -/
inductive Evaluates (blank : Char → Bool) : Phrase → Nat → List Char → Ending → Prop
  | number {pos : Nat} {digits : List Char} (hne : digits ≠ [])
      (h : ∀ c ∈ digits, c.isDigit = true) :
      Evaluates blank .factor pos digits (.ofDigits digits)
  | parentheses {pos : Nat} {before text after : List Char} {ending : Ending}
      (hbefore : ∀ c ∈ before, blank c = true) (hafter : ∀ c ∈ after, blank c = true)
      (inner : Evaluates blank (.operands .sum) (pos + 1 + before.length) text ending) :
      Evaluates blank .factor pos ('(' :: (before ++ (text ++ (after ++ [')'])))) ending
  | operand {level : Level} {pos : Nat} {text : List Char} {ending : Ending}
      (h : Evaluates blank level.operand pos text ending) :
      Evaluates blank (.operands level) pos text ending
  | operation {level : Level} {operator : Operator} (hlevel : operator.level = level) {pos : Nat}
      {left before after right : List Char} {leftEnding rightEnding : Ending}
      (hleft : Evaluates blank (.operands level) pos left leftEnding)
      (hbefore : ∀ c ∈ before, blank c = true) (hafter : ∀ c ∈ after, blank c = true)
      (hright : Evaluates blank level.operand
        (pos + left.length + before.length + 1 + after.length) right rightEnding) :
      Evaluates blank (.operands level) pos
        (left ++ (before ++ operator.sign :: (after ++ right)))
        (.operate operator (pos + left.length + before.length) before.length leftEnding
          rightEnding)

/-- The evaluation of the whole text, with white space around it, ends so. -/
def EvaluatesAs (blank : Char → Bool) (text : List Char) (ending : Ending) : Prop :=
  ∃ before inner after, (∀ c ∈ before, blank c = true) ∧ (∀ c ∈ after, blank c = true) ∧
    Evaluates blank (.operands .sum) before.length inner ending ∧
      text = before ++ (inner ++ after)

/-! ## Endings and terms -/

namespace Ending

/-- What the evaluation of a term comes to that ends so: the position of an operation is where the
white space before its sign begins. -/
def result : Ending → Except Fault Int
  | value word => .ok word.toNat
  | tooLarge digits => .error (.number digits)
  | fault place blanks => .error (.operation (place - blanks))

theorem result_ofDigits (digits : List Char) :
    (ofDigits digits).result = (Term.number (String.ofList digits)).evaluate .unsigned64 := by
  unfold ofDigits
  rw [Term.evaluate, digitsValue_eq_decimal, String.toList_ofList]
  unfold WordRange.fit? WordRange.unsigned64
  by_cases h : decimal digits < 2 ^ 64
  · rw [if_pos h, if_pos (by constructor <;> simp only <;> omega), result, UInt64.toNat_ofNat',
      Nat.mod_eq_of_lt h]
  · rw [if_neg h, if_neg (by simp only; omega), result]

theorem result_operate {operator : Operator} {start blanks : Nat} {left right : Ending}
    {leftTerm rightTerm : Term} (hleft : left.result = leftTerm.evaluate .unsigned64)
    (hright : right.result = rightTerm.evaluate .unsigned64) :
    (operate operator (start + blanks) blanks left right).result =
      (Term.operation operator start leftTerm rightTerm).evaluate .unsigned64 := by
  rw [Term.evaluate, ← hleft, ← hright]
  cases left with
  | value a =>
    cases right with
    | value b =>
      simp only [operate, result, bind, Except.bind, WordRange.compute?_unsigned64]
      cases operator.checkedUnsigned? a b with
      | some word => rfl
      | none => simp only [Option.map_none, Nat.add_sub_cancel]
    | tooLarge digits => rfl
    | fault place blanks => rfl
  | tooLarge digits => rfl
  | fault place blanks => rfl

end Ending

/-- **What reads as a term has an ending**, which is what the term comes to. -/
theorem Reads.evaluates (h : Reads blank phrase pos text term) :
    ∃ ending, Evaluates blank phrase pos text ending ∧
      ending.result = term.evaluate .unsigned64 := by
  induction h with
  | number hne hdigits => exact ⟨_, .number hne hdigits, Ending.result_ofDigits _⟩
  | parentheses hbefore hafter _ ih =>
    obtain ⟨ending, hinner, hresult⟩ := ih
    exact ⟨ending, .parentheses hbefore hafter hinner, hresult⟩
  | operand _ ih =>
    obtain ⟨ending, hoperand, hresult⟩ := ih
    exact ⟨ending, .operand hoperand, hresult⟩
  | operation hlevel _ hbefore hafter _ ihleft ihright =>
    obtain ⟨left, hleft, hleftResult⟩ := ihleft
    obtain ⟨right, hright, hrightResult⟩ := ihright
    exact ⟨_, .operation hlevel hleft hbefore hafter hright,
      Ending.result_operate hleftResult hrightResult⟩

/-- **What has an ending reads as a term** that comes to it. -/
theorem Evaluates.reads (h : Evaluates blank phrase pos text ending) :
    ∃ term, Reads blank phrase pos text term ∧
      ending.result = term.evaluate .unsigned64 := by
  induction h with
  | number hne hdigits => exact ⟨_, .number hne hdigits, Ending.result_ofDigits _⟩
  | parentheses hbefore hafter _ ih =>
    obtain ⟨term, hinner, hresult⟩ := ih
    exact ⟨term, .parentheses hbefore hafter hinner, hresult⟩
  | operand _ ih =>
    obtain ⟨term, hoperand, hresult⟩ := ih
    exact ⟨term, .operand hoperand, hresult⟩
  | operation hlevel _ hbefore hafter _ ihleft ihright =>
    obtain ⟨left, hleft, hleftResult⟩ := ihleft
    obtain ⟨right, hright, hrightResult⟩ := ihright
    exact ⟨_, .operation hlevel hleft hbefore hafter hright,
      Ending.result_operate hleftResult hrightResult⟩

theorem ReadsAs.evaluatesAs (h : ReadsAs blank text term) :
    ∃ ending, EvaluatesAs blank text ending ∧ ending.result = term.evaluate .unsigned64 := by
  obtain ⟨before, inner, after, hbefore, hafter, hread, htext⟩ := h
  obtain ⟨ending, hinner, hresult⟩ := hread.evaluates
  exact ⟨ending, ⟨before, inner, after, hbefore, hafter, hinner, htext⟩, hresult⟩

theorem EvaluatesAs.readsAs (h : EvaluatesAs blank text ending) :
    ∃ term, ReadsAs blank text term ∧ ending.result = term.evaluate .unsigned64 := by
  obtain ⟨before, inner, after, hbefore, hafter, hinner, htext⟩ := h
  obtain ⟨term, hread, hresult⟩ := hinner.reads
  exact ⟨term, ⟨before, inner, after, hbefore, hafter, hread, htext⟩, hresult⟩

/-! ## Signs -/

/-- In a text that stands at a position, the sign of an operator stands at a place after so many
characters of white space. -/
def SignAt (blank : Char → Bool) (pos : Nat) (text : List Char) (place blanks : Nat) : Prop :=
  ∃ before white operator after, text = before ++ (white ++ Operator.sign operator :: after) ∧
    place = pos + before.length + white.length ∧ blanks = white.length ∧
      ∀ c ∈ white, blank c = true

namespace SignAt

variable {place blanks : Nat} {before after : List Char}

theorem append_left (h : SignAt blank (pos + before.length) text place blanks) :
    SignAt blank pos (before ++ text) place blanks := by
  obtain ⟨left, white, operator, right, rfl, rfl, rfl, hwhite⟩ := h
  exact ⟨before ++ left, white, operator, right, by rw [List.append_assoc],
    by rw [List.length_append, Nat.add_assoc pos], rfl, hwhite⟩

theorem append_right (h : SignAt blank pos text place blanks) :
    SignAt blank pos (text ++ after) place blanks := by
  obtain ⟨left, white, operator, right, rfl, rfl, rfl, hwhite⟩ := h
  exact ⟨left, white, operator, right ++ after,
    by simp only [List.append_assoc, List.cons_append], rfl, rfl, hwhite⟩

/-- A sign is found from where the white space before it begins. -/
theorem unique {place' blanks' : Nat} (hb : IsBlank blank)
    (h : SignAt blank pos text place blanks) (h' : SignAt blank pos text place' blanks')
    (hstart : place - blanks = place' - blanks') : place = place' ∧ blanks = blanks' := by
  obtain ⟨left, white, operator, right, rfl, rfl, rfl, hwhite⟩ := h
  obtain ⟨left', white', operator', right', htext, rfl, rfl, hwhite'⟩ := h'
  have hlength : left.length = left'.length := by omega
  obtain ⟨-, hrest⟩ := List.append_inj htext hlength
  have hdrop := congrArg (fun chars => (chars.dropWhile blank).length) hrest
  simp only [Ends.dropWhile_append hwhite (hb.sign operator),
    Ends.dropWhile_append hwhite' (hb.sign operator')] at hdrop
  have hsame := congrArg List.length hrest
  simp only [List.length_append] at hsame
  omega

end SignAt

/-- **A fault is at a sign**, by induction on the evaluation: that of an operand, or that of the
operation. -/
theorem Evaluates.signAt (h : Evaluates blank phrase pos text ending) {place blanks : Nat}
    (hfault : ending = .fault place blanks) : SignAt blank pos text place blanks := by
  induction h with
  | number =>
    unfold Ending.ofDigits at hfault
    split at hfault <;> cases hfault
  | @parentheses pos before text after ending _ _ _ ih =>
    have hinner : SignAt blank (pos + ('(' :: before).length) (text ++ (after ++ [')']))
        place blanks := by
      rw [List.length_cons, Nat.add_comm before.length, ← Nat.add_assoc]
      exact (ih hfault).append_right
    exact hinner.append_left
  | operand _ ih => exact ih hfault
  | @operation level operator _ pos left before after right leftEnding rightEnding _ hbefore _ _
      ihleft ihright =>
    cases leftEnding with
    | value a =>
      cases rightEnding with
      | value b =>
        refine ⟨left, before, operator, after ++ right, rfl, ?_⟩
        cases hchecked : operator.checkedUnsigned? a b with
        | some word =>
          simp only [Ending.operate, hchecked] at hfault
          cases hfault
        | none =>
          simp only [Ending.operate, hchecked] at hfault
          cases hfault
          exact ⟨rfl, rfl, hbefore⟩
      | tooLarge digits => cases hfault
      | fault place' blanks' =>
        have hright : SignAt blank (pos + (left ++ (before ++ operator.sign :: after)).length) right
            place blanks := by
          have hsign := ihright hfault
          simp only [List.length_append, List.length_cons]
          convert hsign using 1
          omega
        simpa only [List.append_assoc, List.cons_append] using hright.append_left
    | tooLarge digits => cases hfault
    | fault place' blanks' => exact (ihleft hfault).append_right

theorem EvaluatesAs.signAt {place blanks : Nat}
    (h : EvaluatesAs blank text (.fault place blanks)) : SignAt blank 0 text place blanks := by
  obtain ⟨before, inner, after, -, -, hinner, rfl⟩ := h
  have hsign := hinner.signAt rfl
  rw [← Nat.zero_add before.length] at hsign
  exact hsign.append_right.append_left

/-! ## One ending -/

/-- Endings of one text that come to the same are the same: where a fault is, one sign is. -/
theorem EvaluatesAs.eq_of_result (hb : IsBlank blank) {ending' : Ending}
    (h : EvaluatesAs blank text ending) (h' : EvaluatesAs blank text ending')
    (hresult : ending.result = ending'.result) : ending = ending' := by
  cases ending with
  | value word =>
    cases ending' with
    | value word' =>
      have hwords : word.toNat = word'.toNat := Int.ofNat.inj (Except.ok.inj hresult)
      rw [UInt64.toNat_inj.1 hwords]
    | tooLarge digits => cases hresult
    | fault place blanks => cases hresult
  | tooLarge digits =>
    cases ending' with
    | value word => cases hresult
    | tooLarge digits' =>
      cases hresult
      rfl
    | fault place blanks => cases hresult
  | fault place blanks =>
    cases ending' with
    | value word => cases hresult
    | tooLarge digits => cases hresult
    | fault place' blanks' =>
      have hstart : place - blanks = place' - blanks' :=
        Fault.operation.inj (Except.error.inj hresult)
      obtain ⟨rfl, rfl⟩ := h.signAt.unique hb h'.signAt hstart
      rfl

/-- **A text that reads as a term has one ending.** -/
theorem Recognizes.existsUnique_ending {grammar : Grammar} {sign : Level → Expr} {text : String}
    (h : Recognizes grammar sign blank) (hread : ReadsAs blank text.toList term) :
    ∃! ending, EvaluatesAs blank text.toList ending := by
  obtain ⟨ending, hending, hresult⟩ := hread.evaluatesAs
  refine ⟨ending, hending, fun ending' hending' => ?_⟩
  obtain ⟨term', hread', hresult'⟩ := hending'.readsAs
  cases h.readsAs_unique hread hread'
  exact hending'.eq_of_result h.isBlank hending (hresult'.trans hresult.symm)

/-! ## The grammar in which operators stand where they are used -/

theorem spells_inlineGrammar : Spells inlineGrammar Level.expr Unicode.isWhiteSpace where
  toHasRules := hasRules_inlineGrammar
  ws text hg := by
    simp only [← Grammar.accepts_whitespace]
    exact Grammar.generates_run ((Grammar.generates_ruleRef_iff inlineGrammar_ws).1 hg)
  number text hg := by
    rw [Grammar.generates_ruleRef_iff inlineGrammar_num] at hg
    cases hg with
    | regex h =>
      rw [matchLength?_decimalNumber] at h
      exact digits_of_digitRun? h
  sign _ _ hg := Level.generates_expr hg

theorem exists_readsAs_of_complete {options : Options} {text : String} {cache : Cache}
    {tree : Node}
    (h : (Parser.parseWithCache ⟨inlineGrammar, options⟩ "calculator" (.ofString text)
      cache).result = .ok (.complete tree)) :
    ∃ term, ReadsAs Unicode.isWhiteSpace text.toList term ∧
      Term.ofTree? (.ofString text) tree = some term := by
  have hmatch := Parser.matches_of_complete h
  obtain ⟨term, hread⟩ :=
    spells_inlineGrammar.readsAs (hmatch.derives (Nat.zero_le _)).generates_whole
  exact ⟨term, hread, recognizes_inlineGrammar.ofTree?_of_complete hread h⟩

end Packrat.Arithmetic

namespace Packrat.CommandLine

open Arithmetic

/-! ## The command line -/

/-- Seven taken from five, with any white space around the sign, is parsed, and has no result. -/
theorem parse_difference {text : String} {before after : List Char}
    (hbefore : ∀ c ∈ before, Unicode.isWhiteSpace c = true)
    (hafter : ∀ c ∈ after, Unicode.isWhiteSpace c = true)
    (htext : text.toList = ['5'] ++ (before ++ '-' :: (after ++ ['7']))) :
    (∃ tree, (Parser.parse ⟨inlineGrammar, {}⟩ "calculator" (.ofString text)).result =
      .ok (.complete tree)) ∧
    EvaluatesAs Unicode.isWhiteSpace text.toList (.fault (1 + before.length) before.length) := by
  have hfive : ∀ c ∈ ['5'], c.isDigit = true := List.forall_mem_singleton.2 rfl
  have hseven : ∀ c ∈ ['7'], c.isDigit = true := List.forall_mem_singleton.2 rfl
  have hwhole : text.toList = [] ++ (['5'] ++ (before ++ '-' :: (after ++ ['7'])) ++ []) := by
    rw [htext, List.append_nil, List.nil_append]
  constructor
  · have factor {digit : Char} (h : ∀ c ∈ [digit], c.isDigit = true) :
        Demands Unicode.isWhiteSpace (.operands .product) [digit] 7 :=
      @Demands.operand _ .product [digit] 4 (.number nofun h)
    have hdifference : Demands Unicode.isWhiteSpace (.operands .sum) _ 11 :=
      @Demands.operation _ _ .sub rfl _ _ _ _ _ _ (.operand (factor hfive)) hbefore hafter
        (factor hseven)
    exact frugal_inlineGrammar.parse_complete (List.forall_mem_nil _) (List.forall_mem_nil _)
      hdifference hwhole {} rfl (by decide)
  · have factor {digit : Char} {pos : Nat} (h : ∀ c ∈ [digit], c.isDigit = true) :
        Evaluates Unicode.isWhiteSpace (.operands .product) pos [digit] (.ofDigits [digit]) :=
      @Evaluates.operand _ .product _ _ _ (.number nofun h)
    have hdifference := @Evaluates.operation Unicode.isWhiteSpace _ .sub rfl 0 _ _ _ _ _ _
      (.operand (factor hfive)) hbefore hafter (factor hseven)
    have hfault (place blanks : Nat) : Ending.operate .sub place blanks (.ofDigits ['5'])
        (.ofDigits ['7']) = .fault place blanks := rfl
    rw [hfault, List.length_singleton, Nat.zero_add] at hdifference
    exact ⟨[], _, [], nofun, nofun, hdifference, hwhole⟩

theorem run_of_fault {text : String} {tree : Node} {fault : Fault}
    (h : (Parser.parse ⟨inlineGrammar, {}⟩ "calculator" (.ofString text)).result =
      .ok (.complete tree))
    (hfault : walk .secondChild .unsigned64 (.ofString text) tree = .fault fault)
    (program : String) :
    run program [text] =
      { stdout := "parsing: " ++ text ++ "\n",
        stderr := faultMessage fault ++ "\n", code := 1 } := by
  have hvalue : value (.ofString text) = .error (some (faultMessage fault)) := by
    unfold value
    simp only [h, ParseResult.completeTree?, hfault]
  unfold run
  simp only [hvalue]
  rfl

/-- A run for a text whose evaluation ends at a fault reports the place after the left operand. -/
theorem run_of_evaluatesAs {text : String} {tree : Node} {place blanks : Nat}
    (h : (Parser.parse ⟨inlineGrammar, {}⟩ "calculator" (.ofString text)).result =
      .ok (.complete tree))
    (hfault : EvaluatesAs Unicode.isWhiteSpace text.toList (.fault place blanks))
    (program : String) :
    run program [text] =
      { stdout := "parsing: " ++ text ++ "\n",
        stderr := faultMessage (.operation (place - blanks)) ++ "\n", code := 1 } := by
  obtain ⟨term, hread, hterm⟩ := exists_readsAs_of_complete h
  obtain ⟨other, hother, hresult⟩ := hfault.readsAs
  cases recognizes_inlineGrammar.readsAs_unique hread hother
  have hwalk := walked .secondChild .unsigned64 _ tree term
    (hasRules_inlineGrammar.all_entersAlike inlineGrammar_ws h rfl) hterm
  rw [Evaluation.ofTerm, ← hresult] at hwalk
  exact run_of_fault h hwalk program

/-- **A fault is reported where the left operand ends.** The evaluation of a text that is parsed
completely, in unsigned words and from the left to the right, has one ending. If that is at the sign
of the first operation without a result, the offset on the command line, which counts from one, is
that of the sign less the white space before it, so that of the sign if there is none. -/
theorem fault_offset (program : String) {text : String} {tree : Node}
    (h : (Parser.parse ⟨inlineGrammar, {}⟩ "calculator" (.ofString text)).result =
      .ok (.complete tree)) :
    (∃! ending, EvaluatesAs Unicode.isWhiteSpace text.toList ending) ∧
    ∀ place blanks, EvaluatesAs Unicode.isWhiteSpace text.toList (.fault place blanks) →
      SignAt Unicode.isWhiteSpace 0 text.toList place blanks ∧
      ∃ offset, offset + blanks = place + 1 ∧
        run program [text] =
          { stdout := "parsing: " ++ text ++ "\n",
            stderr := s!"arithmetic error at offset {offset}" ++ "\n", code := 1 } := by
  obtain ⟨term, hread, -⟩ := exists_readsAs_of_complete h
  refine ⟨recognizes_inlineGrammar.existsUnique_ending hread, fun place blanks hfault => ?_⟩
  have hsign := hfault.signAt
  refine ⟨hsign, place - blanks + 1, ?_, run_of_evaluatesAs h hfault program⟩
  obtain ⟨before, white, operator, after, -, rfl, rfl, -⟩ := hsign
  omega

/-- Seven taken from five, with no white space, is reported at the sign. -/
theorem fault_offset_tight :
    ∃ tree, (Parser.parse ⟨inlineGrammar, {}⟩ "calculator" (.ofString "5-7")).result =
        .ok (.complete tree) ∧
      EvaluatesAs Unicode.isWhiteSpace "5-7".toList (.fault 1 0) ∧
      ∃ offset, offset + 0 = 1 + 1 ∧ run "calculator" ["5-7"] =
        { stdout := "parsing: " ++ "5-7" ++ "\n",
          stderr := s!"arithmetic error at offset {offset}" ++ "\n", code := 1 } := by
  obtain ⟨⟨tree, htree⟩, hfault⟩ := @parse_difference "5-7" [] [] nofun nofun rfl
  exact ⟨tree, htree, hfault, ((fault_offset "calculator" htree).2 1 0 hfault).2⟩

/-- **The offset of a fault is not that of the sign** where white space stands before it. -/
theorem fault_offset_before_sign :
    ¬ ∀ (text : String) (tree : Node),
      (Parser.parse ⟨inlineGrammar, {}⟩ "calculator" (.ofString text)).result =
          .ok (.complete tree) →
        ∀ place blanks, EvaluatesAs Unicode.isWhiteSpace text.toList (.fault place blanks) →
          (run "calculator" [text]).stderr =
            s!"arithmetic error at offset {place + 1}" ++ "\n" := by
  intro hsign
  have hblank : ∀ c ∈ [' '], Unicode.isWhiteSpace c = true := List.forall_mem_singleton.2 rfl
  obtain ⟨⟨tree, htree⟩, hfault⟩ := @parse_difference "5 - 7" [' '] [' '] hblank hblank rfl
  have hthree := hsign "5 - 7" tree htree 2 1 hfault
  rw [run_of_evaluatesAs htree hfault] at hthree
  exact absurd hthree (by decide)

end Packrat.CommandLine
