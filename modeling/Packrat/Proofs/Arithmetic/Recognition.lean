import Packrat.Proofs.Arithmetic.Tokens
import Packrat.Proofs.Construction

/-!
# Grammars for arithmetic recognize terms

`Recognizes` says what the rules of a grammar for arithmetic do that differ from one such grammar to
another: those for numbers, operators and white space. Given that, what reads as a term is matched,
and the term is read off the tree (`Recognizes.accepts`). The proof is by induction on the reading.
For operands the invariant is about a text that another operator may follow: the first operand
matches, and then one round of the repetition after the other (`Chained`); the repetition ends where
no operator follows (`Chained.accepted`).
-/

set_option autoImplicit false

namespace Packrat.Arithmetic

/-! ## Trees and terms -/

namespace Term

variable {input : Input} {start stop : Nat}

theorem ofTree?_calculator {head expr : Node} {tail : List Node} :
    ofTree? input ⟨.rule "calculator", start, stop, head :: expr :: tail, none⟩ =
      ofTree? input expr := by
  rw [ofTree?]

theorem ofTree?_operands {level : Level} {first : Node} {begin finish : Nat}
    {operations : List Node} {left : Term} (hfirst : ofTree? input first = some left) :
    ofTree? input ⟨.rule (Phrase.operands level).name, start, stop,
      [first, ⟨.repetition, begin, finish, operations, none⟩], none⟩ =
        extend? input left operations := by
  cases level <;> simp only [Phrase.name] <;> rw [ofTree?, hfirst] <;> rfl

theorem ofTree?_parentheses {opening before inner : Node} {tail : List Node} :
    ofTree? input ⟨.rule "factor", start, stop, opening :: before :: inner :: tail, some 0⟩ =
      ofTree? input inner := by
  rw [ofTree?]

theorem ofTree?_number {digits : Node} :
    ofTree? input ⟨.rule "factor", start, stop, [digits], some 1⟩ = ofTree? input digits := by
  rw [ofTree?]

theorem ofTree?_digits {node : Node} {digits : String} (hlabel : node.label = .rule "num")
    (htext : node.text? input = some digits) : ofTree? input node = some (.number digits) := by
  obtain ⟨label, start, stop, children, alternative⟩ := node
  cases hlabel
  rw [ofTree?, show input.slice? start stop = some digits from htext]
  rfl

theorem extend?_operation {before sign after right : Node} {left rightTerm : Term}
    {operator : Operator} (hright : ofTree? input right = some rightTerm)
    (hsign : sign.text? input = some (String.ofList [operator.sign])) (rest : List Node) :
    extend? input left
        (⟨.sequence, start, stop, [before, sign, after, right], none⟩ :: rest) =
      extend? input (.operation operator start left rightTerm) rest := by
  rw [extend?, hright, hsign]
  simp only [Option.bind_eq_bind, Option.bind_some, Operator.ofText?_sign]

theorem extend?_append {left middle : Term} {nodes nodes' : List Node}
    (h : extend? input left nodes = some middle) :
    extend? input left (nodes ++ nodes') = extend? input middle nodes' := by
  induction nodes generalizing left with
  | nil =>
    rw [extend?] at h
    cases h
    rfl
  | cons node nodes ih =>
    obtain ⟨label, start, stop, _ | ⟨a, _ | ⟨operator, _ | ⟨b, _ | ⟨right, tail⟩⟩⟩⟩, alternative⟩ :=
      node
    all_goals
      rw [List.cons_append]
      simp only [extend?] at h ⊢
      try cases h
    cases hright : ofTree? input right with
    | none => simp [hright] at h
    | some rightTerm =>
      cases htext : operator.text? input with
      | none => simp [hright, htext] at h
      | some text =>
        cases hoperator : Operator.ofText? text with
        | none => simp [hright, htext, hoperator] at h
        | some operator =>
          simp only [hright, htext, hoperator, Option.bind_eq_bind, Option.bind_some] at h ⊢
          exact ih h

end Term

/-! ## What the rules do -/

/-- One more operation: an operator with white space around it, and an operand. -/
def operationExpr (sign : Expr) (operand : String) : Expr :=
  .sequence [.ruleRef "ws", sign, .ruleRef "ws", .ruleRef operand]

/-- A term in parentheses. -/
def parenthesesExpr : Expr :=
  .sequence [.literal "(", .ruleRef "ws", .ruleRef "expr", .ruleRef "ws", .literal ")"]

/-- The grammar has the rules of arithmetic, with the expressions `sign` for the operators. -/
structure HasRules (grammar : Grammar) (sign : Level → Expr) : Prop where
  calculator : grammar.rule? "calculator" = some ⟨"calculator", wholeTerm⟩
  operands : ∀ level, grammar.rule? (Phrase.operands level).name =
    some ⟨(Phrase.operands level).name, operands (sign level) level.operand.name⟩
  factor : grammar.rule? "factor" = some ⟨"factor", parenthesesOrNumber⟩

/-- The rules for white space, numbers and operators match what they should. -/
structure Recognizes (grammar : Grammar) (sign : Level → Expr) (blank : Char → Bool) : Prop
    extends HasRules grammar sign where
  isBlank : IsBlank blank
  ws : ∀ (input : Input) (pos : Nat) (before after : List Char),
    input.Remains pos (before ++ after) → (∀ c ∈ before, blank c = true) →
      (∀ c, after.head? = some c → blank c = false) →
        grammar.Derives input (.ruleRef "ws") pos (.success (pos + before.length))
  number : ∀ (input : Input) (pos : Nat) (digits after : List Char),
    input.Remains pos (digits ++ after) → digits ≠ [] → (∀ c ∈ digits, c.isDigit = true) →
      (∀ c, after.head? = some c → c.isDigit = false) →
        grammar.Derives input (.ruleRef "num") pos (.success (pos + digits.length))
  sign_success : ∀ (input : Input) (pos : Nat) (operator : Operator) (after : List Char),
    input.Remains pos (operator.sign :: after) →
      grammar.Derives input (sign operator.level) pos (.success (pos + 1))
  sign_failure : ∀ (input : Input) (pos : Nat) (level : Level) (after : List Char),
    input.Remains pos after →
      (∀ c, after.head? = some c → ∀ operator : Operator, operator.level = level →
        c ≠ operator.sign) → grammar.Derives input (sign level) pos .failure

variable {grammar : Grammar} {sign : Level → Expr} {blank : Char → Bool}

/-- Where the text stands and the phrase may end after it, the rule of the phrase matches it, and
its tree is one of the term. -/
def Accepted (grammar : Grammar) (blank : Char → Bool) (phrase : Phrase) (pos : Nat)
    (text : List Char) (term : Term) : Prop :=
  ∀ (input : Input) (after : List Char), input.Remains pos (text ++ after) →
    Ends blank phrase after → ∃ node,
      grammar.Matches input (.ruleRef phrase.name) pos (pos + text.length) (some node) ∧
        Term.ofTree? input node = some term

/-- Where the text stands and its last operand may end after it, the first operand matches and then
the rounds of a repetition, and their trees are one of a term and those of operations that extend it
to the term. -/
def Chained (grammar : Grammar) (sign : Level → Expr) (blank : Char → Bool) (level : Level)
    (pos : Nat) (text : List Char) (term : Term) : Prop :=
  ∀ (input : Input) (after : List Char), input.Remains pos (text ++ after) →
    Ends blank level.operand after → ∃ middle first nodes left,
      grammar.Matches input (.ruleRef level.operand.name) pos middle (some first) ∧
      Term.ofTree? input first = some left ∧
      grammar.Rounds input (operationExpr (sign level) level.operand.name) middle
        (pos + text.length) nodes ∧
      Term.extend? input left nodes = some term

/-- What the induction says of a phrase. -/
def Recognized (grammar : Grammar) (sign : Level → Expr) (blank : Char → Bool) (pos : Nat)
    (text : List Char) (term : Term) : Phrase → Prop
  | .factor => Accepted grammar blank .factor pos text term
  | .operands level => Chained grammar sign blank level pos text term

namespace Recognizes

variable (h : Recognizes grammar sign blank) {input : Input} {pos : Nat} {level : Level}
  {before text after : List Char} {term : Term}
include h

/-! ## White space and operators -/

theorem ws_node (hpos : input.Remains pos (before ++ after))
    (hbefore : ∀ c ∈ before, blank c = true)
    (hafter : ∀ c, after.head? = some c → blank c = false) :
    ∃ node, grammar.Matches input (.ruleRef "ws") pos (pos + before.length) (some node) := by
  have hws := h.ws input pos before after hpos hbefore hafter
  obtain ⟨node, hnode, -⟩ := hws.exists_ruleNode hpos.le
  exact ⟨node, hnode⟩

theorem sign_node {operator : Operator} (hlevel : operator.level = level)
    (hpos : input.Remains pos (operator.sign :: after)) :
    ∃ node : Node, grammar.Matches input (sign level) pos (pos + 1) (some node) ∧
      node.text? input = some (String.ofList [operator.sign]) := by
  subst hlevel
  obtain ⟨node, hnode, hstart, hstop⟩ :=
    (h.sign_success input pos operator after hpos).exists_node hpos.le (by omega)
  refine ⟨node, hnode, ?_⟩
  rw [Node.text?, hstart, hstop]
  exact @Input.Remains.slice? input pos [operator.sign] after hpos

/-- Wherever white space is looked for, it ends before what is none. -/
theorem ws_any (hpos : input.Remains pos after) :
    grammar.Derives input (.ruleRef "ws") pos
        (.success (pos + (after.takeWhile blank).length)) ∧
      input.Remains (pos + (after.takeWhile blank).length) (after.dropWhile blank) := by
  rw [← @List.takeWhile_append_dropWhile _ blank after] at hpos
  refine ⟨h.ws input pos _ _ hpos (fun c hc => List.mem_takeWhile_imp hc) fun c hc => ?_,
    hpos.append⟩
  have hnot := List.head?_dropWhile_not blank after
  rw [hc] at hnot
  simpa using hnot

theorem operation_failure (hpos : input.Remains pos after)
    (hends : Ends blank (.operands level) after) :
    grammar.Derives input (operationExpr (sign level) level.operand.name) pos .failure := by
  obtain ⟨hws, hrest⟩ := h.ws_any hpos
  refine .sequence_cons hws (.sequence_failure ?_)
  refine h.sign_failure input _ level _ hrest fun c hc operator hlevel => ?_
  exact hends.no_sign c hc operator (hlevel ▸ level.mem_levels)

/-! ## Phrases -/

theorem accepted_of_chained (hc : Chained grammar sign blank level pos text term) :
    Accepted grammar blank (.operands level) pos text term := by
  intro input after hpos hends
  obtain ⟨middle, first, nodes, left, hfirst, hleft, hrounds, hterm⟩ :=
    hc input after hpos hends.operand
  have hmiddle := (hfirst.within hpos.le).2
  have hrepetition := hrounds.matches hmiddle (h.operation_failure hpos.append hends)
  have hparts : grammar.Parts input
      [.ruleRef level.operand.name, .zeroOrMore (operationExpr (sign level) level.operand.name)]
      pos (pos + text.length) _ := .cons hfirst (.cons hrepetition .nil)
  have hrule := (hparts.matches hpos.le).ruleRef (h.operands level) nofun
  exact ⟨_, hrule, (Term.ofTree?_operands hleft).trans hterm⟩

theorem accepted {phrase : Phrase} (hr : Recognized grammar sign blank pos text term phrase) :
    Accepted grammar blank phrase pos text term := by
  cases phrase with
  | factor => exact hr
  | operands level => exact h.accepted_of_chained hr

/-- **A number is matched** by the second alternative, as no parenthesis opens. -/
theorem accepted_number (hne : text ≠ []) (hdigits : ∀ c ∈ text, c.isDigit = true) :
    Accepted grammar blank .factor pos text (.number (String.ofList text)) := by
  intro input after hpos hends
  obtain ⟨node, hnode, hlabel, hstart, hstop⟩ :=
    (h.number input pos text after hpos hne hdigits hends.no_digit).exists_ruleNode hpos.le
  have hopening : grammar.Derives input (Grammar.charLiteral '(') pos .failure := by
    refine Grammar.derives_charLiteral_failure hpos fun hhead => ?_
    obtain ⟨c, rest, rfl⟩ := List.exists_cons_of_ne_nil hne
    cases hhead
    exact absurd (hdigits _ (.head _)) (by decide)
  have hbody : parenthesesOrNumber = .choice ([parenthesesExpr] ++ .ruleRef "num" :: []) := rfl
  have hrule := hnode.alternative h.factor hbody
    (List.forall_mem_singleton.2 (.sequence_failure hopening)) hpos.le
  refine ⟨_, hrule, ?_⟩
  have hnode : Context.ruleNode "factor" pos (pos + text.length) (Context.recordedIndex 1)
      (some node) = ⟨.rule "factor", pos, pos + text.length, [node], some 1⟩ := by
    simp only [Context.ruleNode, hlabel]
    rfl
  refine (congrArg (Term.ofTree? input) hnode).trans (Term.ofTree?_number.trans ?_)
  refine Term.ofTree?_digits hlabel ?_
  rw [Node.text?, hstart, hstop]
  exact hpos.slice?

/-- **A term in parentheses is matched** by the first alternative. -/
theorem accepted_parentheses (hbefore : ∀ c ∈ before, blank c = true)
    (hafter : ∀ c ∈ after, blank c = true)
    (hread : Reads blank (.operands .sum) (pos + 1 + before.length) text term)
    (hinner : Accepted grammar blank (.operands .sum) (pos + 1 + before.length) text term) :
    Accepted grammar blank .factor pos ('(' :: (before ++ (text ++ (after ++ [')'])))) term := by
  intro input rest hpos hends
  simp only [List.cons_append, List.append_assoc, List.nil_append] at hpos
  have hpos₁ := hpos.tail
  have hpos₂ := hpos₁.append
  have hpos₃ := hpos₂.append
  have hpos₄ := hpos₃.append
  have literal (place : Nat) (c : Char) (more : List Char) (h : input.Remains place (c :: more)) :
      ∃ node, grammar.Matches input (Grammar.charLiteral c) place (place + 1) (some node) := by
    obtain ⟨node, hnode, -⟩ := (Grammar.derives_charLiteral h).exists_node h.le (by omega)
    exact ⟨node, hnode⟩
  obtain ⟨opening, hopening⟩ := literal pos '(' _ hpos
  obtain ⟨blanks, hblanks⟩ := h.ws_node hpos₁ hbefore fun c hc => hread.head_not_blank h.isBlank hc
  obtain ⟨inner, hmatch, hterm⟩ := hinner input _ hpos₂ (.closing h.isBlank hafter _)
  obtain ⟨blanks', hblanks'⟩ := h.ws_node hpos₃ hafter fun c hc => by
    cases hc
    exact h.isBlank.closing
  obtain ⟨closing, hclosing⟩ := literal _ ')' _ hpos₄
  have hparts : grammar.Parts input
      [.literal "(", .ruleRef "ws", .ruleRef "expr", .ruleRef "ws", .literal ")"] pos _ _ :=
    .cons hopening (.cons hblanks (.cons hmatch (.cons hblanks' (.cons hclosing .nil))))
  have hbody : parenthesesOrNumber = .choice ([] ++ parenthesesExpr :: [.ruleRef "num"]) := rfl
  have hrule := (hparts.matches hpos.le).alternative h.factor hbody nofun hpos.le
  have hstop : pos + 1 + before.length + text.length + after.length + 1 =
      pos + ('(' :: (before ++ (text ++ (after ++ [')'])))).length := by
    simp only [List.length_cons, List.length_append, List.length_nil]
    omega
  rw [hstop] at hrule
  exact ⟨_, hrule, Term.ofTree?_parentheses.trans hterm⟩

omit h in
theorem chained_operand (ho : Accepted grammar blank level.operand pos text term) :
    Chained grammar sign blank level pos text term := by
  intro input after hpos hends
  obtain ⟨node, hnode, hterm⟩ := ho input after hpos hends
  exact ⟨_, node, [], term, hnode, hterm, .nil, by rw [Term.extend?]⟩

/-- **One more operation is one more round**, which extends the term of those before. -/
theorem chained_operation {operator : Operator} (hlevel : operator.level = level)
    {left right : List Char} {leftTerm rightTerm : Term}
    (hleft : Chained grammar sign blank level pos left leftTerm)
    (hbefore : ∀ c ∈ before, blank c = true) (hafter : ∀ c ∈ after, blank c = true)
    (hread : Reads blank level.operand (pos + left.length + before.length + 1 + after.length) right
      rightTerm)
    (hright : Accepted grammar blank level.operand
      (pos + left.length + before.length + 1 + after.length) right rightTerm) :
    Chained grammar sign blank level pos (left ++ (before ++ operator.sign :: (after ++ right)))
      (.operation operator (pos + left.length) leftTerm rightTerm) := by
  intro input rest hpos hends
  simp only [List.append_assoc, List.cons_append] at hpos
  have hpos₁ := hpos.append
  have hpos₂ := hpos₁.append
  have hpos₃ := hpos₂.tail
  have hpos₄ := hpos₃.append
  obtain ⟨middle, first, nodes, start, hfirst, hstart, hrounds, hextend⟩ :=
    hleft input _ hpos (hlevel ▸ .sign h.isBlank hbefore operator)
  obtain ⟨blanks, hblanks⟩ := h.ws_node hpos₁ hbefore fun c hc => by
    cases hc
    exact h.isBlank.sign operator
  obtain ⟨signNode, hsign, hsignText⟩ := h.sign_node hlevel hpos₂
  obtain ⟨blanks', hblanks'⟩ :=
    h.ws_node hpos₃ hafter fun c hc => hread.head_not_blank h.isBlank hc
  obtain ⟨operand, hoperand, hoperandTerm⟩ := hright input rest hpos₄ hends
  have hparts : grammar.Parts input
      [.ruleRef "ws", sign level, .ruleRef "ws", .ruleRef level.operand.name] _ _ _ :=
    .cons hblanks (.cons hsign (.cons hblanks' (.cons hoperand .nil)))
  have hstop : pos + left.length + before.length + 1 + after.length + right.length =
      pos + (left ++ (before ++ operator.sign :: (after ++ right))).length := by
    simp only [List.length_append, List.length_cons]
    omega
  have hround := hrounds.concat (hparts.matches hpos₁.le) (by omega)
  rw [hstop] at hround
  refine ⟨middle, first, _, start, hfirst, hstart, hround, ?_⟩
  rw [Term.extend?_append hextend]
  exact (Term.extend?_operation hoperandTerm hsignText []).trans (by rw [Term.extend?])

/-- **What reads as a term is recognized**, by induction on the reading. -/
theorem recognized {phrase : Phrase} (hr : Reads blank phrase pos text term) :
    Recognized grammar sign blank pos text term phrase := by
  induction hr with
  | number hne hdigits => exact h.accepted_number hne hdigits
  | parentheses hbefore hafter inner ih =>
    exact h.accepted_parentheses hbefore hafter inner (h.accepted ih)
  | operand _ ih => exact chained_operand (h.accepted ih)
  | operation hlevel _ hbefore hafter hright ihleft ihright =>
    exact h.chained_operation hlevel ihleft hbefore hafter hright (h.accepted ihright)

/-- **What reads as a term as a whole is matched as a whole**, and the term is read off the tree. -/
theorem accepts {text : String} (hr : ReadsAs blank text.toList term) :
    ∃ tree, grammar.Matches (.ofString text) (.ruleRef "calculator") 0 text.toList.length
      (some tree) ∧ Term.ofTree? (.ofString text) tree = some term := by
  obtain ⟨before, inner, after, hbefore, hafter, hread, htext⟩ := hr
  rw [← Nat.zero_add before.length] at hread
  have hpos := Input.Remains.start text
  rw [htext] at hpos
  have hpos₁ := hpos.append
  have hpos₂ := hpos₁.append
  rw [← List.append_nil after] at hpos₂
  have hpos₃ := hpos₂.append
  have hlength := hpos₃.length_eq
  obtain ⟨blanks, hblanks⟩ := h.ws_node hpos hbefore fun c hc => hread.head_not_blank h.isBlank hc
  obtain ⟨node, hnode, hterm⟩ :=
    h.accepted (h.recognized hread) _ after hpos₁ (.blanks h.isBlank hafter _)
  obtain ⟨blanks', hblanks'⟩ := h.ws_node hpos₂ hafter nofun
  have hend : grammar.Derives (.ofString text) .endOfInput _ _ := .endOfInput_success hlength
  obtain ⟨node?, hend⟩ := hend.matches hpos₃.le
  have hparts : grammar.Parts (.ofString text)
      [.ruleRef "ws", .ruleRef "expr", .ruleRef "ws", .endOfInput] 0 _ _ :=
    .cons hblanks (.cons hnode (.cons hblanks' (.cons hend .nil)))
  have hrule := (hparts.matches hpos.le).ruleRef h.calculator nofun
  rw [Input.length_ofString] at hlength
  rw [← hlength]
  exact ⟨_, hrule, Term.ofTree?_calculator.trans hterm⟩

end Recognizes

end Packrat.Arithmetic
