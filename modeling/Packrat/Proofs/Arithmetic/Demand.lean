import Packrat.Proofs.Arithmetic.Calculator
import Packrat.Proofs.Sufficiency

/-!
# How much depth a term asks for

How many nested evaluations a text asks for depends on its parentheses and on where its operators
stand (`Demands`). So many suffice with every grammar for arithmetic whose rules for white space,
numbers and operators get by with three (`Frugal.affords`). The proof also tells where rules are
entered: before the end of the text, but for white space there and for operators, which are looked
for after white space (`Phrase.Settles`).
-/

set_option autoImplicit false

namespace Packrat.Arithmetic

variable {blank : Char → Bool}

/-- The text of the phrase asks for so many nested evaluations: two for each rule or alternative
around a number or a term in parentheses, and four for an operand after an operator. After the
operands of a product white space is looked for, seven evaluations deep. -/
inductive Demands (blank : Char → Bool) : Phrase → List Char → Nat → Prop
  | number {digits : List Char} (hne : digits ≠ []) (h : ∀ c ∈ digits, c.isDigit = true) :
      Demands blank .factor digits 4
  | parentheses {before text after : List Char} {need : Nat}
      (hbefore : ∀ c ∈ before, blank c = true) (hafter : ∀ c ∈ after, blank c = true)
      (inner : Demands blank (.operands .sum) text need) :
      Demands blank .factor ('(' :: (before ++ (text ++ (after ++ [')'])))) (need + 2)
  | operand {level : Level} {text : List Char} {need : Nat}
      (h : Demands blank level.operand text need) :
      Demands blank (.operands level) text (max 7 (need + 2))
  | operation {level : Level} {operator : Operator} (hlevel : operator.level = level)
      {left before after right : List Char} {needLeft needRight : Nat}
      (hleft : Demands blank (.operands level) left needLeft)
      (hbefore : ∀ c ∈ before, blank c = true) (hafter : ∀ c ∈ after, blank c = true)
      (hright : Demands blank level.operand right needRight) :
      Demands blank (.operands level) (left ++ (before ++ operator.sign :: (after ++ right)))
        (max needLeft (needRight + 4))

theorem Reads.demands {phrase : Phrase} {pos : Nat} {text : List Char} {term : Term}
    (h : Reads blank phrase pos text term) : ∃ need, Demands blank phrase text need := by
  induction h with
  | number hne hdigits => exact ⟨_, .number hne hdigits⟩
  | parentheses hbefore hafter _ ih =>
    obtain ⟨need, ih⟩ := ih
    exact ⟨_, .parentheses hbefore hafter ih⟩
  | operand _ ih =>
    obtain ⟨need, ih⟩ := ih
    exact ⟨_, .operand ih⟩
  | operation hlevel _ hbefore hafter _ ihleft ihright =>
    obtain ⟨needLeft, ihleft⟩ := ihleft
    obtain ⟨needRight, ihright⟩ := ihright
    exact ⟨_, .operation hlevel ihleft hbefore hafter ihright⟩

namespace Demands

variable {phrase : Phrase} {level : Level} {text : List Char} {need : Nat}

theorem reads (h : Demands blank phrase text need) (pos : Nat) :
    ∃ term, Reads blank phrase pos text term := by
  induction h generalizing pos with
  | number hne hdigits => exact ⟨_, .number hne hdigits⟩
  | parentheses hbefore hafter _ ih =>
    obtain ⟨term, ih⟩ := ih _
    exact ⟨_, .parentheses hbefore hafter ih⟩
  | operand _ ih =>
    obtain ⟨term, ih⟩ := ih pos
    exact ⟨_, .operand ih⟩
  | operation hlevel _ hbefore hafter _ ihleft ihright =>
    obtain ⟨leftTerm, ihleft⟩ := ihleft pos
    obtain ⟨rightTerm, ihright⟩ := ihright _
    exact ⟨_, .operation hlevel ihleft hbefore hafter ihright⟩

theorem length_pos (h : Demands blank phrase text need) : 0 < text.length := by
  obtain ⟨term, hread⟩ := h.reads 0
  obtain ⟨c, rest, rfl, -⟩ := hread.head
  exact Nat.succ_pos _

theorem head_not_blank (h : Demands blank phrase text need) (hb : IsBlank blank)
    {after : List Char} {c : Char} (hc : (text ++ after).head? = some c) : blank c = false := by
  obtain ⟨term, hread⟩ := h.reads 0
  exact hread.head_not_blank hb hc

theorem seven_le (h : Demands blank (.operands level) text need) : 7 ≤ need := by
  generalize hphrase : Phrase.operands level = phrase at h
  induction h with
  | operand => omega
  | operation _ _ _ _ _ ih _ => exact (ih hphrase).trans (Nat.le_max_left _ _)
  | _ => cases hphrase

theorem four_le (h : Demands blank phrase text need) : 4 ≤ need := by
  cases h with
  | number => exact Nat.le_refl 4
  | parentheses _ _ inner =>
    have := inner.seven_le
    omega
  | operand => omega
  | operation _ hleft =>
    have := hleft.seven_le
    omega

end Demands

/-! ## Where rules are entered -/

/-- A rule that may have been entered for what stands before the position. Operators are looked for
beyond it. -/
def Passed (stop : Nat) (key : CacheKey) : Prop :=
  key.position < stop ∨ key.rule = "add_op" ∨ key.rule = "mul_op"

/-- The same, with white space at the position. -/
def Behind (stop : Nat) (key : CacheKey) : Prop := Passed stop key ∨ key = ⟨stop, "ws"⟩

/-- The rules that may be entered for the phrase if it ends at the position. -/
def Phrase.Settles : Phrase → (stop : Nat) → CacheKey → Prop
  | factor => Passed
  | operands _ => Behind

section

variable {phrase : Phrase} {level : Level} {pos stop : Nat} {key : CacheKey}

theorem Passed.mono (h : Passed pos key) (hle : pos ≤ stop) : Passed stop key :=
  h.imp_left fun hlt => Nat.lt_of_lt_of_le hlt hle

theorem Behind.passed (h : Behind pos key) (hlt : pos < stop) : Passed stop key := by
  rcases h with h | rfl
  · exact h.mono (Nat.le_of_lt hlt)
  · exact .inl hlt

theorem Behind.mono (h : Behind pos key) (hle : pos ≤ stop) : Behind stop key := by
  rcases Nat.eq_or_lt_of_le hle with rfl | hlt
  · exact h
  · exact .inl (h.passed hlt)

theorem behind_ws (hle : pos ≤ stop) (hkey : key = ⟨pos, "ws"⟩) : Behind stop key :=
  Behind.mono (.inr hkey) hle

theorem Phrase.Settles.behind (h : phrase.Settles stop key) : Behind stop key := by
  cases phrase with
  | factor => exact .inl h
  | operands level => exact h

end

/-! ## Frugal grammars -/

/-- The rules for white space, numbers and operators afford three nested evaluations, and come to no
other rules. -/
structure Frugal (grammar : Grammar) (sign : Level → Expr) (blank : Char → Bool) : Prop
    extends Recognizes grammar sign blank where
  ws_affords : ∀ (input : Input) (pos : Nat), pos ≤ input.length →
    grammar.Affords input (· = ⟨pos, "ws"⟩) 3 (.ruleRef "ws") pos
  number_affords : ∀ (input : Input) (pos : Nat), pos ≤ input.length →
    grammar.Affords input (· = ⟨pos, "num"⟩) 3 (.ruleRef "num") pos
  sign_affords : ∀ (input : Input) (pos : Nat) (level : Level), pos ≤ input.length →
    grammar.Affords input (fun key => key.rule = "add_op" ∨ key.rule = "mul_op") 3 (sign level) pos

variable {grammar : Grammar} {sign : Level → Expr} {input : Input} {phrase : Phrase}
  {level : Level} {pos : Nat} {text before after : List Char} {need : Nat}

theorem Demands.derives (hd : Demands blank phrase text need) (h : Recognizes grammar sign blank)
    (hpos : input.Remains pos (text ++ after)) (hends : Ends blank phrase after) :
    grammar.Derives input (.ruleRef phrase.name) pos (.success (pos + text.length)) := by
  obtain ⟨term, hread⟩ := hd.reads pos
  obtain ⟨node, hmatch, -⟩ := h.accepted (h.recognized hread) input after hpos hends
  exact hmatch.derives hpos.le

/-- Where the text stands and the phrase may end after it, the rule of the phrase affords the
depth. -/
def Afforded (grammar : Grammar) (blank : Char → Bool) (phrase : Phrase) (text : List Char)
    (need : Nat) : Prop :=
  ∀ (input : Input) (pos : Nat) (after : List Char), input.Remains pos (text ++ after) →
    Ends blank phrase after →
      grammar.Affords input (phrase.Settles (pos + text.length)) need (.ruleRef phrase.name) pos

/-- Where the text stands and its last operand may end after it, the first operand affords the
depth, and the rounds of a repetition do up to the end of the text. -/
def Strung (grammar : Grammar) (sign : Level → Expr) (blank : Char → Bool) (level : Level)
    (text : List Char) (need : Nat) : Prop :=
  ∀ (input : Input) (pos : Nat) (after : List Char), input.Remains pos (text ++ after) →
    Ends blank level.operand after → ∃ middle,
      grammar.Derives input (.ruleRef level.operand.name) pos (.success middle) ∧
      ∀ (may : CacheKey → Prop) (depth : Nat), need ≤ depth + 3 →
        (∀ key, Behind (pos + text.length) key → may key) →
          grammar.Affords input may (depth + 1) (.ruleRef level.operand.name) pos ∧
          Relation.ReflTransGen
            (grammar.Strides input may depth (operationExpr (sign level) level.operand.name))
            middle (pos + text.length)

/-- What the induction says of a phrase. -/
def Provided (grammar : Grammar) (sign : Level → Expr) (blank : Char → Bool) (text : List Char)
    (need : Nat) : Phrase → Prop
  | .factor => Afforded grammar blank .factor text need
  | .operands level => Strung grammar sign blank level text need

namespace Frugal

variable (h : Frugal grammar sign blank)
include h

/-! ## Operations -/

/-- Where no operation follows, looking for one affords four nested evaluations. -/
theorem operation_affords_failure (hpos : input.Remains pos after)
    (hends : Ends blank (.operands level) after) :
    grammar.Affords input (Behind pos) 4 (operationExpr (sign level) level.operand.name) pos := by
  obtain ⟨hws, hrest⟩ := h.ws_any hpos
  refine .of_expr hpos.le nofun (.sequence_cons ?_ hpos.le hws (.sequence_failure ?_ hrest.le ?_))
  · exact (h.ws_affords input pos hpos.le).mono (fun _ => .inr) (Nat.le_refl 3)
  · exact (h.sign_affords input _ level hrest.le).mono (fun _ hkey => .inl (.inr hkey))
      (Nat.le_refl 3)
  · refine h.sign_failure input _ level _ hrest fun c hc operator hlevel => ?_
    exact hends.no_sign c hc operator (hlevel ▸ level.mem_levels)

theorem operator_derives {operator : Operator} (hlevel : operator.level = level)
    (hbefore : ∀ c ∈ before, blank c = true) (hafter : ∀ c ∈ after, blank c = true)
    {right rest : List Char}
    (hpos : input.Remains pos (before ++ operator.sign :: (after ++ (right ++ rest))))
    (hd : Demands blank level.operand right need) :
    grammar.Derives input (.ruleRef "ws") pos (.success (pos + before.length)) ∧
      grammar.Derives input (sign level) (pos + before.length)
        (.success (pos + before.length + 1)) ∧
      grammar.Derives input (.ruleRef "ws") (pos + before.length + 1)
        (.success (pos + before.length + 1 + after.length)) := by
  subst hlevel
  refine ⟨h.ws input pos before _ hpos hbefore fun c hc => ?_,
    h.sign_success input _ operator _ hpos.append,
    h.ws input _ after _ hpos.append.tail hafter fun c hc => hd.head_not_blank h.isBlank hc⟩
  cases hc
  exact h.isBlank.sign operator

/-- **One more operation is one more round**, which asks for one more evaluation than its
operand. -/
theorem operation_strides {operator : Operator} (hlevel : operator.level = level)
    {right : List Char} (hbefore : ∀ c ∈ before, blank c = true)
    (hafter : ∀ c ∈ after, blank c = true) {rest : List Char}
    (hpos : input.Remains pos (before ++ operator.sign :: (after ++ (right ++ rest))))
    (hd : Demands blank level.operand right need)
    (hright : Afforded grammar blank level.operand right need)
    (hends : Ends blank level.operand rest)
    {may : CacheKey → Prop} {depth : Nat} (hdepth : need ≤ depth)
    (hmay : ∀ key, Behind (pos + before.length + 1 + after.length + right.length) key → may key) :
    grammar.Strides input may (depth + 1) (operationExpr (sign level) level.operand.name) pos
      (pos + before.length + 1 + after.length + right.length) := by
  have hpos₁ := hpos.append
  have hpos₂ := hpos₁.tail
  have hpos₃ := hpos₂.append
  have hthree : 3 ≤ depth := by
    have := hd.four_le
    omega
  obtain ⟨hws, hsign, hws'⟩ := h.operator_derives hlevel hbefore hafter hpos hd
  have hoperand := hd.derives h.toRecognizes hpos₃ hends
  have blanks {place : Nat} (hplace : place ≤ input.length)
      (hle : place ≤ pos + before.length + 1 + after.length + right.length) :
      grammar.Affords input may depth (.ruleRef "ws") place :=
    (h.ws_affords input place hplace).mono (fun key hkey => hmay key (behind_ws hle hkey)) hthree
  refine ⟨hpos.le, .sequence_cons hws (.sequence_cons hsign (.sequence_cons hws'
    (.sequence_cons hoperand .sequence_nil))), by omega, .of_expr hpos.le nofun ?_⟩
  refine .sequence_cons (blanks hpos.le (by omega)) hpos.le hws (.sequence_cons ?_ hpos₁.le hsign
    (.sequence_cons (blanks hpos₂.le (by omega)) hpos₂.le hws' (.sequence_last ?_)))
  · exact (h.sign_affords input _ level hpos₁.le).mono (fun key hkey => hmay key (.inl (.inr hkey)))
      hthree
  · exact (hright input _ rest hpos₃ hends).mono (fun key hkey => hmay key hkey.behind) hdepth

/-! ## Phrases -/

/-- **Operands afford two more evaluations** than the rounds of their repetition ask for. -/
theorem afforded_of_strung (hd : Demands blank (.operands level) text need)
    (hs : Strung grammar sign blank level text need) :
    Afforded grammar blank (.operands level) text need := by
  intro input pos after hpos hends
  obtain ⟨middle, hfirst, hstrung⟩ := hs input pos after hpos hends.operand
  obtain ⟨depth, rfl⟩ : ∃ depth, need = depth + 3 :=
    ⟨need - 3, by have := hd.seven_le; omega⟩
  have hdepth : 4 ≤ depth := by
    have := hd.seven_le
    omega
  obtain ⟨hoperand, hstrides⟩ :=
    hstrung (Behind (pos + text.length)) depth (Nat.le_refl _) fun _ hkey => hkey
  have hmiddle := (hfirst.within hpos.le).2
  have hround : grammar.Throughout input (grammar.Affords input (Behind (pos + text.length)) depth)
      (.zeroOrMore (operationExpr (sign level) level.operand.name)) (pos + text.length) :=
    .zeroOrMore_failure ((h.operation_affords_failure hpos.append hends).mono
      (fun _ hkey => hkey) hdepth) hpos.append.le (h.operation_failure hpos.append hends)
  have hself : Behind (pos + text.length) ⟨pos, (Phrase.operands level).name⟩ :=
    .inl (.inl (Nat.lt_add_of_pos_right hd.length_pos))
  refine .ruleRef hpos.le (h.operands level) nofun hself (.of_expr hpos.le nofun ?_)
  exact .sequence_cons hoperand hpos.le hfirst
    (.sequence_last (.of_expr hmiddle nofun (.strides hstrides hround)))

theorem afforded (hd : Demands blank phrase text need)
    (hp : Provided grammar sign blank text need phrase) :
    Afforded grammar blank phrase text need := by
  cases phrase with
  | factor => exact hp
  | operands level => exact h.afforded_of_strung hd hp

omit h in
/-- Where a number stands no parenthesis opens, and looking for one affords two evaluations. -/
theorem opening_fails (hne : text ≠ []) (hdigits : ∀ c ∈ text, c.isDigit = true)
    (hpos : input.Remains pos (text ++ after)) (may : CacheKey → Prop) :
    grammar.Affords input may 2 parenthesesExpr pos ∧
      grammar.Derives input parenthesesExpr pos .failure := by
  have hopening : grammar.Derives input (.literal "(") pos .failure := by
    refine Grammar.derives_charLiteral_failure hpos fun hhead => ?_
    obtain ⟨c, rest, rfl⟩ := List.exists_cons_of_ne_nil hne
    cases hhead
    exact absurd (hdigits _ (.head _)) (by decide)
  exact ⟨.of_expr hpos.le nofun (.sequence_failure (.terminal hpos.le rfl) hpos.le hopening),
    .sequence_failure hopening⟩

theorem afforded_number (hne : text ≠ []) (hdigits : ∀ c ∈ text, c.isDigit = true) :
    Afforded grammar blank .factor text 4 := by
  intro input pos after hpos _
  have hlt : pos < pos + text.length := Nat.lt_add_of_pos_right (List.length_pos_of_ne_nil hne)
  refine .alternatives hpos.le h.factor rfl (.inl hlt) (.choice_all ?_)
  rw [List.forall_mem_cons, List.forall_mem_singleton]
  constructor
  · exact (opening_fails hne hdigits hpos _).1.mono (fun _ hkey => hkey) (by omega)
  · exact (h.number_affords input pos hpos.le).mono (fun key hkey => .inl (hkey ▸ hlt))
      (Nat.le_refl 3)

theorem opening_derives (hbefore : ∀ c ∈ before, blank c = true)
    (hpos : input.Remains pos ('(' :: (before ++ (text ++ after))))
    (hd : Demands blank (.operands .sum) text need) :
    grammar.Derives input (.literal "(") pos (.success (pos + 1)) ∧
      grammar.Derives input (.ruleRef "ws") (pos + 1) (.success (pos + 1 + before.length)) :=
  ⟨Grammar.derives_charLiteral hpos,
    h.ws input _ before _ hpos.tail hbefore fun _ hc => hd.head_not_blank h.isBlank hc⟩

theorem afforded_parentheses (hbefore : ∀ c ∈ before, blank c = true) {later : List Char}
    (hlater : ∀ c ∈ later, blank c = true) (hd : Demands blank (.operands .sum) text need)
    (hinner : Afforded grammar blank (.operands .sum) text need) :
    Afforded grammar blank .factor ('(' :: (before ++ (text ++ (later ++ [')'])))) (need + 2) := by
  intro input pos after hpos _
  generalize hstop : pos + ('(' :: (before ++ (text ++ (later ++ [')'])))).length = stop
  simp only [List.length_cons, List.length_append, List.length_nil] at hstop
  simp only [List.cons_append, List.append_assoc, List.nil_append] at hpos
  have hpos₁ := hpos.tail
  have hpos₂ := hpos₁.append
  have hpos₃ := hpos₂.append
  have hpos₄ := hpos₃.append
  have hseven := hd.seven_le
  have hlt : pos < stop := by omega
  obtain ⟨hopening, hws⟩ := h.opening_derives hbefore hpos hd
  have hends : Ends blank (.operands .sum) (later ++ ')' :: after) := .closing h.isBlank hlater _
  have hexpr := hd.derives h.toRecognizes hpos₂ hends
  have hws' := h.ws input _ later _ hpos₃ hlater fun c hc => by
    cases hc
    exact h.isBlank.closing
  have blanks {place : Nat} (hplace : place ≤ input.length) (hlt : place < stop) :
      grammar.Affords input (Passed stop) need (.ruleRef "ws") place :=
    (h.ws_affords input place hplace).mono (fun key hkey => .inl (hkey ▸ hlt)) (by omega)
  have literal {place : Nat} (text : String) (hplace : place ≤ input.length) :
      grammar.Affords input (Passed stop) need (.literal text) place :=
    (Grammar.Affords.terminal hplace rfl).mono (fun _ hkey => hkey) (by omega)
  have hbody : grammar.Throughout input (grammar.Affords input (Passed stop) need)
      parenthesesExpr pos := by
    refine .sequence_cons (literal "(" hpos.le) hpos.le hopening
      (.sequence_cons (blanks hpos₁.le (by omega)) hpos₁.le hws
        (.sequence_cons ?_ hpos₂.le hexpr
          (.sequence_cons (blanks hpos₃.le (by omega)) hpos₃.le hws'
            (.sequence_last (literal ")" hpos₄.le)))))
    exact (hinner input _ _ hpos₂ hends).mono (fun key hkey => Behind.passed hkey (by omega))
      (Nat.le_refl need)
  refine .alternatives hpos.le h.factor rfl (.inl hlt) (.choice_all ?_)
  rw [List.forall_mem_cons, List.forall_mem_singleton]
  constructor
  · exact .of_expr hpos.le nofun hbody
  · exact (h.number_affords input pos hpos.le).mono (fun key hkey => .inl (hkey ▸ hlt)) (by omega)

omit h in
theorem strung_operand (h : Recognizes grammar sign blank)
    (hd : Demands blank level.operand text need)
    (ho : Afforded grammar blank level.operand text need) :
    Strung grammar sign blank level text (max 7 (need + 2)) := by
  intro input pos after hpos hends
  refine ⟨_, hd.derives h hpos hends, fun may depth hdepth hmay => ⟨?_, .refl⟩⟩
  exact (ho input pos after hpos hends).mono (fun key hkey => hmay key hkey.behind) (by omega)

theorem strung_operation {operator : Operator} (hlevel : operator.level = level)
    {left right : List Char} {needLeft needRight : Nat}
    (hleft : Strung grammar sign blank level left needLeft)
    (hbefore : ∀ c ∈ before, blank c = true) (hafter : ∀ c ∈ after, blank c = true)
    (hd : Demands blank level.operand right needRight)
    (hright : Afforded grammar blank level.operand right needRight) :
    Strung grammar sign blank level (left ++ (before ++ operator.sign :: (after ++ right)))
      (max needLeft (needRight + 4)) := by
  intro input pos rest hpos hends
  generalize hstop : pos + (left ++ (before ++ operator.sign :: (after ++ right))).length = stop
  simp only [List.length_cons, List.length_append] at hstop
  simp only [List.append_assoc, List.cons_append] at hpos
  have hfollows : Ends blank level.operand
      (before ++ operator.sign :: (after ++ (right ++ rest))) :=
    hlevel ▸ .sign h.isBlank hbefore operator
  obtain ⟨middle, hfirst, hstrung⟩ := hleft input pos _ hpos hfollows
  refine ⟨middle, hfirst, fun may depth hdepth hmay => ?_⟩
  obtain ⟨hoperand, hstrides⟩ := hstrung may depth (by omega) fun key hkey =>
    hmay key (hkey.mono (by omega))
  obtain ⟨depth, rfl⟩ : ∃ less, depth = less + 1 := ⟨depth - 1, by omega⟩
  have hround : grammar.Strides input may (depth + 1) _ _ _ :=
    h.operation_strides hlevel hbefore hafter hpos.append hd hright hends (by omega)
      fun key hkey => hmay key (hkey.mono (by omega))
  rw [show pos + left.length + before.length + 1 + after.length + right.length = stop by omega]
    at hround
  exact ⟨hoperand, hstrides.tail hround⟩

/-- **What a text asks for suffices**, by induction on the text. -/
theorem provided (hd : Demands blank phrase text need) :
    Provided grammar sign blank text need phrase := by
  induction hd with
  | number hne hdigits => exact h.afforded_number hne hdigits
  | parentheses hbefore hafter inner ih =>
    exact h.afforded_parentheses hbefore hafter inner (h.afforded inner ih)
  | operand hd ih => exact strung_operand h.toRecognizes hd (h.afforded hd ih)
  | operation hlevel _ hbefore hafter hright ihleft ihright =>
    exact h.strung_operation hlevel ihleft hbefore hafter hright (h.afforded hright ihright)

/-- **Two more evaluations than the whole term asks for suffice** for the start rule. -/
theorem affords {text : String} {inner : List Char} (hbefore : ∀ c ∈ before, blank c = true)
    (hafter : ∀ c ∈ after, blank c = true) (hd : Demands blank (.operands .sum) inner need)
    (htext : text.toList = before ++ (inner ++ after)) :
    grammar.Affords (.ofString text) (fun _ => True) (need + 2) (.ruleRef "calculator") 0 := by
  have hpos := Input.Remains.start text
  rw [htext] at hpos
  have hpos₁ := hpos.append
  have hpos₂ := hpos₁.append
  rw [← List.append_nil after] at hpos₂
  have hpos₃ := hpos₂.append
  have hseven := hd.seven_le
  have hends : Ends blank (.operands .sum) after := .blanks h.isBlank hafter _
  have hws := h.ws _ _ before _ hpos hbefore fun c hc => hd.head_not_blank h.isBlank hc
  have hexpr := hd.derives h.toRecognizes hpos₁ hends
  have hws' := h.ws _ _ after [] hpos₂ hafter nofun
  have blanks {place : Nat} (hplace : place ≤ (Input.ofString text).length) :
      grammar.Affords (.ofString text) (fun _ => True) need (.ruleRef "ws") place :=
    (h.ws_affords _ place hplace).mono (fun _ _ => trivial) (by omega)
  refine .ruleRef hpos.le h.calculator nofun trivial (.of_expr hpos.le nofun ?_)
  refine .sequence_cons (blanks hpos.le) hpos.le hws (.sequence_cons ?_ hpos₁.le hexpr
    (.sequence_cons (blanks hpos₂.le) hpos₂.le hws' (.sequence_last ?_)))
  · exact (h.afforded hd (h.provided hd) _ _ _ hpos₁ hends).mono (fun _ _ => trivial)
      (Nat.le_refl need)
  · exact (Grammar.Affords.terminal hpos₃.le rfl).mono (fun _ hkey => hkey) (by omega)

end Frugal

/-! ## Tokens -/

theorem run_affords {may : CacheKey → Prop} (cls : CharClass) (hpos : pos ≤ input.length) :
    grammar.Affords input may 2 (.zeroOrMore (.oneIn cls)) pos :=
  .of_expr hpos nofun (.zeroOrMore_all hpos fun _ hplace => .terminal hplace rfl)

theorem run_one_affords {may : CacheKey → Prop} (cls : CharClass) (hpos : pos ≤ input.length) :
    grammar.Affords input may 2 (.oneOrMore (.oneIn cls)) pos :=
  .of_expr hpos nofun (.oneOrMore_all hpos fun _ hplace => .terminal hplace rfl)

theorem operators_afford {may : CacheKey → Prop} (level : Level) (hpos : pos ≤ input.length) :
    ∃ exprs, level.expr = .choice exprs ∧
      grammar.Throughout input (grammar.Affords input may 1) (.choice exprs) pos := by
  refine ⟨_, level.expr_eq, .choice_all fun expr hmem => ?_⟩
  obtain ⟨c, -, rfl⟩ := List.mem_map.1 hmem
  exact .terminal hpos rfl

theorem frugal_ruleGrammar : Frugal ruleGrammar ruleSign isBlankOrTab where
  toRecognizes := recognizes_ruleGrammar
  ws_affords input pos hpos := .ruleRef hpos rule?_ws nofun rfl (run_affords _ hpos)
  number_affords input pos hpos := .ruleRef hpos rule?_num nofun rfl (run_one_affords _ hpos)
  sign_affords input pos level hpos := by
    obtain ⟨name, hname, hr⟩ := rule?_ruleSign level
    obtain ⟨exprs, hexprs, hthroughout⟩ := operators_afford level hpos
    have hkey : name = "add_op" ∨ name = "mul_op" := by
      cases level <;> cases hname
      · exact .inl rfl
      · exact .inr rfl
    rw [hname]
    exact (Grammar.Affords.alternatives hpos hr hexprs hkey hthroughout).mono (fun _ h => h)
      (by omega)

end Packrat.Arithmetic
