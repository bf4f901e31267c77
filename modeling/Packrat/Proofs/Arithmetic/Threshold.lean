import Packrat.Proofs.Arithmetic.Demand
import Packrat.Proofs.Starvation

/-!
# The least depth of a term

What a text asks for is not only enough but also necessary, with memoization too
(`Demands.starves`): the deepest evaluation is never one that the cache could save, as it is of a
rule at a position up to which nothing has been looked for but white space and operators. So a parse
of a term as a whole is complete if and only if there is as much depth, and two evaluations more,
and stops at its limit otherwise (`parse_term`).
-/

set_option autoImplicit false

namespace Packrat.Arithmetic

/-- The phrase that stands last in a phrase. -/
def Phrase.last : Phrase → Phrase
  | factor => factor
  | operands level => level.operand

theorem Ends.last {blank : Char → Bool} {phrase : Phrase} {text : List Char}
    (h : Ends blank phrase text) : Ends blank phrase.last text := by
  cases phrase with
  | factor => exact h
  | operands level => exact h.operand

variable {input : Input} {phrase : Phrase} {level : Level} {pos depth : Nat}
  {text before after : List Char} {need : Nat} {may : CacheKey → Prop}

/-! ## What has not been entered -/

theorem not_behind {name : String} (h : name ∉ ["ws", "add_op", "mul_op"]) :
    ¬ Behind pos ⟨pos, name⟩ := by
  simp only [List.mem_cons, List.not_mem_nil, or_false, not_or] at h
  rintro ((hlt | hname | hname) | hkey)
  · exact Nat.lt_irrefl pos hlt
  · exact h.2.1 hname
  · exact h.2.2 hname
  · exact h.1 (CacheKey.mk.inj hkey).2

theorem Phrase.name_not_mem (phrase : Phrase) : phrase.name ∉ ["ws", "add_op", "mul_op"] := by
  rcases phrase with _ | _ | _ <;> decide

theorem not_passed_ws : ¬ Passed pos ⟨pos, "ws"⟩ := by
  rintro (hlt | hname)
  · exact Nat.lt_irrefl pos hlt
  · revert hname
    show ¬ ("ws" = "add_op" ∨ "ws" = "mul_op")
    decide

theorem ws_starves (h : ¬ may ⟨pos, "ws"⟩) :
    ruleGrammar.Starves input may 2 (.ruleRef "ws") pos :=
  .ruleRef rule?_ws nofun h (.zeroOrMore (.here .zero))

theorem number_starves (h : ¬ may ⟨pos, "num"⟩) :
    ruleGrammar.Starves input may 2 (.ruleRef "num") pos :=
  .ruleRef rule?_num nofun h (.oneOrMore .zero)

/-! ## Phrases -/

/-- Where the text stands and its last part may end after it, less depth is not enough for the
phrase. -/
def Starved (phrase : Phrase) (text : List Char) (need : Nat) : Prop :=
  ∀ (input : Input) (pos : Nat) (after : List Char) (depth : Nat),
    input.Remains pos (text ++ after) → Ends isBlankOrTab phrase.last after → depth < need →
      ruleGrammar.Starves input (Behind pos) depth (.ruleRef phrase.name) pos

/-- The rule of operands starves with the parts of its body, over more caches. -/
theorem operands_starve (hmay : ∀ key, Behind pos key → may key)
    (h : ruleGrammar.StarvesThen input may depth
      [.ruleRef level.operand.name,
        .zeroOrMore (operationExpr (ruleSign level) level.operand.name)] pos) :
    ruleGrammar.Starves input (Behind pos) (depth + 2) (.ruleRef (Phrase.operands level).name)
      pos :=
  .ruleRef (hasRules_ruleGrammar.operands level) nofun
    (not_behind (Phrase.operands level).name_not_mem)
    ((Grammar.Starves.sequence h).anti hmay (Nat.le_refl _))

theorem starved_number (hne : text ≠ []) (hdigits : ∀ c ∈ text, c.isDigit = true) :
    Starved .factor text 4 := by
  intro input pos after depth hpos _ hdepth
  obtain ⟨hafford, hopening⟩ := Frugal.opening_fails hne hdigits hpos (Behind pos)
  have hnumber : ruleGrammar.StarvesElse input (Behind pos) 2 [parenthesesExpr, .ruleRef "num"]
      pos := .later hpos.le hafford hopening (.here (number_starves (not_behind (by decide))))
  have hfactor := Grammar.Starves.alternatives hasRules_ruleGrammar.factor rfl
    (not_behind (Phrase.name_not_mem .factor)) hnumber
  exact hfactor.anti (fun _ hkey => hkey) (by omega)

theorem starved_parentheses (hbefore : ∀ c ∈ before, isBlankOrTab c = true)
    (hafter : ∀ c ∈ after, isBlankOrTab c = true)
    (hd : Demands isBlankOrTab (.operands .sum) text need)
    (hinner : Starved (.operands .sum) text need) :
    Starved .factor ('(' :: (before ++ (text ++ (after ++ [')'])))) (need + 2) := by
  intro input pos rest depth hpos _ hdepth
  simp only [List.cons_append, List.append_assoc, List.nil_append] at hpos
  have hpos₁ := hpos.tail
  obtain ⟨hopening, hws⟩ := frugal_ruleGrammar.opening_derives hbefore hpos hd
  obtain ⟨less, rfl⟩ : ∃ less, need = less + 1 := ⟨need - 1, by have := hd.four_le; omega⟩
  have hends : Ends isBlankOrTab (Phrase.operands .sum).last (after ++ ')' :: rest) :=
    .closing isBlank_isBlankOrTab hafter _
  have hexpr := hinner input _ _ less hpos₁.append hends (Nat.lt_succ_self _)
  have hblank := (frugal_ruleGrammar.ws_affords input _ hpos₁.le).mono
    (fun _ => behind_ws (Nat.le_add_right _ before.length)) (Nat.le_refl 3)
  have hparts : ruleGrammar.Starves input (Behind (pos + 1 + before.length)) (less + 1)
      parenthesesExpr pos :=
    .sequence (.later hpos.le (.terminal hpos.le rfl) hopening
      (.later hpos₁.le hblank hws (.here hexpr)))
  have hfactor := Grammar.Starves.alternatives hasRules_ruleGrammar.factor rfl
    (not_behind (Phrase.name_not_mem .factor))
    (.here (hparts.anti (fun _ hkey => hkey.mono (by omega)) (Nat.le_refl _)))
  exact hfactor.anti (fun _ hkey => hkey) (by omega)

/-- After the first factor of a product the white space before an operator is looked for, seven
evaluations deep. -/
theorem starved_factor (hd : Demands isBlankOrTab .factor text need)
    (hpos : input.Remains pos (text ++ after)) (hends : Ends isBlankOrTab .factor after) :
    ruleGrammar.Starves input (Behind pos) 6 (.ruleRef "term") pos := by
  have hlt : pos < pos + text.length := Nat.lt_add_of_pos_right hd.length_pos
  have hfirst := hd.derives recognizes_ruleGrammar hpos hends
  have hafford := frugal_ruleGrammar.afforded hd (frugal_ruleGrammar.provided hd) input pos after
    hpos hends
  have hround : ruleGrammar.Starves input (Passed (pos + text.length)) 4
      (.zeroOrMore (operationExpr (ruleSign .product) "factor")) (pos + text.length) :=
    .zeroOrMore (.here (.sequence (.here (ws_starves not_passed_ws))))
  exact @operands_starve _ .product _ _ _ (fun _ hkey => hkey.passed hlt)
    (.later hpos.le hafford hfirst (.here hround))

theorem starved_operand (hd : Demands isBlankOrTab level.operand text need)
    (ho : Starved level.operand text need) :
    Starved (.operands level) text (max 7 (need + 2)) := by
  intro input pos after depth hpos hends hdepth
  by_cases hoperand : depth < need + 2
  · obtain ⟨less, rfl⟩ : ∃ less, need = less + 1 := ⟨need - 1, by have := hd.four_le; omega⟩
    have hstarves := operands_starve (fun _ hkey => hkey)
      (.here (ho input pos after less hpos hends.last (by omega)))
    exact hstarves.anti (fun _ hkey => hkey) (by omega)
  · cases level with
    | sum =>
      -- the first product asks for more than the white space after it
      have hseven : 7 ≤ need := Demands.seven_le hd
      omega
    | product => exact (starved_factor hd hpos hends).anti (fun _ hkey => hkey) (by omega)

theorem starved_operation {operator : Operator} (hlevel : operator.level = level)
    {left right : List Char} {needLeft needRight : Nat}
    (hleft : Demands isBlankOrTab (.operands level) left needLeft)
    (ihleft : Starved (.operands level) left needLeft)
    (hbefore : ∀ c ∈ before, isBlankOrTab c = true) (hafter : ∀ c ∈ after, isBlankOrTab c = true)
    (hright : Demands isBlankOrTab level.operand right needRight)
    (ihright : Starved level.operand right needRight) :
    Starved (.operands level) (left ++ (before ++ operator.sign :: (after ++ right)))
      (max needLeft (needRight + 4)) := by
  intro input pos rest depth hpos hends hdepth
  simp only [List.append_assoc, List.cons_append] at hpos
  have hfollows : Ends isBlankOrTab level.operand
      (before ++ operator.sign :: (after ++ (right ++ rest))) :=
    hlevel ▸ .sign isBlank_isBlankOrTab hbefore operator
  by_cases hdepthLeft : depth < needLeft
  · exact ihleft input pos _ depth hpos hfollows hdepthLeft
  obtain ⟨less, rfl⟩ : ∃ less, depth = less + 4 :=
    ⟨depth - 4, by have := hleft.four_le; omega⟩
  have hpos₁ := hpos.append
  have hpos₂ := hpos₁.append
  have hpos₃ := hpos₂.tail
  obtain ⟨hws, hsign, hws'⟩ :=
    frugal_ruleGrammar.operator_derives hlevel hbefore hafter hpos₁ hright
  generalize hplace : pos + left.length + before.length + 1 + after.length = place at hws'
  have hoperand : ruleGrammar.Starves input (Behind place) less (.ruleRef level.operand.name)
      place := by
    rw [← hplace]
    exact ihright input _ rest less hpos₃.append hends.last (by omega)
  have blanks {start : Nat} (hstart : start ≤ input.length) (hle : start ≤ place) :
      ruleGrammar.Affords input (Behind place) 3 (.ruleRef "ws") start :=
    (frugal_ruleGrammar.ws_affords input start hstart).mono (fun _ => behind_ws hle)
      (Nat.le_refl 3)
  have hsignAffords := (frugal_ruleGrammar.sign_affords input _ level hpos₂.le).mono
    (fun _ hkey => (.inl (.inr hkey) : Behind place _)) (Nat.le_refl 3)
  -- the round of the right operand starves with it
  have hround : ruleGrammar.StarvesAgain input (Behind place) (less + 1)
      (operationExpr (ruleSign level) level.operand.name) (pos + left.length) :=
    .here (.sequence (.later hpos₁.le (blanks hpos₁.le (by omega)) hws
      (.later hpos₂.le hsignAffords hsign
        (.later hpos₃.le (blanks hpos₃.le (by omega)) hws' (.here hoperand)))))
  obtain ⟨middle, hfirst, hstrung⟩ :=
    frugal_ruleGrammar.provided hleft input pos _ hpos hfollows
  obtain ⟨hafford, hstrides⟩ := hstrung (Behind place) needLeft (by omega) fun _ hkey =>
    hkey.mono (by omega)
  exact operands_starve (fun _ hkey => hkey.mono (by omega))
    (.later hpos.le hafford hfirst (.here (.zeroOrMore (.strides hstrides hround))))

/-- **Less depth than a text asks for is not enough**, by induction on the text. -/
theorem Demands.starves (hd : Demands isBlankOrTab phrase text need) :
    Starved phrase text need := by
  induction hd with
  | number hne hdigits => exact starved_number hne hdigits
  | parentheses hbefore hafter inner ih => exact starved_parentheses hbefore hafter inner ih
  | operand hd ih => exact starved_operand hd ih
  | operation hlevel hleft hbefore hafter hright ihleft ihright =>
    exact starved_operation hlevel hleft ihleft hbefore hafter hright ihright

/-! ## Whole terms -/

/-- With one evaluation more than a whole term asks for the start rule still starves. -/
theorem calculator_starves {text : String} {inner : List Char}
    (hbefore : ∀ c ∈ before, isBlankOrTab c = true)
    (hafter : ∀ c ∈ after, isBlankOrTab c = true)
    (hd : Demands isBlankOrTab (.operands .sum) inner need)
    (htext : text.toList = before ++ (inner ++ after)) :
    ruleGrammar.Starves (.ofString text) (fun _ => False) (need + 1) (.ruleRef "calculator") 0 := by
  have hpos := Input.Remains.start text
  rw [htext] at hpos
  obtain ⟨less, rfl⟩ : ∃ less, need = less + 1 := ⟨need - 1, by have := hd.four_le; omega⟩
  have hends : Ends isBlankOrTab (Phrase.operands .sum).last after :=
    .blanks isBlank_isBlankOrTab hafter _
  have hws := recognizes_ruleGrammar.ws _ _ before _ hpos hbefore fun c hc =>
    hd.head_not_blank isBlank_isBlankOrTab hc
  have hblank := (frugal_ruleGrammar.ws_affords _ 0 hpos.le).mono
    (fun _ => behind_ws (Nat.le_add_right 0 before.length)) (Nat.le_refl 3)
  have hexpr := hd.starves _ _ after less hpos.append hends (Nat.lt_succ_self _)
  have hbody : ruleGrammar.Starves (.ofString text) (Behind (0 + before.length)) (less + 1)
      wholeTerm 0 := .sequence (.later hpos.le hblank hws (.here hexpr))
  exact .ruleRef hasRules_ruleGrammar.calculator nofun id
    (hbody.anti (fun _ hkey => hkey.elim) (Nat.le_refl _))

theorem Frugal.parse_complete {grammar : Grammar} {sign : Level → Expr} {blank : Char → Bool}
    (h : Frugal grammar sign blank) {text : String} {before inner after : List Char}
    (hbefore : ∀ c ∈ before, blank c = true) (hafter : ∀ c ∈ after, blank c = true)
    (hd : Demands blank (.operands .sum) inner need)
    (htext : text.toList = before ++ (inner ++ after)) (options : Options)
    (hlimit : options.maxInputLength?.filter (· < (Input.ofString text).length) = none)
    (hdepth : need + 2 ≤ options.maxDepth) :
    ∃ tree, (Parser.parse ⟨grammar, options⟩ "calculator" (.ofString text)).result =
      .ok (.complete tree) := by
  obtain ⟨term, hread⟩ := hd.reads before.length
  obtain ⟨tree, hmatch, -⟩ :=
    h.toRecognizes.accepts ⟨before, inner, after, hbefore, hafter, hread, htext⟩
  rw [← Input.length_ofString] at hmatch
  have hafford := h.affords hbefore hafter hd htext
  exact ⟨tree, (Parser.complete_iff_matches hafford hdepth hlimit).2 hmatch⟩

/-- **The least depth of a whole term.** A parse of a text that reads as a term is complete if there
are two more nested evaluations than the term asks for. With fewer it stops at its limit. Both hold
with memoization and without. -/
theorem parse_term {text : String} {inner : List Char}
    (hbefore : ∀ c ∈ before, isBlankOrTab c = true)
    (hafter : ∀ c ∈ after, isBlankOrTab c = true)
    (hd : Demands isBlankOrTab (.operands .sum) inner need)
    (htext : text.toList = before ++ (inner ++ after)) (options : Options)
    (hlimit : options.maxInputLength?.filter (· < (Input.ofString text).length) = none) :
    let result := (Parser.parse ⟨ruleGrammar, options⟩ "calculator" (.ofString text)).result
    (need + 2 ≤ options.maxDepth → ∃ tree, result = .ok (.complete tree)) ∧
    (options.maxDepth < need + 2 →
      ∃ pos, result = .error (.recursionLimit options.maxDepth pos)) := by
  intro result
  constructor
  · exact frugal_ruleGrammar.parse_complete hbefore hafter hd htext options hlimit
  · intro hdepth
    exact Parser.parse_of_starves (calculator_starves hbefore hafter hd htext) (by omega)
      (frugal_ruleGrammar.affords hbefore hafter hd htext) hlimit

/-! ## Nested parentheses -/

/-- So many parentheses around digits. -/
def nested (n : Nat) (digits : List Char) : List Char :=
  List.replicate n '(' ++ digits ++ List.replicate n ')'

theorem nested_succ (n : Nat) (digits : List Char) :
    nested (n + 1) digits = '(' :: ([] ++ (nested n digits ++ ([] ++ [')']))) := by
  rw [nested, List.replicate_succ, List.replicate_succ']
  simp [nested]

/-- Every pair of parentheses asks for six more evaluations: two for each of the rules of operands
and of a factor. -/
theorem demands_nested {digits : List Char} (hne : digits ≠ [])
    (hdigits : ∀ c ∈ digits, c.isDigit = true) (n : Nat) :
    Demands isBlankOrTab (.operands .sum) (nested n digits) (6 * n + 9) := by
  induction n with
  | zero =>
    have hfactor : Demands isBlankOrTab .factor (nested 0 digits) 4 := by
      rw [show nested 0 digits = digits by simp [nested]]
      exact .number hne hdigits
    exact @Demands.operand _ .sum _ _ (@Demands.operand _ .product _ _ hfactor)
  | succ n ih =>
    have hfactor : Demands isBlankOrTab .factor (nested (n + 1) digits) (6 * n + 9 + 2) := by
      rw [nested_succ]
      exact .parentheses nofun nofun ih
    have hsum := @Demands.operand _ .sum _ _ (@Demands.operand _ .product _ _ hfactor)
    rwa [show max 7 (max 7 (6 * n + 9 + 2 + 2) + 2) = 6 * (n + 1) + 9 by omega] at hsum

/-- **How many parentheses fit under a depth limit.** With `n` of them around digits a parse is
complete from `6 * n + 11` nested evaluations on, and stops at its limit with fewer, whether
outcomes are kept or not. -/
theorem parse_nested (n : Nat) (digits : List Char) (hne : digits ≠ [])
    (hdigits : ∀ c ∈ digits, c.isDigit = true) (depth : Nat) (memoize : Bool) :
    let text := String.ofList (List.replicate n '(' ++ digits ++ List.replicate n ')')
    let result :=
      (Parser.parse ⟨ruleGrammar, { memoize, maxDepth := depth }⟩ "calculator"
        (.ofString text)).result
    (6 * n + 11 ≤ depth → ∃ tree, result = .ok (.complete tree)) ∧
    (depth < 6 * n + 11 → ∃ pos, result = .error (.recursionLimit depth pos)) := by
  intro text result
  have htext : text.toList = [] ++ (nested n digits ++ []) := by simp [text, nested]
  exact parse_term (List.forall_mem_nil _) (List.forall_mem_nil _) (demands_nested hne hdigits n)
    htext { memoize, maxDepth := depth } rfl

/-- The default limit is reached at 32 parentheses. -/
theorem parse_nested_default :
    let text (n : Nat) := String.ofList (List.replicate n '(' ++ ['7'] ++ List.replicate n ')')
    let result (n : Nat) :=
      (Parser.parse ⟨ruleGrammar, { memoize := true, maxDepth := 200 }⟩ "calculator"
        (.ofString (text n))).result
    (∃ tree, result 31 = .ok (.complete tree)) ∧
      ∃ pos, result 32 = .error (.recursionLimit 200 pos) := by
  intro text result
  have hdigits : ∀ c ∈ ['7'], c.isDigit = true := List.all_eq_true.1 rfl
  exact ⟨(parse_nested 31 ['7'] nofun hdigits 200 true).1 (by decide),
    (parse_nested 32 ['7'] nofun hdigits 200 true).2 (by decide)⟩

end Packrat.Arithmetic
