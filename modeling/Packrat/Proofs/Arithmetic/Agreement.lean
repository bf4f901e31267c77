import Packrat.Proofs.Arithmetic.Threshold
import Packrat.Proofs.NumberPattern

/-!
# Two grammars for the same terms

The grammar in which operators stand where they are used recognizes terms as the other one does,
with any white space (`recognizes_inlineGrammar`), and asks for no more depth
(`frugal_inlineGrammar`). So it parses every text that the other one parses, to a tree of the same
term, and the values of the term in words of two kinds are equal where there are both
(`grammars_agree`).
-/

set_option autoImplicit false

namespace Packrat.Arithmetic

/-! ## More white space -/

section

variable {blank blank' : Char → Bool} (hsub : ∀ c, blank c = true → blank' c = true)
  {phrase : Phrase} {text : List Char}
include hsub

theorem Reads.mono {pos : Nat} {term : Term} (h : Reads blank phrase pos text term) :
    Reads blank' phrase pos text term := by
  induction h with
  | number hne hdigits => exact .number hne hdigits
  | parentheses hbefore hafter _ ih =>
    exact .parentheses (fun c hc => hsub c (hbefore c hc)) (fun c hc => hsub c (hafter c hc)) ih
  | operand _ ih => exact .operand ih
  | operation hlevel _ hbefore hafter _ ihleft ihright =>
    exact .operation hlevel ihleft (fun c hc => hsub c (hbefore c hc))
      (fun c hc => hsub c (hafter c hc)) ihright

theorem Demands.mono {need : Nat} (h : Demands blank phrase text need) :
    Demands blank' phrase text need := by
  induction h with
  | number hne hdigits => exact .number hne hdigits
  | parentheses hbefore hafter _ ih =>
    exact .parentheses (fun c hc => hsub c (hbefore c hc)) (fun c hc => hsub c (hafter c hc)) ih
  | operand _ ih => exact .operand ih
  | operation hlevel _ hbefore hafter _ ihleft ihright =>
    exact .operation hlevel ihleft (fun c hc => hsub c (hbefore c hc))
      (fun c hc => hsub c (hafter c hc)) ihright

end

theorem isWhiteSpace_of_isBlankOrTab (c : Char) (h : isBlankOrTab c = true) :
    Unicode.isWhiteSpace c = true := by
  simp only [isBlankOrTab, Bool.or_eq_true, decide_eq_true_eq] at h
  obtain rfl | rfl := h <;> rfl

/-! ## The grammar in which operators stand where they are used -/

theorem isBlank_isWhiteSpace : IsBlank Unicode.isWhiteSpace where
  digit _ := isWhiteSpace_of_isDigit
  opening := rfl
  closing := rfl
  sign operator := by cases operator <;> rfl

theorem hasRules_inlineGrammar : HasRules inlineGrammar Level.expr where
  calculator := rfl
  operands level := by cases level <;> rfl
  factor := rfl

theorem inlineGrammar_ws :
    inlineGrammar.rule? "ws" = some ⟨"ws", .zeroOrMore (.oneIn .whitespace)⟩ := rfl

theorem inlineGrammar_num :
    inlineGrammar.rule? "num" = some ⟨"num", .regex decimalNumber⟩ := rfl

theorem recognizes_inlineGrammar :
    Recognizes inlineGrammar Level.expr Unicode.isWhiteSpace where
  toHasRules := hasRules_inlineGrammar
  isBlank := isBlank_isWhiteSpace
  ws input pos before after hpos hbefore hafter := by
    simp only [← Grammar.accepts_whitespace] at hbefore hafter
    exact .ruleRef_body inlineGrammar_ws (Grammar.derives_run hpos hbefore hafter)
  number input pos digits after hpos hne hdigits hafter := by
    refine .ruleRef_body inlineGrammar_num (.regex_success ?_)
    rw [hpos.rest, matchLength?_decimalNumber, digitRun?_append hne hdigits hafter]
  sign_success _ _ operator _ hpos := Level.derives_expr operator hpos
  sign_failure _ _ level _ hpos hafter := level.derives_expr_failure hpos hafter

/-- **The grammar asks for no more depth** than the one in which operators are rules. -/
theorem frugal_inlineGrammar : Frugal inlineGrammar Level.expr Unicode.isWhiteSpace where
  toRecognizes := recognizes_inlineGrammar
  ws_affords input pos hpos := .ruleRef hpos inlineGrammar_ws nofun rfl (run_affords _ hpos)
  number_affords input pos hpos := by
    have hafford : inlineGrammar.Affords input (· = ⟨pos, "num"⟩) 2 (.ruleRef "num") pos :=
      .ruleRef hpos inlineGrammar_num nofun rfl (.terminal hpos rfl)
    exact hafford.mono (fun _ h => h) (by omega)
  sign_affords input pos level hpos := by
    obtain ⟨exprs, hexprs, hthroughout⟩ := operators_afford level hpos
    have hafford : inlineGrammar.Affords input
        (fun key => key.rule = "add_op" ∨ key.rule = "mul_op") 2 (.choice exprs) pos :=
      .of_expr hpos nofun hthroughout
    rw [hexprs]
    exact hafford.mono (fun _ h => h) (by omega)

/-! ## Values -/

/-- The result of an operation, apart from any word. -/
def Operator.exact (operator : Operator) (a b : Int) : Int :=
  match operator with
  | .add => a + b
  | .sub => a - b
  | .mul => a * b
  | .div => a.tdiv b
  | .mod => a.tmod b

theorem WordRange.eq_of_fit? {range : WordRange} {exact value : Int}
    (h : range.fit? exact = some value) : value = exact := by
  unfold fit? at h
  split at h <;> cases h
  rfl

theorem WordRange.eq_of_compute? {range : WordRange} {operator : Operator} {a b value : Int}
    (h : range.compute? operator a b = some value) : value = operator.exact a b := by
  unfold compute? at h
  cases operator with
  | add => exact eq_of_fit? h
  | sub => exact eq_of_fit? h
  | mul => exact eq_of_fit? h
  | div =>
    simp only at h
    split at h
    · cases h
    · exact eq_of_fit? h
  | mod =>
    simp only at h
    split at h
    · cases h
    · obtain ⟨quotient, -, rfl⟩ := Option.map_eq_some_iff.1 h
      rfl

/-- The value of a term, apart from any word. -/
def Term.exact : Term → Int
  | number digits => digitsValue digits
  | operation operator _ left right => operator.exact left.exact right.exact

/-- **A value in a word is exact**, whatever the word. -/
theorem Term.eq_of_evaluate {range : WordRange} {term : Term} {value : Int}
    (h : term.evaluate range = .ok value) : value = term.exact := by
  induction term generalizing value with
  | number digits =>
    rw [evaluate] at h
    split at h
    · next hfit =>
      cases h
      exact WordRange.eq_of_fit? hfit
    · cases h
  | operation operator position left right ihleft ihright =>
    rw [evaluate] at h
    cases hleft : left.evaluate range with
    | error fault => simp [hleft, bind, Except.bind] at h
    | ok a =>
      cases hright : right.evaluate range with
      | error fault => simp [hleft, hright, bind, Except.bind] at h
      | ok b =>
        simp only [hleft, hright, bind, Except.bind] at h
        split at h
        · next hcompute =>
          cases h
          rw [exact, ← ihleft hleft, ← ihright hright]
          exact WordRange.eq_of_compute? hcompute
        · cases h

theorem Evaluation.eq_of_ofTerm {range : WordRange} {term : Term} {value : Int}
    (h : ofTerm range term = .value value) : value = term.exact := by
  unfold ofTerm at h
  cases hvalue : term.evaluate range with
  | error fault => rw [hvalue] at h; cases h
  | ok number =>
    rw [hvalue] at h
    cases h
    exact Term.eq_of_evaluate hvalue

/-! ## Agreement -/

theorem ReadsAs.mono {blank blank' : Char → Bool}
    (hsub : ∀ c, blank c = true → blank' c = true) {text : List Char} {term : Term}
    (h : ReadsAs blank text term) : ReadsAs blank' text term := by
  obtain ⟨before, inner, after, hbefore, hafter, hread, htext⟩ := h
  exact ⟨before, inner, after, fun c hc => hsub c (hbefore c hc), fun c hc => hsub c (hafter c hc),
    hread.mono hsub, htext⟩

variable {options : Options} {text : String} {tree : Node}

/-- **With the same options the other grammar parses what this one parses**, as it asks for no more
depth. -/
theorem inlineGrammar_complete
    (h : (Parser.parse ⟨ruleGrammar, options⟩ "calculator" (.ofString text)).result =
      .ok (.complete tree)) :
    ∃ tree', (Parser.parse ⟨inlineGrammar, options⟩ "calculator" (.ofString text)).result =
      .ok (.complete tree') := by
  obtain ⟨term, before, inner, after, hbefore, hafter, hread, htext⟩ := readsAs_of_complete h
  obtain ⟨need, hd⟩ := hread.demands
  have hlimit := Parser.not_tooLarge_of_ok h
  have hdepth : need + 2 ≤ options.maxDepth := by
    by_contra hless
    obtain ⟨pos, hresult⟩ :=
      (parse_term hbefore hafter hd htext options hlimit).2 (by omega)
    cases h.symm.trans hresult
  have hd' := hd.mono isWhiteSpace_of_isBlankOrTab
  exact frugal_inlineGrammar.parse_complete
    (fun c hc => isWhiteSpace_of_isBlankOrTab c (hbefore c hc))
    (fun c hc => isWhiteSpace_of_isBlankOrTab c (hafter c hc)) hd' htext options hlimit hdepth

/-- **The two grammars agree.** With the same options, a text that the grammar with rules for
operators parses completely is parsed completely by the other one too. The trees hold the same term
and the walks come to what it comes to, so its value in signed words and the one in unsigned words
are the same number if there are both. -/
theorem grammars_agree (options : Options) (text : String) :
    let parsed (grammar : Grammar) :=
      (Parser.parse ⟨grammar, options⟩ "calculator" (.ofString text)).result
    ((∃ tree, parsed ruleGrammar = .ok (.complete tree)) →
      ∃ tree, parsed inlineGrammar = .ok (.complete tree)) ∧
    ∀ tree tree', parsed ruleGrammar = .ok (.complete tree) →
      parsed inlineGrammar = .ok (.complete tree') →
        (∃ term, Term.ofTree? (.ofString text) tree = some term ∧
          Term.ofTree? (.ofString text) tree' = some term ∧
          walk .firstFound .signed64 (.ofString text) tree = .ofTerm .signed64 term ∧
          walk .secondChild .unsigned64 (.ofString text) tree' = .ofTerm .unsigned64 term) ∧
        ∀ w v, walk .firstFound .signed64 (.ofString text) tree = .value w →
          walk .secondChild .unsigned64 (.ofString text) tree' = .value v → v = w := by
  intro parsed
  refine ⟨fun ⟨tree, htree⟩ => inlineGrammar_complete htree, fun tree tree' htree htree' => ?_⟩
  obtain ⟨term, hread⟩ := readsAs_of_complete htree
  have hterm := recognizes_ruleGrammar.ofTree?_of_complete hread htree
  have hterm' := recognizes_inlineGrammar.ofTree?_of_complete
    (hread.mono isWhiteSpace_of_isBlankOrTab) htree'
  have hwalk := walked .firstFound .signed64 _ tree term
    (hasRules_ruleGrammar.all_entersAlike rule?_ws htree rfl) hterm
  have hwalk' := walked .secondChild .unsigned64 _ tree' term
    (hasRules_inlineGrammar.all_entersAlike inlineGrammar_ws htree' rfl) hterm'
  refine ⟨⟨term, hterm, hterm', hwalk, hwalk'⟩, fun w v hw hv => ?_⟩
  rw [Evaluation.eq_of_ofTerm (hwalk.symm.trans hw), Evaluation.eq_of_ofTerm (hwalk'.symm.trans hv)]

/-- A product with the default options. -/
theorem grammars_agree_product :
    let parsed (grammar : Grammar) :=
      (Parser.parse ⟨grammar, {}⟩ "calculator" (.ofString "6*7")).result
    ∃ tree tree', parsed ruleGrammar = .ok (.complete tree) ∧
      parsed inlineGrammar = .ok (.complete tree') ∧
      walk .firstFound .signed64 (.ofString "6*7") tree = .value 42 ∧
      ∃ v, walk .secondChild .unsigned64 (.ofString "6*7") tree' = .value v ∧ v = 42 := by
  intro parsed
  have hsix : Demands isBlankOrTab .factor ['6'] 4 := .number nofun (List.all_eq_true.1 rfl)
  have hseven : Demands isBlankOrTab .factor ['7'] 4 := .number nofun (List.all_eq_true.1 rfl)
  have hproduct : Demands isBlankOrTab (.operands .product) ['6', '*', '7'] 8 :=
    @Demands.operation _ _ .mul rfl _ [] [] _ _ _ (.operand hsix) nofun nofun hseven
  have hblank : ∀ c ∈ [], isBlankOrTab c = true := nofun
  obtain ⟨tree, htree⟩ : ∃ tree, parsed ruleGrammar = .ok (.complete tree) :=
    frugal_ruleGrammar.parse_complete hblank hblank (@Demands.operand _ .sum _ _ hproduct) rfl {}
      rfl (by decide)
  obtain ⟨hcomplete, hagree⟩ := grammars_agree {} "6*7"
  obtain ⟨tree', htree'⟩ := hcomplete ⟨tree, htree⟩
  obtain ⟨⟨term, hterm, -, hwalk, hwalk'⟩, hequal⟩ := hagree tree tree' htree htree'
  have hproduct := recognizes_ruleGrammar.ofTree?_of_complete readsAs_product htree
  cases hterm.symm.trans hproduct
  exact ⟨tree, tree', htree, htree', hwalk, 42, hwalk', hequal 42 42 hwalk hwalk'⟩

end Packrat.Arithmetic
