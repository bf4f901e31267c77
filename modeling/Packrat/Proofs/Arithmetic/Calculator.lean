import Packrat.Proofs.Arithmetic.Language
import Packrat.Proofs.Arithmetic.Value
import Packrat.Proofs.Arithmetic.Walk
import Packrat.Proofs.Nesting
import Packrat.Proofs.RuleNodes
import Packrat.Proofs.Termination
import Packrat.Proofs.UndefinedRules

/-!
# The calculator

With a grammar for arithmetic that recognizes terms, spells nothing else, refers to no missing rule
and has no left recursion, a parse of a text finds the term that the text reads as or fails, and
never stops in the middle (`Recognizes.parse_complete`, `HasRules.parse_failed`). On the trees of
its parses the walkers agree (`HasRules.walk_agrees`).

The grammar in which operators are rules is of this kind, so the calculator finds the value of a
text that is in the language of its rules and fails for every other
(`calculator_parses_and_evaluates`). A walk of the tree of a text that is parsed as a whole from any
rule is stuck just for white space and operators (`walk_stuck_iff`).
-/

set_option autoImplicit false

namespace Packrat.Arithmetic

section

variable {grammar : Grammar} {sign : Level → Expr} {blank : Char → Bool} {text : String}

/-! ## Parses of whole texts -/

theorem HasRules.stop_eq_length (h : HasRules grammar sign) {input : Input} {pos stop : Nat}
    (hd : grammar.Derives input (.ruleRef "calculator") pos (.success stop)) :
    stop = input.length := by
  have hlast : wholeTerm =
    .sequence ([.ruleRef "ws", .ruleRef "expr", .ruleRef "ws"] ++ [.endOfInput]) := rfl
  rw [Grammar.derives_ruleRef_iff h.calculator, hlast] at hd
  exact hd.stop_eq_length rfl

theorem HasRules.generates_of_derives (h : HasRules grammar sign) {stop : Nat}
    (hd : grammar.Derives (.ofString text) (.ruleRef "calculator") 0 (.success stop)) :
    grammar.Generates (.ruleRef "calculator") text.toList := by
  rw [h.stop_eq_length hd] at hd
  exact hd.generates_whole

/-- **A text that reads as a term is parsed** to a tree of the term, given enough depth. -/
theorem Recognizes.parse_complete (h : Recognizes grammar sign blank) {term : Term}
    (hread : ReadsAs blank text.toList term) :
    ∃ tree, Term.ofTree? (.ofString text) tree = some term ∧ ∃ depth,
      ∀ (options : Options) (cache : Cache), depth ≤ options.maxDepth →
        (∀ limit ∈ options.maxInputLength?, (Input.ofString text).length ≤ limit) →
          (Parser.parseWithCache ⟨grammar, options⟩ "calculator" (.ofString text) cache).result =
            .ok (.complete tree) := by
  obtain ⟨tree, hmatch, hterm⟩ := h.accepts hread
  rw [h.stop_eq_length (hmatch.derives (Nat.zero_le _))] at hmatch
  exact ⟨tree, hterm, Parser.complete_of_matches hmatch⟩

theorem Recognizes.readsAs_unique (h : Recognizes grammar sign blank) {term other : Term}
    (hterm : ReadsAs blank text.toList term) (hother : ReadsAs blank text.toList other) :
    other = term := by
  obtain ⟨tree, hmatch, htree⟩ := h.accepts hterm
  obtain ⟨tree', hmatch', htree'⟩ := h.accepts hother
  cases (hmatch.unique hmatch').2
  exact Option.some.inj (htree'.symm.trans htree)

/-- **A text that the rules do not generate is not parsed**, given enough depth. -/
theorem HasRules.parse_failed (h : HasRules grammar sign) {null : String → Bool}
    {rank : String → Nat} (hranked : grammar.IsRanked null rank)
    (hdefined : (grammar.check "calculator").undefined = ∅)
    (hnot : ¬ grammar.Generates (.ruleRef "calculator") text.toList) :
    ∃ failure depth, ∀ (options : Options) (cache : Cache), depth ≤ options.maxDepth →
      (∀ limit ∈ options.maxInputLength?, (Input.ofString text).length ≤ limit) →
        (Parser.parseWithCache ⟨grammar, options⟩ "calculator" (.ofString text) cache).result =
          .ok (.failed failure) := by
  have hpos : 0 ≤ (Input.ofString text).length := Nat.zero_le _
  -- without left recursion there is a verdict, and two of the three are excluded
  obtain ⟨verdict, hd⟩ := hranked.decides hpos (.ruleRef "calculator")
  cases verdict with
  | success stop => exact absurd (h.generates_of_derives hd) hnot
  | failure =>
    obtain ⟨failure, hfails⟩ := hd.fails hpos
    obtain ⟨furthest?, depth, hdepth⟩ := Parser.parse_of_produces hfails
    exact ⟨_, depth, hdepth⟩
  | undefined name =>
    obtain ⟨reference, hmem, -⟩ := hd.reported
    rw [hdefined] at hmem
    exact absurd hmem (SortedSet.not_mem_empty reference)

end

/-! ## Trees of parses -/

section

variable {grammar : Grammar} {sign : Level → Expr} {blank : CharClass} {input : Input}

/-- Every walker goes on with the second child of the start rule's node: white space holds no whole
term. -/
theorem HasRules.entersAlike (h : HasRules grammar sign)
    (hblank : grammar.rule? "ws" = some ⟨"ws", .zeroOrMore (.oneIn blank)⟩) {pos stop : Nat}
    {node : Node} (hpos : pos ≤ input.length)
    (hmatch : grammar.Matches input (.ruleRef "calculator") pos stop (some node)) :
    EntersAlike node := by
  intro hlabel
  have hbody := (Grammar.derives_ruleRef_iff h.calculator).1 (hmatch.derives hpos)
  obtain ⟨nodes, hparts⟩ := hbody.parts hpos
  have hnode := (hparts.matches hpos).ruleRef h.calculator nofun
  cases (hmatch.unique hnode).2
  cases hparts with
  | cons hws hparts =>
    cases hparts with
    | cons hterm hparts =>
      obtain ⟨blanks, hblanks, hterminals⟩ := (hws.derives hpos).run_node hblank hpos
      obtain ⟨term, rfl, hlabelled⟩ := hterm.label
      cases (hws.unique hblanks).2
      refine ⟨term, .tail _ (.head _), Entry.part?_of_second hlabel rfl ?_ hlabelled⟩
      exact Node.findAll_of_terminals rfl (by decide) hterminals

theorem HasRules.all_entersAlike (h : HasRules grammar sign)
    (hblank : grammar.rule? "ws" = some ⟨"ws", .zeroOrMore (.oneIn blank)⟩) {options : Options}
    {start : String} {cache : Cache} {result : ParseResult} {tree : Node}
    (hresult : (Parser.parseWithCache ⟨grammar, options⟩ start input cache).result = .ok result)
    (ht : result.tree? = some tree) : tree.All EntersAlike := by
  intro node ho hlabel
  have hwhole := ((Parser.tree_of_parse hresult ht).2.2.1.of_occursIn ho).whole
  have hgenuine := Parser.allGenuine_of_parse hresult ht node ho "calculator" hlabel
  exact h.entersAlike hblank (hwhole.le.trans hwhole.bounded) hgenuine hlabel

/-- **The walkers agree on the trees of all parses**, whatever rule they start from. -/
theorem HasRules.walk_agrees (h : HasRules grammar sign)
    (hblank : grammar.rule? "ws" = some ⟨"ws", .zeroOrMore (.oneIn blank)⟩) {options : Options}
    {start : String} {cache : Cache} {result : ParseResult} {tree : Node}
    (hresult : (Parser.parseWithCache ⟨grammar, options⟩ start input cache).result = .ok result)
    (ht : result.tree? = some tree) (range : WordRange) (entry other : Entry) :
    walk entry range input tree = walk other range input tree :=
  Arithmetic.walk_agrees entry other tree (h.all_entersAlike hblank hresult ht)

end

/-! ## The grammar in which operators are rules -/

/-- The rules for the operators of the levels. -/
def ruleSign : Level → Expr
  | .sum => .ruleRef "add_op"
  | .product => .ruleRef "mul_op"

/-- Whether a character is a blank or a tab. -/
def isBlankOrTab (c : Char) : Bool := c = ' ' || c = '\t'

/-- An order of the rules in which they come to others before anything is consumed. -/
def ruleRank : String → Nat
  | "calculator" => 4
  | "expr" => 3
  | "term" => 2
  | "factor" => 1
  | _ => 0

theorem isRanked_ruleGrammar : ruleGrammar.IsRanked (· = "ws") ruleRank := by
  constructor <;> decide

theorem hasRules_ruleGrammar : HasRules ruleGrammar ruleSign where
  calculator := rfl
  operands level := by cases level <;> rfl
  factor := rfl

theorem rule?_ruleSign (level : Level) :
    ∃ name, ruleSign level = .ruleRef name ∧ ruleGrammar.rule? name = some ⟨name, level.expr⟩ := by
  cases level with
  | sum => exact ⟨"add_op", rfl, rfl⟩
  | product => exact ⟨"mul_op", rfl, rfl⟩

theorem rule?_ws :
    ruleGrammar.rule? "ws" = some ⟨"ws", .zeroOrMore (.oneIn (.oneOf " \t"))⟩ := rfl

theorem rule?_num : ruleGrammar.rule? "num" = some ⟨"num", .oneOrMore (.oneIn .digit)⟩ := rfl

theorem accepts_oneOf_blank (c : Char) : (CharClass.oneOf " \t").accepts c = isBlankOrTab c := by
  have hchars : " \t".toList = [' ', '\t'] := rfl
  simp [CharClass.accepts, CharClass.oneOf, CharClass.Part.accepts, isBlankOrTab, hchars]

theorem accepts_digit (c : Char) : CharClass.digit.accepts c = c.isDigit := by
  simp [CharClass.accepts, CharClass.digit, CharClass.Part.accepts]

theorem isBlank_isBlankOrTab : IsBlank isBlankOrTab where
  digit c hdigit := by
    apply Bool.eq_false_iff.2
    intro hblank
    simp only [isBlankOrTab, Bool.or_eq_true, decide_eq_true_eq] at hblank
    obtain rfl | rfl := hblank
    · exact absurd hdigit (by decide)
    · exact absurd hdigit (by decide)
  opening := rfl
  closing := rfl
  sign operator := by cases operator <;> rfl

theorem recognizes_ruleGrammar : Recognizes ruleGrammar ruleSign isBlankOrTab where
  toHasRules := hasRules_ruleGrammar
  isBlank := isBlank_isBlankOrTab
  ws input pos before after hpos hbefore hafter := by
    simp only [← accepts_oneOf_blank] at hbefore hafter
    exact .ruleRef_body rule?_ws (Grammar.derives_run hpos hbefore hafter)
  number input pos digits after hpos hne hdigits hafter := by
    simp only [← accepts_digit] at hdigits hafter
    exact .ruleRef_body rule?_num (Grammar.derives_run_one hpos hne hdigits hafter)
  sign_success input pos operator after hpos := by
    obtain ⟨name, hname, hr⟩ := rule?_ruleSign operator.level
    rw [hname]
    exact .ruleRef_body hr (Level.derives_expr operator hpos)
  sign_failure input pos level after hpos hafter := by
    obtain ⟨name, hname, hr⟩ := rule?_ruleSign level
    rw [hname]
    exact .ruleRef_body hr (level.derives_expr_failure hpos hafter)

theorem spells_ruleGrammar : Spells ruleGrammar ruleSign isBlankOrTab where
  toHasRules := hasRules_ruleGrammar
  ws text hg := by
    simp only [← accepts_oneOf_blank]
    exact Grammar.generates_run ((Grammar.generates_ruleRef_iff rule?_ws).1 hg)
  number text hg := by
    simp only [← accepts_digit]
    exact Grammar.generates_run_one ((Grammar.generates_ruleRef_iff rule?_num).1 hg)
  sign level text hg := by
    obtain ⟨name, hname, hr⟩ := rule?_ruleSign level
    rw [hname, Grammar.generates_ruleRef_iff hr] at hg
    exact Level.generates_expr hg

/-! ## The calculator -/

/-- **The calculator parses what its rules generate, and evaluates it.** Given enough depth, and an
input that is not refused for its length, a parse is complete just where the rules generate the
text, read as context-free ones, and fails everywhere else. The tree of a complete parse stands for
the only term that the text reads as, and a walk of the tree comes to what this comes to in signed
words of 64 bits: its value, or a fault just where a number does not fit in one or an operation
overflows or divides by zero. -/
theorem calculator_parses_and_evaluates (text : String) :
    ∃ depth, ∀ (options : Options) (cache : Cache), depth ≤ options.maxDepth →
      (∀ limit ∈ options.maxInputLength?, (Input.ofString text).length ≤ limit) →
      let result :=
        (Parser.parseWithCache ⟨ruleGrammar, options⟩ "calculator" (.ofString text) cache).result
      ((∃ tree, result = .ok (.complete tree)) ↔
        ruleGrammar.Generates (.ruleRef "calculator") text.toList) ∧
      (¬ ruleGrammar.Generates (.ruleRef "calculator") text.toList →
        ∃ failure, result = .ok (.failed failure)) ∧
      ∀ tree, result = .ok (.complete tree) → ∃ term,
        Term.ofTree? (.ofString text) tree = some term ∧
        walk .firstFound .signed64 (.ofString text) tree = .ofTerm .signed64 term ∧
        (∀ other, ReadsAs isBlankOrTab text.toList other ↔ other = term) ∧
        (∀ value : Int64, (term.evaluate .signed64).toOption = some value.toInt ↔
          term.Computes value) ∧
        ((term.evaluate .signed64).toOption = none ↔ term.Fails) := by
  by_cases hg : ruleGrammar.Generates (.ruleRef "calculator") text.toList
  · obtain ⟨term, hread⟩ := spells_ruleGrammar.readsAs hg
    obtain ⟨tree, hterm, depth, hcomplete⟩ := recognizes_ruleGrammar.parse_complete hread
    refine ⟨depth, fun options cache hdepth hlimit => ?_⟩
    have hresult := hcomplete options cache hdepth hlimit
    refine ⟨iff_of_true ⟨tree, hresult⟩ hg, fun hnot => absurd hg hnot, fun other hother => ?_⟩
    -- a run has one result, so the tree is the one of the reading
    cases hresult.symm.trans hother
    have hunique (other : Term) : ReadsAs isBlankOrTab text.toList other ↔ other = term := by
      constructor
      · exact recognizes_ruleGrammar.readsAs_unique hread
      · rintro rfl
        exact hread
    have hwalk := walked .firstFound .signed64 _ tree term
      (hasRules_ruleGrammar.all_entersAlike rule?_ws hresult rfl) hterm
    exact ⟨term, hterm, hwalk, hunique, fun value => Term.evaluate_eq_some_iff,
      Term.evaluate_eq_none_iff⟩
  · have hdefined : (ruleGrammar.check "calculator").undefined = ∅ := by decide
    obtain ⟨failure, depth, hfailed⟩ :=
      hasRules_ruleGrammar.parse_failed isRanked_ruleGrammar hdefined hg
    refine ⟨depth, fun options cache hdepth hlimit => ?_⟩
    have hresult := hfailed options cache hdepth hlimit
    have hnot (tree : Node) : _ ≠ Except.ok (ParseResult.complete tree) := fun htree =>
      nomatch hresult.symm.trans htree
    exact ⟨iff_of_false (fun ⟨tree, htree⟩ => hnot tree htree) hg, fun _ => ⟨failure, hresult⟩,
      fun tree htree => absurd htree (hnot tree)⟩

/-- The value of a term with a remainder in it, and the failure of a text without a term. -/
theorem calculator_parses_and_evaluates_remainder :
    let result (depth : Nat) (text : String) :=
      (Parser.parseWithCache ⟨ruleGrammar, { maxDepth := depth }⟩ "calculator" (.ofString text)
        {}).result
    (∃ depth tree term, result depth " 10 % 4 - 1 " = .ok (.complete tree) ∧
      Term.ofTree? (.ofString " 10 % 4 - 1 ") tree = some term ∧
      walk .firstFound .signed64 (.ofString " 10 % 4 - 1 ") tree = .ofTerm .signed64 term ∧
      (term.evaluate .signed64).toOption = some 1) ∧
    ∃ depth failure, result depth "" = .ok (.failed failure) := by
  intro result
  constructor
  · let remainder : Term := .operation .mod 3 (.number "10") (.number "4")
    let difference : Term := .operation .sub 7 remainder (.number "1")
    have digits {chars : List Char} (h : chars.all Char.isDigit = true) :
        ∀ c ∈ chars, c.isDigit = true := List.all_eq_true.1 h
    have hblank : ∀ c ∈ [' '], isBlankOrTab c = true := List.forall_mem_singleton.2 rfl
    have hten : Reads isBlankOrTab .factor 1 "10".toList _ := .number nofun (digits rfl)
    have hfour : Reads isBlankOrTab .factor 6 "4".toList _ := .number nofun (digits rfl)
    have hone : Reads isBlankOrTab .factor 10 "1".toList _ := .number nofun (digits rfl)
    have hremainder : Reads isBlankOrTab (.operands .product) 1 "10 % 4".toList remainder :=
      @Reads.operation _ _ .mod rfl _ _ _ _ _ _ _ (.operand hten) hblank hblank hfour
    have hdifference : Reads isBlankOrTab (.operands .sum) 1 "10 % 4 - 1".toList difference :=
      @Reads.operation _ _ .sub rfl _ _ _ _ _ _ _ (.operand hremainder) hblank hblank
        (.operand hone)
    have hread : ReadsAs isBlankOrTab " 10 % 4 - 1 ".toList difference :=
      ⟨[' '], _, [' '], hblank, hblank, hdifference, rfl⟩
    have htwo : remainder.Computes 2 :=
      .operation (a := 10) (b := 4) (.number rfl) (.number rfl) rfl
    have hcomputes : difference.Computes 1 := .operation (b := 1) htwo (.number rfl) rfl
    obtain ⟨depth, hcalculator⟩ := calculator_parses_and_evaluates " 10 % 4 - 1 "
    obtain ⟨tree, -, depth', hcomplete⟩ := recognizes_ruleGrammar.parse_complete hread
    let options : Options := { maxDepth := max depth depth' }
    have hresult := hcomplete options {} (Nat.le_max_right _ _) nofun
    obtain ⟨-, -, hvalue⟩ := hcalculator options {} (Nat.le_max_left _ _) nofun
    obtain ⟨term, hterm, hwalk, hunique, hvalue, -⟩ := hvalue tree hresult
    obtain rfl := (hunique difference).1 hread
    exact ⟨_, tree, difference, hresult, hterm, hwalk, (hvalue 1).2 hcomputes⟩
  · obtain ⟨depth, hcalculator⟩ := calculator_parses_and_evaluates ""
    obtain ⟨-, hfailed, -⟩ := hcalculator { maxDepth := depth } {} (Nat.le_refl _) nofun
    obtain ⟨failure, hresult⟩ := hfailed fun hg => by
      obtain ⟨term, before, inner, after, -, -, hread, htext⟩ := spells_ruleGrammar.readsAs hg
      obtain ⟨c, rest, rfl, -⟩ := hread.head
      simp at htext
    exact ⟨depth, failure, hresult⟩

/-! ## Trees that are walked -/

theorem Spells.readable_phrase {grammar : Grammar} {sign : Level → Expr} {blank : Char → Bool}
    (h : Spells grammar sign blank) {text : List Char} (phrase : Phrase)
    (hg : grammar.Generates (.ruleRef phrase.name) text) : Readable blank phrase text := by
  have factor (shorter : List Char) (hg : grammar.Generates (.ruleRef "factor") shorter) :
      Readable blank .factor shorter := h.readable_factor (fun _ _ hg => h.readable hg) hg
  cases phrase with
  | factor => exact factor text hg
  | operands level =>
    cases level with
    | sum => exact h.readable hg
    | product => exact h.readable_operands (fun shorter _ hg => factor shorter hg) hg

theorem readsAs_of_complete {options : Options} {text : String} {cache : Cache} {tree : Node}
    (h : (Parser.parseWithCache ⟨ruleGrammar, options⟩ "calculator" (.ofString text) cache).result =
      .ok (.complete tree)) : ∃ term, ReadsAs isBlankOrTab text.toList term := by
  have hmatch := Parser.matches_of_complete h
  exact spells_ruleGrammar.readsAs (hmatch.derives (Nat.zero_le _)).generates_whole

theorem Recognizes.ofTree?_of_complete {grammar : Grammar} {sign : Level → Expr}
    {blank : Char → Bool} (hr : Recognizes grammar sign blank) {options : Options} {text : String}
    {cache : Cache} {tree : Node} {term : Term} (hread : ReadsAs blank text.toList term)
    (h : (Parser.parseWithCache ⟨grammar, options⟩ "calculator" (.ofString text) cache).result =
      .ok (.complete tree)) : Term.ofTree? (.ofString text) tree = some term := by
  obtain ⟨node, hnode, hterm⟩ := hr.accepts hread
  cases ((Parser.matches_of_complete h).unique (Input.length_ofString text ▸ hnode)).2
  exact hterm

/-- **Every complete tree of a rule that stands for a term holds one.** -/
theorem exists_term_of_complete {options : Options} {start text : String} {cache : Cache}
    {tree : Node} (hstart : start ∈ termRules)
    (h : (Parser.parseWithCache ⟨ruleGrammar, options⟩ start (.ofString text) cache).result =
      .ok (.complete tree)) : ∃ term, Term.ofTree? (.ofString text) tree = some term := by
  obtain ⟨hlabel, -, hlossless, -⟩ := Parser.tree_of_parse h rfl
  have hmatch := Parser.matches_of_complete h
  have hgenerates := (hmatch.derives (Nat.zero_le _)).generates_whole
  have phrase (phrase : Phrase) (hphrase : start = phrase.name) :
      ∃ term, Term.ofTree? (.ofString text) tree = some term := by
    subst hphrase
    obtain ⟨term, hread⟩ := spells_ruleGrammar.readable_phrase phrase hgenerates 0
    have hpos := Input.Remains.start text
    rw [← List.append_nil text.toList] at hpos
    have hends : Ends isBlankOrTab phrase [] :=
      .blanks isBlank_isBlankOrTab (List.forall_mem_nil _) phrase
    obtain ⟨node, hnode, hterm⟩ :=
      recognizes_ruleGrammar.accepted (recognizes_ruleGrammar.recognized hread) _ [] hpos hends
    cases (hmatch.unique hnode).2
    exact ⟨term, hterm⟩
  simp only [termRules, List.mem_cons, List.not_mem_nil, or_false] at hstart
  rcases hstart with rfl | rfl | rfl | rfl | rfl
  · obtain ⟨term, hread⟩ := readsAs_of_complete h
    exact ⟨term, recognizes_ruleGrammar.ofTree?_of_complete hread h⟩
  · exact phrase (.operands .sum) rfl
  · exact phrase (.operands .product) rfl
  · exact phrase .factor rfl
  · exact ⟨_, Term.ofTree?_digits hlabel (hlossless.text?_eq _)⟩

theorem mem_termRules_iff {start : String} (h : start ∈ ruleGrammar.names) :
    start ∈ termRules ↔ start ∉ ["ws", "add_op", "mul_op"] := by
  revert start
  decide

theorem mem_names_of_complete {options : Options} {start text : String} {cache : Cache}
    {tree : Node}
    (h : (Parser.parseWithCache ⟨ruleGrammar, options⟩ start (.ofString text) cache).result =
      .ok (.complete tree)) : start ∈ ruleGrammar.names := by
  cases (Parser.matches_of_complete h).derives (Nat.zero_le _) with
  | ruleRef_body hr _ => exact Grammar.mem_names_of_rule? hr

/-- **The walk is never stuck on a tree of a rule that stands for a term.** Where a text is matched
as a whole, with any options, the walk of the tree, whichever way it comes to the whole term, is
stuck just if the start rule is one for white space or operators. For all other start rules the tree
holds a term and the walk comes to what the term comes to, a value or a fault. -/
theorem walk_stuck_iff {options : Options} {start text : String} {cache : Cache} {tree : Node}
    (h : (Parser.parseWithCache ⟨ruleGrammar, options⟩ start (.ofString text) cache).result =
      .ok (.complete tree)) (entry : Entry) (range : WordRange) :
    (walk entry range (.ofString text) tree ≠ .stuck ↔
      start ∈ ["calculator", "expr", "term", "factor", "num"]) ∧
    (walk entry range (.ofString text) tree = .stuck ↔ start ∈ ["ws", "add_op", "mul_op"]) ∧
    (walk entry range (.ofString text) tree = .stuck ↔ Term.ofTree? (.ofString text) tree = none) ∧
    ∀ term, Term.ofTree? (.ofString text) tree = some term →
      walk entry range (.ofString text) tree = .ofTerm range term := by
  have hlabel := (Parser.tree_of_parse h rfl).1
  have halike := hasRules_ruleGrammar.all_entersAlike rule?_ws h rfl
  have hwalked := walked entry range (.ofString text) tree
  have hstuck : walk entry range (.ofString text) tree = .stuck ↔ start ∉ termRules := by
    constructor
    · intro hstuck hstart
      obtain ⟨term, hterm⟩ := exists_term_of_complete hstart h
      rw [hwalked term halike hterm] at hstuck
      exact Evaluation.ofTerm_ne_stuck _ _ hstuck
    · intro hstart
      exact walk_eq_stuck hlabel hstart
  refine ⟨?_, ?_, ?_, fun term => hwalked term halike⟩
  · rw [Ne, hstuck, not_not]
    rfl
  · rw [hstuck, mem_termRules_iff (mem_names_of_complete h), not_not]
  · rw [hstuck]
    constructor
    · exact Term.ofTree?_eq_none hlabel
    · intro hnone hstart
      obtain ⟨term, hterm⟩ := exists_term_of_complete hstart h
      rw [hnone] at hterm
      cases hterm

theorem readsAs_product : ReadsAs isBlankOrTab "6*7".toList
    (.operation .mul 1 (.number "6") (.number "7")) := by
  have hsix : Reads isBlankOrTab .factor 0 "6".toList _ := .number nofun (List.all_eq_true.1 rfl)
  have hseven : Reads isBlankOrTab .factor 2 "7".toList _ := .number nofun (List.all_eq_true.1 rfl)
  have hproduct : Reads isBlankOrTab (.operands .product) 0 "6*7".toList
      (.operation .mul 1 (.number "6") (.number "7")) :=
    @Reads.operation _ _ .mul rfl _ _ [] [] _ _ _ (.operand hsix) nofun nofun hseven
  exact ⟨[], _, [], nofun, nofun, .operand hproduct, rfl⟩

/-- A product as a whole, and an operator by itself. -/
theorem walk_stuck_iff_samples :
    (∃ depth tree, (Parser.parseWithCache ⟨ruleGrammar, { maxDepth := depth }⟩ "calculator"
        (.ofString "6*7") {}).result = .ok (.complete tree) ∧
      walk .firstFound .signed64 (.ofString "6*7") tree = .value 42) ∧
    ∃ tree, (Parser.parseWithCache ⟨ruleGrammar, {}⟩ "mul_op" (.ofString "*") {}).result =
        .ok (.complete tree) ∧
      walk .firstFound .signed64 (.ofString "*") tree = .stuck := by
  constructor
  · have hread := readsAs_product
    obtain ⟨tree, hterm, depth, hcomplete⟩ := recognizes_ruleGrammar.parse_complete hread
    have hresult := hcomplete { maxDepth := depth } {} (Nat.le_refl _) nofun
    exact ⟨depth, tree, hresult, (walk_stuck_iff hresult .firstFound .signed64).2.2.2 _ hterm⟩
  · let options : Options := {}
    refine ⟨_, rfl, (@walk_stuck_iff options "mul_op" "*" {} _ rfl .firstFound .signed64).2.1.2 ?_⟩
    decide

end Packrat.Arithmetic
