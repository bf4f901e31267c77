import Packrat.Proofs.Arithmetic.Tokens
import Packrat.Proofs.FindAll
import Packrat.Proofs.NumberPattern

/-!
# Nested lists

Numbers and lists of such in brackets, separated by commas, with white space after an opening
bracket, before a closing one and around commas (`Renders`). The grammar for them matches every
rendering of a value as a whole, and what is found in the tree are the numbers of the value in their
order (`Renders.recognized`). What the grammar generates is a rendering (`renders_of_generates`), so
there is nothing else that it parses (`nestedLists_round_trip`).
-/

set_option autoImplicit false

namespace Packrat.Sample

/-! ## Values -/

/-- The text of a number. -/
structure Numeral where
  text : String
  isNumber : IsNumber text.toList

/-- A number or a list of values. -/
inductive Value
  | number (numeral : Numeral)
  | list (values : List Value)

namespace Value

mutual

/-- The texts of the numbers in the value, from the left to the right. -/
def numbers : Value → List String
  | number numeral => [numeral.text]
  | list values => numbersOf values

def numbersOf : List Value → List String
  | [] => []
  | value :: values => numbers value ++ numbersOf values

end

def isList : Value → Bool
  | number _ => false
  | list _ => true

/-- What is found in the tree is what the value holds: its numbers, from the left to the right, and
one list if it is a list, which is not looked into for others. -/
structure FoundIn (value : Value) (input : Input) (tree : Node) : Prop where
  numbers : (tree.findAll "number").map (·.text? input) = value.numbers.map some
  lists : (tree.findAll "list").length = if value.isList then 1 else 0

end Value

/-! ## Renderings -/

/-- What is rendered: a value, or the values that follow another one in a list. -/
inductive Phrase
  | value (value : Value)
  | following (values : List Value)

/-- The text is a rendering of the phrase. Each value that follows another one has a comma before
it. -/
inductive Renders : Phrase → List Char → Prop
  | number (numeral : Numeral) : Renders (.value (.number numeral)) numeral.text.toList
  | empty {blank : List Char} (hblank : ∀ c ∈ blank, Unicode.isWhiteSpace c = true) :
      Renders (.value (.list [])) ('[' :: (blank ++ [']']))
  | list {first : Value} {values : List Value} {before text rest after : List Char}
      (hbefore : ∀ c ∈ before, Unicode.isWhiteSpace c = true)
      (hafter : ∀ c ∈ after, Unicode.isWhiteSpace c = true)
      (hfirst : Renders (.value first) text) (hrest : Renders (.following values) rest) :
      Renders (.value (.list (first :: values)))
        ('[' :: (before ++ (text ++ rest ++ (after ++ [']']))))
  | nil : Renders (.following []) []
  | cons {value : Value} {values : List Value} {before after text rest : List Char}
      (hbefore : ∀ c ∈ before, Unicode.isWhiteSpace c = true)
      (hafter : ∀ c ∈ after, Unicode.isWhiteSpace c = true)
      (hvalue : Renders (.value value) text) (hrest : Renders (.following values) rest) :
      Renders (.following (value :: values)) (before ++ ',' :: (after ++ (text ++ rest)))

theorem Renders.head_not_blank {value : Value} {text after : List Char}
    (h : Renders (.value value) text) {c : Char} (hc : (text ++ after).head? = some c) :
    Unicode.isWhiteSpace c = false := by
  cases h with
  | number numeral =>
    obtain ⟨first, rest, htext, hdigit | rfl⟩ := numeral.isNumber.head
    · rw [htext] at hc
      cases hc
      exact isWhiteSpace_of_isDigit hdigit
    · rw [htext] at hc
      cases hc
      rfl
  | empty => cases hc; rfl
  | list => cases hc; rfl

theorem head_not_digit {before after : List Char}
    (hbefore : ∀ c ∈ before, Unicode.isWhiteSpace c = true) {c : Char} (hc : c.isDigit = false)
    {d : Char} (hd : (before ++ c :: after).head? = some d) : d.isDigit = false := by
  cases before with
  | nil =>
    cases hd
    exact hc
  | cons first before =>
    cases hd
    cases hdigit : d.isDigit with
    | false => rfl
    | true =>
      have hblank := hbefore d (.head _)
      rw [isWhiteSpace_of_isDigit hdigit] at hblank
      cases hblank

theorem Renders.following_not_digit {values : List Value} {text after : List Char}
    (h : Renders (.following values) text)
    (hafter : ∀ c, after.head? = some c → c.isDigit = false) {c : Char}
    (hc : (text ++ after).head? = some c) : c.isDigit = false := by
  cases h with
  | nil => exact hafter c hc
  | cons hbefore =>
    rw [List.append_assoc] at hc
    exact head_not_digit hbefore rfl hc

/-! ## The grammar -/

/-- A value that follows another one. -/
def separated : Expr := .sequence [.ruleRef "ws", .literal ",", .ruleRef "ws", .ruleRef "value"]

/-- The values of a list that has some. -/
def someValues : Expr := .sequence [.ruleRef "value", .zeroOrMore separated]

theorem rule?_value : nestedLists.rule? "value" =
    some ⟨"value", .choice [.ruleRef "number", .ruleRef "list"]⟩ := rfl

theorem rule?_list : nestedLists.rule? "list" = some ⟨"list", .sequence
    [.literal "[", .ruleRef "ws", .optional someValues, .ruleRef "ws", .literal "]"]⟩ := rfl

theorem rule?_number : nestedLists.rule? "number" = some ⟨"number", .regex signedNumber⟩ := rfl

theorem rule?_ws : nestedLists.rule? "ws" = some ⟨"ws", .zeroOrMore (.oneIn .whitespace)⟩ := rfl

/-! ## Renderings are recognized -/

section

variable {input : Input} {pos : Nat} {before text rest after : List Char}

/-- White space is matched as far as it goes, and no number is found in it. -/
theorem blanks_node (hpos : input.Remains pos (before ++ after))
    (hbefore : ∀ c ∈ before, Unicode.isWhiteSpace c = true)
    (hafter : ∀ c, after.head? = some c → Unicode.isWhiteSpace c = false) :
    ∃ node, nestedLists.Matches input (.ruleRef "ws") pos (pos + before.length) (some node) ∧
      node.findAll "number" = [] := by
  simp only [← Grammar.accepts_whitespace] at hbefore hafter
  have hderives : nestedLists.Derives input (.ruleRef "ws") pos (.success (pos + before.length)) :=
    .ruleRef_body rule?_ws (Grammar.derives_run hpos hbefore hafter)
  obtain ⟨nodes, hnode, hterminals⟩ := hderives.run_node rule?_ws hpos.le
  exact ⟨_, hnode, Node.findAll_of_terminals rfl (by decide) hterminals⟩

theorem char_node {c : Char} (hpos : input.Remains pos (c :: after)) :
    ∃ node, nestedLists.Matches input (Grammar.charLiteral c) pos (pos + 1) (some node) ∧
      node.findAll "number" = [] := by
  have hprefix : (String.ofList [c]).toList <+: input.rest pos := by
    rw [hpos.rest, String.toList_ofList]
    exact ⟨after, rfl⟩
  have hnode := @Grammar.matches_literal nestedLists input pos _ hprefix
  simp only [String.toList_ofList] at hnode
  exact ⟨_, hnode, rfl⟩

theorem number_failure (hpos : input.Remains pos text)
    (h : ∀ c, text.head? = some c → c.isDigit = false ∧ c ≠ '-') :
    nestedLists.Derives input (.ruleRef "number") pos .failure := by
  refine .ruleRef_body rule?_number (.regex_failure ?_)
  rw [hpos.rest]
  exact matchLength?_eq_none h

theorem separated_failure (hpos : input.Remains pos (after ++ ']' :: rest))
    (hafter : ∀ c ∈ after, Unicode.isWhiteSpace c = true) :
    nestedLists.Derives input separated pos .failure := by
  obtain ⟨blanks, hblanks, -⟩ := blanks_node hpos hafter fun c hc => by
    cases hc
    rfl
  have hcomma : nestedLists.Derives input (Grammar.charLiteral ',') (pos + after.length) .failure :=
    Grammar.derives_charLiteral_failure hpos.append nofun
  exact .sequence_cons (hblanks.derives hpos.le) (.sequence_failure hcomma)

theorem someValues_failure (hpos : input.Remains pos (']' :: rest)) :
    nestedLists.Derives input someValues pos .failure := by
  have hnumber := number_failure hpos fun c hc => by
    cases hc
    decide
  have hopening : nestedLists.Derives input (Grammar.charLiteral '[') pos .failure :=
    Grammar.derives_charLiteral_failure hpos nofun
  have hlist : nestedLists.Derives input (.ruleRef "list") pos .failure :=
    .ruleRef_body rule?_list (.sequence_failure hopening)
  exact .sequence_failure
    (.ruleRef_body rule?_value (.choice_failure hnumber (.choice_failure hlist .choice_nil)))

theorem number_node (numeral : Numeral) (hpos : input.Remains pos (numeral.text.toList ++ after))
    (hafter : ∀ c, after.head? = some c → c.isDigit = false) :
    ∃ node, nestedLists.Matches input (.ruleRef "value") pos
        (pos + numeral.text.toList.length) (some node) ∧
      (Value.number numeral).FoundIn input node := by
  have hlength : signedNumber.matchLength? (input.rest pos) = some numeral.text.toList.length := by
    rw [hpos.rest]
    exact numeral.isNumber.matchLength? hafter
  have hnumber := (Grammar.matches_regex hlength).ruleRef rule?_number nofun
  have hbody : Expr.choice [.ruleRef "number", .ruleRef "list"] =
      .choice ([] ++ .ruleRef "number" :: [.ruleRef "list"]) := rfl
  refine ⟨_, hnumber.alternative rule?_value hbody nofun hpos.le, ?_, ?_⟩
  · rw [Node.findAll_ruleNode (by decide), Option.toList_some, Node.findAllIn_cons,
      Node.findAll_of_label rfl]
    refine congrArg (· :: []) (hpos.slice?.trans ?_)
    rw [String.ofList_toList]
  · rw [Node.findAll_ruleNode (by decide), Option.toList_some, Node.findAllIn_cons,
      Node.findAll_ruleNode (by decide)]
    rfl

/-- **Brackets are matched** by the second alternative, with what is matched between them. -/
theorem list_node {inner : List Char} {node? : Option Node}
    (hpos : input.Remains pos ('[' :: (before ++ (inner ++ (after ++ ']' :: rest)))))
    (hbefore : ∀ c ∈ before, Unicode.isWhiteSpace c = true)
    (hafter : ∀ c ∈ after, Unicode.isWhiteSpace c = true)
    (hhead : ∀ c, (inner ++ (after ++ ']' :: rest)).head? = some c → Unicode.isWhiteSpace c = false)
    (hinner : nestedLists.Matches input (.optional someValues) (pos + 1 + before.length)
      (pos + 1 + before.length + inner.length) node?) :
    ∃ node, nestedLists.Matches input (.ruleRef "value") pos
        (pos + ('[' :: (before ++ (inner ++ (after ++ [']'])))).length) (some node) ∧
      node.findAll "number" = Node.findAllIn "number" node?.toList ∧
      (node.findAll "list").length = 1 := by
  have hpos₁ := hpos.tail
  have hpos₂ := hpos₁.append.append
  obtain ⟨opening, hopening, hnone⟩ := char_node hpos
  obtain ⟨blanks, hblanks, hnone₁⟩ := blanks_node hpos₁ hbefore hhead
  obtain ⟨blanks', hblanks', hnone₂⟩ := blanks_node hpos₂ hafter fun c hc => by
    cases hc
    rfl
  obtain ⟨closing, hclosing, hnone₃⟩ := char_node hpos₂.append
  have hparts : nestedLists.Parts input
      [.literal "[", .ruleRef "ws", .optional someValues, .ruleRef "ws", .literal "]"] pos _ _ :=
    .cons hopening (.cons hblanks (.cons hinner (.cons hblanks' (.cons hclosing .nil))))
  have hlist := (hparts.matches hpos.le).ruleRef rule?_list nofun
  have hbody : Expr.choice [.ruleRef "number", .ruleRef "list"] =
      .choice ([.ruleRef "number"] ++ .ruleRef "list" :: []) := rfl
  -- the first alternative of a value fails at the bracket
  have hnumber := number_failure hpos fun c hc => by
    cases hc
    decide
  have hvalue := hlist.alternative rule?_value hbody (List.forall_mem_singleton.2 hnumber) hpos.le
  have hstop : pos + 1 + before.length + inner.length + after.length + 1 =
      pos + ('[' :: (before ++ (inner ++ (after ++ [']'])))).length := by
    simp only [List.length_cons, List.length_append, List.length_nil]
    omega
  rw [hstop] at hvalue
  have hsequence : Label.sequence ≠ .rule "number" := nofun
  refine ⟨_, hvalue, ?_, ?_⟩
  · rw [Node.findAll_ruleNode (by decide), Option.toList_some, Node.findAllIn_cons,
      Node.findAll_ruleNode (by decide), Option.toList_some, Node.findAllIn_cons,
      Node.findAll_of_ne hsequence]
    simp only [Node.findAllIn_append, Option.toList_some, Node.findAllIn_cons, Node.findAllIn_nil,
      hnone, hnone₁, hnone₂, hnone₃, List.nil_append, List.append_nil]
  · rw [Node.findAll_ruleNode (by decide), Option.toList_some, Node.findAllIn_cons,
      Node.findAll_of_label rfl]
    rfl

end

/-- Where the text stands and no digit follows, the rule of a value matches it, and values that
follow are rounds of the repetition. What is found in the trees is what the phrase holds. -/
def Recognized (text : List Char) : Phrase → Prop
  | .value value => ∀ (input : Input) (pos : Nat) (after : List Char),
    input.Remains pos (text ++ after) → (∀ c, after.head? = some c → c.isDigit = false) →
      ∃ node, nestedLists.Matches input (.ruleRef "value") pos (pos + text.length) (some node) ∧
        value.FoundIn input node
  | .following values => ∀ (input : Input) (pos : Nat) (after : List Char),
    input.Remains pos (text ++ after) → (∀ c, after.head? = some c → c.isDigit = false) →
      ∃ nodes, nestedLists.Rounds input separated pos (pos + text.length) nodes ∧
        (Node.findAllIn "number" nodes).map (·.text? input) = (Value.numbersOf values).map some

section

variable {value : Value} {values : List Value} {before text rest after : List Char}

theorem recognized_empty (hbefore : ∀ c ∈ before, Unicode.isWhiteSpace c = true) :
    Recognized ('[' :: (before ++ [']'])) (.value (.list [])) := by
  intro input pos more hpos _
  rw [List.cons_append, List.append_assoc] at hpos
  have hnone := Grammar.matches_optional_none (someValues_failure hpos.tail.append)
    hpos.tail.append.le
  obtain ⟨node, hnode, hnumbers, hlists⟩ :=
    @list_node input pos before more [] [] none hpos hbefore nofun (fun c hc => by cases hc; rfl)
      hnone
  exact ⟨node, hnode, by rw [hnumbers]; rfl, hlists⟩

theorem recognized_list (hbefore : ∀ c ∈ before, Unicode.isWhiteSpace c = true)
    (hafter : ∀ c ∈ after, Unicode.isWhiteSpace c = true) (hfirst : Renders (.value value) text)
    (hrest : Renders (.following values) rest) (ihfirst : Recognized text (.value value))
    (ihrest : Recognized rest (.following values)) :
    Recognized ('[' :: (before ++ (text ++ rest ++ (after ++ [']']))))
      (.value (.list (value :: values))) := by
  intro input pos more hpos _
  simp only [List.cons_append, List.append_assoc, List.nil_append] at hpos
  have hpos₁ := hpos.tail.append
  have hpos₂ := hpos₁.append
  have hclosing {c : Char} (hc : (after ++ ']' :: more).head? = some c) : c.isDigit = false :=
    head_not_digit hafter rfl hc
  obtain ⟨first, hmatch, hfound⟩ := ihfirst input _ _ hpos₁ fun c hc =>
    hrest.following_not_digit (fun d hd => hclosing hd) hc
  obtain ⟨nodes, hrounds, hnumbers⟩ := ihrest input _ _ hpos₂ fun c hc => hclosing hc
  have hrepetition := hrounds.matches hpos₂.le (separated_failure hpos₂.append hafter)
  have hparts : nestedLists.Parts input [.ruleRef "value", .zeroOrMore separated] _ _ _ :=
    .cons hmatch (.cons hrepetition .nil)
  have hinner := (hparts.matches hpos₁.le).optional
  rw [Nat.add_assoc _ text.length, ← List.length_append] at hinner
  rw [← List.append_assoc text] at hpos
  obtain ⟨node, hnode, hfind, hlists⟩ := list_node hpos hbefore hafter (fun c hc => by
    rw [List.append_assoc] at hc
    exact hfirst.head_not_blank hc) hinner
  refine ⟨node, hnode, ?_, hlists⟩
  have hsequence : Label.sequence ≠ .rule "number" := nofun
  have hrepeated : Label.repetition ≠ .rule "number" := nofun
  rw [hfind, Option.toList_some, Node.findAllIn_cons, Node.findAll_of_ne hsequence]
  simp only [Option.toList_some, List.cons_append, List.nil_append, List.append_nil,
    Node.findAllIn_cons, Node.findAllIn_nil, List.map_append, hfound.numbers]
  rw [Node.findAll_of_ne hrepeated, hnumbers, Value.numbers, Value.numbersOf, List.map_append]

/-- **One more value is one more round.** -/
theorem recognized_cons (hbefore : ∀ c ∈ before, Unicode.isWhiteSpace c = true)
    (hafter : ∀ c ∈ after, Unicode.isWhiteSpace c = true) (hvalue : Renders (.value value) text)
    (hrest : Renders (.following values) rest) (ihvalue : Recognized text (.value value))
    (ihrest : Recognized rest (.following values)) :
    Recognized (before ++ ',' :: (after ++ (text ++ rest))) (.following (value :: values)) := by
  intro input pos more hpos hmore
  simp only [List.append_assoc, List.cons_append] at hpos
  have hpos₁ := hpos.append
  have hpos₂ := hpos₁.tail
  have hpos₃ := hpos₂.append
  obtain ⟨blanks, hblanks, hnone⟩ := blanks_node hpos hbefore fun c hc => by
    cases hc
    rfl
  obtain ⟨comma, hcomma, hnone₁⟩ := char_node hpos₁
  obtain ⟨blanks', hblanks', hnone₂⟩ := blanks_node hpos₂ hafter fun c hc =>
    hvalue.head_not_blank hc
  obtain ⟨node, hnode, hfound⟩ := ihvalue input _ _ hpos₃ fun c hc =>
    hrest.following_not_digit hmore hc
  obtain ⟨nodes, hrounds, hnumbers⟩ := ihrest input _ _ hpos₃.append hmore
  have hparts : nestedLists.Parts input
      [.ruleRef "ws", .literal ",", .ruleRef "ws", .ruleRef "value"] _ _ _ :=
    .cons hblanks (.cons hcomma (.cons hblanks' (.cons hnode .nil)))
  have hstop : pos + before.length + 1 + after.length + text.length + rest.length =
      pos + (before ++ ',' :: (after ++ (text ++ rest))).length := by
    simp only [List.length_append, List.length_cons]
    omega
  rw [hstop] at hrounds
  refine ⟨_, .cons (hparts.matches hpos.le) (by omega) hrounds, ?_⟩
  have hsequence : Label.sequence ≠ .rule "number" := nofun
  rw [Node.findAllIn_append, List.map_append, hnumbers, Option.toList_some, Node.findAllIn_cons,
    Node.findAll_of_ne hsequence]
  simp only [Node.findAllIn_append, Option.toList_some, Node.findAllIn_cons, Node.findAllIn_nil,
    hnone, hnone₁, hnone₂, List.nil_append, List.append_nil, hfound.numbers]
  rw [Value.numbersOf, List.map_append]

end

/-- **Every rendering is recognized**, by induction on it. -/
theorem Renders.recognized {phrase : Phrase} {text : List Char} (h : Renders phrase text) :
    Recognized text phrase := by
  induction h with
  | number numeral => exact fun _ _ _ hpos hafter => number_node numeral hpos hafter
  | empty hblank => exact recognized_empty hblank
  | list hbefore hafter hfirst hrest ihfirst ihrest =>
    exact recognized_list hbefore hafter hfirst hrest ihfirst ihrest
  | nil => exact fun _ _ _ _ _ => ⟨[], .nil, rfl⟩
  | cons hbefore hafter hvalue hrest ihvalue ihrest =>
    exact recognized_cons hbefore hafter hvalue hrest ihvalue ihrest

/-! ## What is generated is a rendering -/

theorem blanks_of_generates {text : List Char} (h : nestedLists.Generates (.ruleRef "ws") text) :
    ∀ c ∈ text, Unicode.isWhiteSpace c = true := by
  rw [Grammar.generates_ruleRef_iff rule?_ws] at h
  simpa only [Grammar.accepts_whitespace] using Grammar.generates_run h

theorem isNumber_of_generates {text : List Char}
    (h : nestedLists.Generates (.ruleRef "number") text) : IsNumber text := by
  rw [Grammar.generates_ruleRef_iff rule?_number] at h
  cases h with
  | regex hlength => exact isNumber_of_matchLength? hlength

/-- Rounds of the repetition are values that follow, if shorter texts are those of values. -/
theorem following_of_generates {bound : Nat}
    (inner : ∀ shorter : List Char, shorter.length < bound →
      nestedLists.Generates (.ruleRef "value") shorter → ∃ value, Renders (.value value) shorter)
    {text : List Char} (hbound : text.length < bound)
    (hg : nestedLists.Generates (.zeroOrMore separated) text) :
    ∃ values, Renders (.following values) text := by
  generalize hexpr : Expr.zeroOrMore separated = expr at hg
  induction hg with
  | zeroOrMore_nil => exact ⟨[], .nil⟩
  | zeroOrMore_cons round _ _ ih =>
    cases hexpr
    simp only [separated, Grammar.generates_sequence_cons_iff, Grammar.generates_sequence_nil_iff,
      Grammar.generates_literal_iff] at round
    obtain ⟨before, _, hbefore, ⟨_, _, rfl, ⟨after, _, hafter, ⟨shorter, _, hshorter, rfl, rfl⟩,
      rfl⟩, rfl⟩, rfl⟩ := round
    simp only [List.length_append] at hbound
    -- the value is shorter than the round by the comma
    obtain ⟨value, hvalue⟩ := inner shorter (by omega) hshorter
    obtain ⟨values, hvalues⟩ := ih (by omega) rfl
    have hcons := Renders.cons (blanks_of_generates hbefore) (blanks_of_generates hafter) hvalue
      hvalues
    exact ⟨value :: values, by simpa using hcons⟩
  | _ => cases hexpr

theorem list_of_generates {text : List Char}
    (inner : ∀ shorter : List Char, shorter.length < text.length →
      nestedLists.Generates (.ruleRef "value") shorter → ∃ value, Renders (.value value) shorter)
    (hg : nestedLists.Generates (.ruleRef "list") text) :
    ∃ value, Renders (.value value) text := by
  rw [Grammar.generates_ruleRef_iff rule?_list] at hg
  simp only [Grammar.generates_sequence_cons_iff, Grammar.generates_sequence_nil_iff,
    Grammar.generates_literal_iff] at hg
  obtain ⟨_, _, rfl, ⟨before, _, hbefore, ⟨middle, _, hmiddle, ⟨after, _, hafter,
    ⟨_, _, rfl, rfl, rfl⟩, rfl⟩, rfl⟩, rfl⟩, rfl⟩ := hg
  have hbefore := blanks_of_generates hbefore
  have hafter := blanks_of_generates hafter
  cases hmiddle with
  | optional_nil =>
    -- without values the white space on both sides is that of an empty list
    have hempty := @Renders.empty (before ++ after) fun c hc =>
      (List.mem_append.1 hc).elim (hbefore c) (hafter c)
    exact ⟨.list [], by simpa using hempty⟩
  | optional hvalues =>
    simp only [someValues, Grammar.generates_sequence_cons_iff,
      Grammar.generates_sequence_nil_iff] at hvalues
    obtain ⟨first, _, hfirst, ⟨rest, _, hrest, rfl, rfl⟩, rfl⟩ := hvalues
    simp only [List.append_nil, List.length_append] at inner ⊢
    obtain ⟨value, hvalue⟩ := inner first (by simp; omega) hfirst
    obtain ⟨values, hvalues⟩ := following_of_generates inner (by simp; omega) hrest
    exact ⟨.list (value :: values), .list hbefore hafter hvalue hvalues⟩

/-- **What the grammar generates is a rendering of a value**, by induction on the length of the
text. -/
theorem renders_of_generates {text : List Char}
    (hg : nestedLists.Generates (.ruleRef "value") text) :
    ∃ value, Renders (.value value) text := by
  induction hlength : text.length using Nat.strongRecOn generalizing text with
  | ind length ih =>
    rw [Grammar.generates_ruleRef_iff rule?_value] at hg
    obtain ⟨expr, hmem, hg⟩ := Grammar.generates_choice_iff.1 hg
    rcases List.mem_cons.1 hmem with rfl | hmem
    · have hnumber := isNumber_of_generates hg
      rw [← @String.toList_ofList text] at hnumber
      have hrenders := Renders.number ⟨String.ofList text, hnumber⟩
      exact ⟨_, by simpa using hrenders⟩
    · rw [List.mem_singleton.1 hmem] at hg
      exact list_of_generates (fun shorter hlt hg => ih shorter.length (hlength ▸ hlt) hg rfl) hg

/-! ## Parses -/

/-- **Nested lists are parsed as they are rendered.** Given enough depth, a rendering of a value is
parsed completely, and what is found in the tree is what the value holds. All that is parsed
completely, with whatever options, is such a rendering. -/
theorem nestedLists_round_trip (text : String) :
    let parsed (options : Options) (cache : Cache) :=
      (Parser.parseWithCache ⟨nestedLists, options⟩ "value" (.ofString text) cache).result
    (∀ value, Renders (.value value) text.toList → ∃ tree depth,
      value.FoundIn (.ofString text) tree ∧
        ∀ options cache, depth ≤ options.maxDepth →
          (∀ limit ∈ options.maxInputLength?, (Input.ofString text).length ≤ limit) →
            parsed options cache = .ok (.complete tree)) ∧
    ∀ options cache tree, parsed options cache = .ok (.complete tree) →
      ∃ value, Renders (.value value) text.toList ∧ value.FoundIn (.ofString text) tree := by
  have matched (value : Value) (h : Renders (.value value) text.toList) :
      ∃ tree, nestedLists.Matches (.ofString text) (.ruleRef "value") 0
        (Input.ofString text).length (some tree) ∧ value.FoundIn (.ofString text) tree := by
    have hpos := Input.Remains.start text
    rw [← List.append_nil text.toList] at hpos
    obtain ⟨tree, hmatch, hfound⟩ := h.recognized (.ofString text) 0 [] hpos nofun
    rw [Nat.zero_add, ← Input.length_ofString] at hmatch
    exact ⟨tree, hmatch, hfound⟩
  intro parsed
  constructor
  · intro value h
    obtain ⟨tree, hmatch, hfound⟩ := matched value h
    obtain ⟨depth, hcomplete⟩ := Parser.complete_of_matches hmatch
    exact ⟨tree, depth, hfound, hcomplete⟩
  · intro options cache tree hcomplete
    have hmatch := Parser.matches_of_complete hcomplete
    obtain ⟨value, hvalue⟩ :=
      renders_of_generates (hmatch.derives (Nat.zero_le _)).generates_whole
    obtain ⟨tree', hmatch', hfound⟩ := matched value hvalue
    cases (hmatch.unique hmatch').2
    exact ⟨value, hvalue, hfound⟩

/-- A list in a list, with white space after the comma and before the inner bracket that closes. -/
theorem nestedLists_round_trip_inner :
    let parsed (depth : Nat) :=
      (Parser.parseWithCache ⟨nestedLists, { maxDepth := depth }⟩ "value"
        (.ofString "[1, [-23 ]]") {}).result
    ∃ depth tree, parsed depth = .ok (.complete tree) ∧
      (tree.findAll "number").map (·.text? (.ofString "[1, [-23 ]]")) = [some "1", some "-23"] ∧
      (tree.findAll "list").length = 1 ∧
      ∃ value, Renders (.value value) "[1, [-23 ]]".toList ∧
        value.FoundIn (.ofString "[1, [-23 ]]") tree := by
  intro parsed
  have hblank : ∀ c ∈ [' '], Unicode.isWhiteSpace c = true := List.all_eq_true.1 rfl
  have hpositive : IsNumber "1".toList :=
    ⟨[], ['1'], .inl rfl, nofun, List.all_eq_true.1 rfl, rfl⟩
  have hnegative : IsNumber "-23".toList :=
    ⟨['-'], ['2', '3'], .inr rfl, nofun, List.all_eq_true.1 rfl, rfl⟩
  have hone : Renders (.value (.number ⟨"1", hpositive⟩)) "1".toList := .number _
  have hother : Renders (.value (.number ⟨"-23", hnegative⟩)) "-23".toList := .number _
  have hinner : Renders (.value (.list [.number ⟨"-23", hnegative⟩])) "[-23 ]".toList :=
    @Renders.list _ _ [] _ _ [' '] nofun hblank hother .nil
  have hrest : Renders (.following [.list [.number ⟨"-23", hnegative⟩]]) ", [-23 ]".toList :=
    @Renders.cons _ _ [] [' '] _ _ nofun hblank hinner .nil
  have hvalue : Renders
      (.value (.list [.number ⟨"1", hpositive⟩, .list [.number ⟨"-23", hnegative⟩]]))
      "[1, [-23 ]]".toList := @Renders.list _ _ [] _ _ [] nofun nofun hone hrest
  obtain ⟨hrendered, hparsed⟩ := nestedLists_round_trip "[1, [-23 ]]"
  obtain ⟨tree, depth, hfound, hcomplete⟩ := hrendered _ hvalue
  have hresult : parsed depth = .ok (.complete tree) :=
    hcomplete { maxDepth := depth } {} (Nat.le_refl _) nofun
  exact ⟨depth, tree, hresult, hfound.numbers, hfound.lists, hparsed _ _ tree hresult⟩

end Packrat.Sample
