import Packrat.Proofs.Construction

/-!
# Finding the nodes of rules

What `Node.findAll` finds: the node itself if it is one of the rule, or else what it finds in the
children, in their order. The node of a rule passes on what is found in that of its body
(`Node.findAll_ruleNode`). A rule for a run of characters, such as white space, leaves a node of
terminals (`Derives.run_node`), in which no other rule is found (`Node.findAll_of_terminals`).
-/

set_option autoImplicit false

namespace Packrat

/-! ## Trees -/

namespace Node

variable {name : String} {node : Node} {nodes nodes' : List Node}

@[simp] theorem findAllIn_nil : findAllIn name [] = [] := rfl

@[simp] theorem findAllIn_cons :
    findAllIn name (node :: nodes) = node.findAll name ++ findAllIn name nodes := rfl

theorem findAllIn_append :
    findAllIn name (nodes ++ nodes') = findAllIn name nodes ++ findAllIn name nodes' := by
  induction nodes with
  | nil => rfl
  | cons node nodes ih => rw [List.cons_append, findAllIn_cons, findAllIn_cons, ih,
      List.append_assoc]

theorem findAllIn_eq_nil (h : ∀ node ∈ nodes, node.findAll name = []) :
    findAllIn name nodes = [] := by
  induction nodes with
  | nil => rfl
  | cons node nodes ih =>
    rw [List.forall_mem_cons] at h
    rw [findAllIn_cons, h.1, ih h.2, List.append_nil]

/-- In the node of another rule there is found what is found in the node of its body, which is there
as a child or gives way to its children. -/
theorem findAll_ruleNode {rule : String} (h : rule ≠ name) (start stop : Nat)
    (alternative : Option Nat) (body? : Option Node) :
    (Context.ruleNode rule start stop alternative body?).findAll name =
      findAllIn name body?.toList := by
  have hlabel : (Context.ruleNode rule start stop alternative body?).label ≠ .rule name :=
    fun heq => h (Label.rule.inj heq)
  rw [findAll_of_ne hlabel]
  cases body? with
  | none => rfl
  | some body =>
    obtain ⟨label, begin, finish, children, index⟩ := body
    cases label with
    | sequence => exact (List.append_nil _).symm
    | repetition => exact (List.append_nil _).symm
    | _ => rfl

/-- The node has no children and is not one of a rule. -/
structure IsTerminal (node : Node) : Prop where
  label : node.label = .terminal
  childless : node.children = []

theorem IsTerminal.findAll (h : node.IsTerminal) (name : String) : node.findAll name = [] := by
  rw [findAll_of_ne (by rw [h.label]; nofun), h.childless, findAllIn_nil]

theorem findAll_of_terminals {rule : String} (hlabel : node.label = .rule rule) (hne : rule ≠ name)
    (h : ∀ child ∈ node.children, child.IsTerminal) : node.findAll name = [] := by
  have hother : node.label ≠ .rule name := by
    rw [hlabel]
    exact fun heq => hne (Label.rule.inj heq)
  rw [findAll_of_ne hother]
  exact findAllIn_eq_nil fun child hmem => (h child hmem).findAll name

end Node

/-! ## Terminals -/

namespace Grammar

variable {grammar : Grammar} {input : Input} {expr : Expr} {pos stop : Nat} {node? : Option Node}
  {name : String} {cls : CharClass}

theorem matches_literal {text : String} (h : text.toList <+: input.rest pos) :
    grammar.Matches input (.literal text) pos (pos + text.toList.length)
      (some ⟨.terminal, pos, pos + text.toList.length, [], none⟩) := by
  have hagreed := (Input.agreement_eq_length_iff text.toList pos).2 h
  refine .of_script nofun ?_
  rw [Script.ofExpr, Script.ofLiteral, if_pos hagreed, hagreed]
  exact Script.produces_done _

theorem matches_regex {pattern : Pattern} {length : Nat}
    (h : pattern.matchLength? (input.rest pos) = some length) :
    grammar.Matches input (.regex pattern) pos (pos + length)
      (some ⟨.terminal, pos, pos + length, [], none⟩) := by
  refine .of_script nofun ?_
  rw [Script.ofExpr, Script.ofPattern, h]
  exact Script.produces_done _

theorem matches_oneIn {c : Char} (hatom : input.atom? pos = some c)
    (hc : cls.accepts c = true) :
    grammar.Matches input (.oneIn cls) pos (pos + 1)
      (some ⟨.terminal, pos, pos + 1, [], none⟩) := by
  refine .of_script nofun ?_
  rw [Script.ofExpr, Script.ofAtom, hatom, Option.any_some, if_pos hc]
  exact Script.produces_done _

/-! ## Runs of characters -/

/-- A run of characters is matched one by one, up to where no more are accepted. -/
theorem Derives.rounds {verdict : Verdict}
    (h : grammar.Derives input (.zeroOrMore (.oneIn cls)) pos verdict) :
    ∃ stop nodes, verdict = .success stop ∧ grammar.Rounds input (.oneIn cls) pos stop nodes ∧
      grammar.Derives input (.oneIn cls) stop .failure ∧ ∀ node ∈ nodes, node.IsTerminal := by
  generalize hexpr : Expr.zeroOrMore (.oneIn cls) = expr at h
  induction h with
  | @zeroOrMore_failure expr pos round =>
    cases hexpr
    exact ⟨pos, [], rfl, .nil, round, nofun⟩
  | zeroOrMore_empty round =>
    cases hexpr
    -- one character is not nothing
    generalize hv : Verdict.success _ = verdict at round
    cases round with
    | oneIn_success => injection hv; omega
    | oneIn_failure => cases hv
  | zeroOrMore_more round hne _ _ ih =>
    cases hexpr
    obtain ⟨stop, nodes, rfl, hrounds, hend, hterminals⟩ := ih rfl
    cases round with
    | oneIn_success hatom hc =>
      refine ⟨stop, _, rfl, .cons (matches_oneIn hatom hc) hne hrounds, hend, ?_⟩
      exact List.forall_mem_cons.2 ⟨⟨rfl, rfl⟩, hterminals⟩
  | zeroOrMore_undefined round =>
    cases hexpr
    cases round
  | _ => cases hexpr

/-- **The node of a run** has terminals for its children. -/
theorem Derives.run_node (hr : grammar.rule? name = some ⟨name, .zeroOrMore (.oneIn cls)⟩)
    (h : grammar.Derives input (.ruleRef name) pos (.success stop)) (hpos : pos ≤ input.length) :
    ∃ nodes, grammar.Matches input (.ruleRef name) pos stop
        (some ⟨.rule name, pos, stop, nodes, none⟩) ∧ ∀ node ∈ nodes, node.IsTerminal := by
  obtain ⟨stop', nodes, hstop, hrounds, hend, hterminals⟩ := ((derives_ruleRef_iff hr).1 h).rounds
  cases hstop
  exact ⟨nodes, (hrounds.matches hpos hend).ruleRef hr nofun, hterminals⟩

end Grammar

end Packrat
