import Packrat.Proofs.Invariant
import Packrat.Proofs.Tiling

/-!
# What holds of all nodes of a tree

Every node of a tree that plain evaluation builds was put around outcomes of calls, as a node of a
sequence, a repetition or a terminal, or as the node that a rule comes to. A property that all of
these have (`Grammar.Imposes`) holds of every node (`Grammar.Yields.all_nodes`): an outcome's tree
holds nothing but the node put around it and the trees of its calls, and where a rule's node takes
the children of its body's, these are trees of calls too.
-/

set_option autoImplicit false

namespace Packrat

/-- All nodes of the tree have the property. -/
def Node.All (P : Node → Prop) (tree : Node) : Prop := ∀ node : Node, node.OccursIn tree → P node

def Outcome.All (P : Node → Prop) (outcome : Outcome) : Prop :=
  ∀ tree, outcome.node? = some tree → tree.All P

/-- The property holds of nodes as they come about. -/
structure Grammar.Imposes (grammar : Grammar) (input : Input) (P : Node → Prop) : Prop where
  /-- Nodes that are not of rules are built without an alternative. -/
  plain : ∀ node : Node, (∀ name, node.label ≠ .rule name) → node.alternative = none → P node
  /-- The node of a rule is what the rule comes to where the node starts. -/
  rule : ∀ (name : String) (node : Node), node.label = .rule name →
    grammar.Produces input (.ruleRef name) node.start (.ok (.success node.stop (some node))) →
      P node

variable {grammar : Grammar} {input : Input} {P : Node → Prop}

/-! ## Trees -/

theorem Node.all_iff {tree : Node} :
    tree.All P ↔ P tree ∧ ∀ child ∈ tree.children, child.All P := by
  constructor
  · intro h
    exact ⟨h tree .root, fun child hmem node ho => h node (.child hmem ho)⟩
  · intro h node ho
    cases ho with
    | root => exact h.1
    | child hmem ho => exact h.2 _ hmem node ho

/-- The children of a rule's node are the body's node or the children of that. -/
theorem Context.mem_children_ruleNode {name : String} {start stop : Nat} {alternative : Option Nat}
    {body? : Option Node} {child : Node}
    (h : child ∈ (ruleNode name start stop alternative body?).children) :
    ∃ body, body? = some body ∧ child.OccursIn body := by
  cases body? with
  | none => cases h
  | some body =>
    refine ⟨body, rfl, ?_⟩
    unfold ruleNode at h
    cases hl : body.label <;> simp only [hl] at h
    · rw [List.mem_singleton.1 h]
      exact .root
    · rw [List.mem_singleton.1 h]
      exact .root
    · exact .child h .root
    · exact .child h .root

namespace Outcome

theorem all_failure (failure : Failure) : (Outcome.failure failure).All P := by
  intro tree ht
  cases ht

theorem all_nothing (pos : Nat) : (nothing pos).All P := by
  intro tree ht
  cases ht

section
variable (himposes : grammar.Imposes input P)
include himposes

theorem all_around {label : Label} {start stop : Nat} {children : List Node}
    (hl : ∀ name, label ≠ .rule name) (h : ∀ child ∈ children, child.All P) :
    (success stop (some ⟨label, start, stop, children, none⟩)).All P := by
  intro tree ht
  cases ht
  exact Node.all_iff.2 ⟨himposes.plain _ hl rfl, h⟩

theorem all_terminal (start stop : Nat) : (terminal start stop).All P :=
  all_around himposes nofun nofun

/-- The node of a rule, if the rule comes to it and the nodes of its body have the property. -/
theorem All.rule {outcome : Outcome} (h : outcome.All P) {name : String} {pos : Nat}
    {alternative : Option Nat}
    (hp : grammar.Produces input (.ruleRef name) pos
      (.ok (Context.ruleOutcome name pos alternative outcome))) :
    (Context.ruleOutcome name pos alternative outcome).All P := by
  cases outcome with
  | failure failure => exact all_failure failure
  | success stop body? =>
    intro tree ht
    cases ht
    refine Node.all_iff.2 ⟨himposes.rule name _ rfl hp, fun child hmem node ho => ?_⟩
    obtain ⟨body, hbody, hchild⟩ := Context.mem_children_ruleNode hmem
    exact h body hbody node (ho.trans hchild)

end

end Outcome

/-! ## The constructs -/

/-- The value, if it is an outcome, has a tree whose nodes have the property. -/
def Grown (P : Node → Prop) (_ : Expr) (_ : Nat) : Except String Outcome → Prop
  | .ok outcome => outcome.All P
  | .error _ => True

namespace Script

variable {expr : Expr} {pos : Nat}

theorem grown_fail (place : Nat) (expected : String) :
    (fail place expected).Ensures (Grown P) (Grown P expr pos) :=
  ensures_fail.2 (Outcome.all_failure _)

/-- One more outcome is gathered for a sequence or a repetition. -/
theorem grown_push {children : List Node} {stop : Nat} {node? : Option Node}
    (h : ∀ child ∈ children, child.All P) (ho : (Outcome.success stop node?).All P) :
    ∀ child ∈ node?.toList ++ children, child.All P := by
  intro child hmem
  rcases List.mem_append.1 hmem with hmem | hmem
  · exact ho child (Option.mem_toList.1 hmem)
  · exact h child hmem

theorem grown_choice (exprs : List Expr) (index : Nat) (failure? : Option Failure)
    {post : Except String (Outcome × Nat) → Prop}
    (hok : ∀ outcome index, outcome.All P → post (.ok (outcome, index)))
    (herror : ∀ name, post (.error name)) :
    (ofChoice pos exprs index failure?).Ensures (Grown P) post := by
  induction exprs generalizing index failure? with
  | nil => exact hok _ _ (Outcome.all_failure _)
  | cons expr' exprs ih =>
    refine ⟨fun outcome ho => ?_, fun name _ => herror name⟩
    cases outcome with
    | success stop node? => exact hok _ _ ho
    | failure failure => exact ih _ _

section
variable (himposes : grammar.Imposes input P)
include himposes

theorem grown_terminal (ht : expr.isTerminal = true) :
    (ofExpr input expr pos).Ensures (Grown P) (Grown P expr pos) :=
  ensures_terminal ht (fun _ => Outcome.all_terminal himposes _ _) (Outcome.all_nothing _)
    fun _ _ => Outcome.all_failure _

theorem all_gathered {label : Label} {start stop : Nat} {children : List Node}
    (hl : ∀ name, label ≠ .rule name) (h : ∀ child ∈ children, child.All P) :
    (Outcome.success stop (some ⟨label, start, stop, children.reverse, none⟩)).All P :=
  Outcome.all_around himposes hl fun child hmem => h child (List.mem_reverse.1 hmem)

theorem grown_sequence {start : Nat} {children : List Node} (exprs : List Expr)
    (h : ∀ child ∈ children, child.All P) :
    (ofSequence input start exprs pos children).Ensures (Grown P) (Grown P expr start) := by
  induction exprs generalizing pos children with
  | nil => exact all_gathered himposes nofun h
  | cons expr' exprs ih =>
    refine ⟨fun outcome ho => ?_, fun _ _ => trivial⟩
    cases outcome with
    | success stop node? => exact ih (grown_push h ho)
    | failure failure => exact Outcome.all_failure failure

theorem grown_repeated {start : Nat} {children : List Node}
    (h : ∀ child ∈ children, child.All P) :
    (repeated start pos children).Ensures (Grown P) (Grown P expr start) :=
  all_gathered himposes nofun h

theorem grown_repetition {start attempts : Nat} {children : List Node} (expr' : Expr)
    (h : ∀ child ∈ children, child.All P) :
    (ofRepetition input expr' start attempts pos children).Ensures (Grown P)
      (Grown P expr start) := by
  induction attempts generalizing pos children with
  | zero => exact grown_repeated himposes h
  | succ attempts ih =>
    refine ⟨fun outcome ho => ?_, fun _ _ => trivial⟩
    cases outcome with
    | success stop node? =>
      simp only
      split
      · exact grown_repeated himposes h
      · exact ih (grown_push h ho)
    | failure failure => exact grown_repeated himposes h

/-- **Every script grows trees from those of its calls.** -/
theorem grown_expr (expr : Expr) (pos : Nat) :
    (ofExpr input expr pos).Ensures (Grown P) (Grown P expr pos) := by
  have none_gathered : ∀ child ∈ ([] : List Node), child.All P := nofun
  cases expr with
  | literal text => exact grown_terminal himposes rfl
  | oneIn cls => exact grown_terminal himposes rfl
  | any => exact grown_terminal himposes rfl
  | endOfInput => exact grown_terminal himposes rfl
  | regex pattern => exact grown_terminal himposes rfl
  | sequence exprs => exact grown_sequence himposes exprs none_gathered
  | choice exprs =>
    exact ensures_map.2 (grown_choice exprs 0 none (fun _ _ h => h) fun _ => trivial)
  | zeroOrMore expr => exact grown_repetition himposes expr none_gathered
  | oneOrMore expr =>
    refine ⟨fun outcome ho => ?_, fun _ _ => trivial⟩
    cases outcome with
    | success stop node? =>
      have hfirst := grown_push none_gathered ho
      rw [List.append_nil] at hfirst
      simp only
      split
      · exact grown_repeated himposes hfirst
      · exact grown_repetition himposes expr hfirst
    | failure failure => exact Outcome.all_failure failure
  | optional expr =>
    refine ⟨fun outcome ho => ?_, fun _ _ => trivial⟩
    cases outcome with
    | success stop node? => exact ho
    | failure failure => exact Outcome.all_nothing pos
  | followedBy expr =>
    refine ⟨fun outcome _ => ?_, fun _ _ => trivial⟩
    cases outcome.isSuccess with
    | true => exact Outcome.all_nothing pos
    | false => exact grown_fail _ _
  | notFollowedBy expr =>
    refine ⟨fun outcome _ => ?_, fun _ _ => trivial⟩
    cases outcome.isSuccess with
    | true => exact grown_fail _ _
    | false => exact Outcome.all_nothing pos
  | ruleRef name => exact ⟨fun _ ho => ho, fun _ _ => trivial⟩

theorem grown_body (name : String) (body : Expr) (pos : Nat) :
    (ofBody name body pos).Ensures (Grown P) fun value =>
      grammar.Produces input (.ruleRef name) pos value → Grown P (.ruleRef name) pos value := by
  refine ensures_body (fun exprs _ => grown_choice exprs 0 none ?_ fun _ _ => trivial) ?_
    fun _ _ _ => trivial
  · intro outcome index h hp
    exact h.rule himposes hp
  · intro outcome ho hp
    exact Outcome.All.rule himposes ho hp

end

end Script

/-- **What is imposed on nodes holds of all nodes of all trees** that plain evaluation builds. -/
theorem Grammar.Yields.all_nodes {expr : Expr} {pos : Nat} {answer : Answer Outcome}
    (h : grammar.Yields input expr pos answer) (himposes : grammar.Imposes input P)
    {outcome : Outcome} (hv : answer.value = .ok outcome) : outcome.All P := by
  have hgrown : Grown P expr pos answer.value := by
    refine h.induction_produced (fun expr pos _ => ?_) (fun name rule pos _ => ?_)
      fun _ _ _ => trivial
    · exact (Script.grown_expr himposes expr pos).mono (fun _ _ _ h => h.2) fun _ h => h
    · exact (Script.grown_body himposes name rule.body pos).mono (fun _ _ _ h => h.2) fun _ h => h
  rw [hv] at hgrown
  exact hgrown

end Packrat
