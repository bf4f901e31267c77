import Packrat.Proofs.Lossless
import Packrat.Proofs.TreeInvariant

/-!
# The nodes of rules

A node of a rule is genuine if matching the rule at the node's start comes to this very node, with
all that is in it. Every node of a rule is genuine in the tree of every parse
(`Parser.allGenuine_of_parse`). So a node does not depend on what stands around it:
`Parser.rule_node_rematched` finds each one again in a match of its rule alone.
-/

set_option autoImplicit false

namespace Packrat

/-- If the node is one of a rule, matching the rule at its start comes to it. -/
def Node.Genuine (grammar : Grammar) (input : Input) (node : Node) : Prop :=
  ∀ name, node.label = .rule name →
    grammar.Produces input (.ruleRef name) node.start (.ok (.success node.stop (some node)))

def Node.AllGenuine (grammar : Grammar) (input : Input) (tree : Node) : Prop :=
  ∀ node : Node, node.OccursIn tree → node.Genuine grammar input

variable {grammar : Grammar} {input : Input}

theorem Grammar.imposes_genuine : grammar.Imposes input (Node.Genuine grammar input) where
  plain _ hl _ name hname := absurd hname (hl name)
  rule name node hl hp name' hname := by
    rw [hl] at hname
    cases hname
    exact hp

namespace Parser

variable {parser : Parser} {start : String} {cache : Cache} {result : ParseResult} {tree : Node}

/-- What is imposed on nodes holds of all nodes of the tree of a parse. -/
theorem all_nodes_of_parse {P : Node → Prop} (himposes : parser.grammar.Imposes input P)
    (h : (parser.parseWithCache start input cache).result = .ok result)
    (ht : result.tree? = some tree) : tree.All P := by
  obtain ⟨answer, outcome, hy, hv, rfl⟩ := parse_yields h
  cases outcome with
  | failure failure => cases ht
  | success stop node? =>
    obtain ⟨node, rfl, -⟩ := hy.isRule hv
    have hall := hy.all_nodes himposes hv node rfl
    simp only [resultOf, Option.getD_some] at ht
    split at ht <;> cases ht <;> exact hall

theorem allGenuine_of_parse (h : (parser.parseWithCache start input cache).result = .ok result)
    (ht : result.tree? = some tree) : tree.AllGenuine parser.grammar input :=
  all_nodes_of_parse Grammar.imposes_genuine h ht

/-- **Every node of a rule is matched again.** Wherever a node of a rule occurs in the tree of a
parse, matching the rule at the node's start on its own, with any options that allow enough depth,
succeeds up to the node's stop and leaves the same node with the same children. -/
theorem rule_node_rematched (h : (parser.parseWithCache start input cache).result = .ok result)
    (ht : result.tree? = some tree) {node : Node} (ho : node.OccursIn tree) {name : String}
    (hl : node.label = .rule name) :
    ∃ (hle : node.start ≤ input.length) (depth : Nat), ∀ options : Options,
      depth ≤ options.maxDepth →
      (Context.matchExpr ⟨parser.grammar, input, options⟩ (.ruleRef name) ⟨node.start, hle⟩ {}).1 =
        .ok (.success node.stop (some node)) := by
  have hwhole := ((tree_of_parse h ht).2.2.1.of_occursIn ho).whole
  obtain ⟨answer, hy, hv⟩ := allGenuine_of_parse h ht node ho name hl
  obtain ⟨depth, hmatch⟩ := Context.evaluate_of_yields hy
  refine ⟨Nat.le_trans hwhole.le hwhole.bounded, depth, fun options hd => ?_⟩
  have hempty : ({} : Session).cache.Sound parser.grammar input := Cache.sound_empty
  rw [← Answer.result_ok hv]
  exact (hmatch options.maxDepth hd options {} hempty).1

/-- The last rule of a phrase, which is two rules deep in the tree. -/
theorem rule_node_rematched_phrase :
    ∃ depth, ∀ d ≥ depth,
      (Context.matchExpr ⟨Sample.phrases, .ofString "carf!erf", { memoize := false, maxDepth := d }⟩
        (.ruleRef "erf") (.ofPosition 5) {}).1 =
      .ok (.success 8 (some ⟨.rule "erf", 5, 8, [⟨.terminal, 5, 8, [], none⟩], none⟩)) := by
  let erf : Node := ⟨.rule "erf", 5, 8, [⟨.terminal, 5, 8, [], none⟩], none⟩
  let carf : Node := ⟨.rule "carf", 0, 8,
    [⟨.terminal, 0, 4, [], none⟩, ⟨.terminal, 4, 5, [], none⟩, erf], none⟩
  let foo : Node := ⟨.rule "foo", 0, 8, [carf], some 1⟩
  have hcarf : carf ∈ foo.children := List.mem_singleton.2 rfl
  have herf : erf ∈ carf.children := by simp [carf]
  have hoccurs : erf.OccursIn foo := .child hcarf (.child herf .root)
  obtain ⟨hle, depth, hmatch⟩ := @rule_node_rematched (.ofString "carf!erf") ⟨Sample.phrases, {}⟩
    "foo" {} (.complete foo) foo rfl rfl erf hoccurs "erf" rfl
  exact ⟨depth, fun d hd => hmatch { memoize := false, maxDepth := d } hd⟩

end Parser

end Packrat
