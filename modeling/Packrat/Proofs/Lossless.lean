import Packrat.Proofs.Spans
import Packrat.Proofs.StartRun
import Packrat.Sample.Grammars

/-!
# Parse trees are lossless

`Parser.parse_lossless`: the tree of a parse tiles what has been consumed, node by node, so that
every node has a text and a printed form and the leaves together have the text consumed.
-/

set_option autoImplicit false

namespace Packrat

/-- A match of the rule of a name has that rule's node. -/
def Outcome.IsRule (name : String) : Outcome → Prop
  | success _ node? => ∃ node, node? = some node ∧ node.label = .rule name
  | failure _ => True

theorem Outcome.isRule_ruleOutcome (name : String) (start : Nat) (alternative : Option Nat)
    (outcome : Outcome) : (Context.ruleOutcome name start alternative outcome).IsRule name := by
  cases outcome with
  | success stop body? => exact ⟨_, rfl, rfl⟩
  | failure failure => trivial

/-- A value that is a match of a rule, if its expression refers to one. -/
def Labelled (expr : Expr) (_ : Nat) (value : Except String Outcome) : Prop :=
  ∀ name, expr = .ruleRef name → ∀ outcome, value = .ok outcome → outcome.IsRule name

theorem Script.labelled_body (name : String) (body : Expr) (pos : Nat) :
    (ofBody name body pos).Ensures Labelled (Labelled (.ruleRef name) pos) := by
  have labelled (alternative : Option Nat) (outcome : Outcome) :
      Labelled (.ruleRef name) pos (.ok (Context.ruleOutcome name pos alternative outcome)) := by
    intro name' hname outcome' hv
    cases hname
    cases hv
    exact Outcome.isRule_ruleOutcome ..
  have undefined (name' : String) : Labelled (.ruleRef name) pos (.error name') := by
    intro _ _ outcome hv
    cases hv
  refine ensures_body (fun exprs _ => .of_forall (fun value => ?_) _)
    (fun outcome _ => labelled none outcome) fun name' _ => undefined name'
  cases value with
  | ok value => exact labelled _ _
  | error name' => exact undefined name'

theorem Grammar.Yields.isRule {grammar : Grammar} {input : Input} {name : String} {pos : Nat}
    {answer : Answer Outcome} (h : grammar.Yields input (.ruleRef name) pos answer)
    {outcome : Outcome} (hv : answer.value = .ok outcome) : outcome.IsRule name := by
  have hlabelled : Labelled (.ruleRef name) pos answer.value := by
    refine h.induction (fun expr pos he => ?_)
      (fun name rule pos _ => Script.labelled_body name rule.body pos) ?_
    · exact .of_forall (fun _ name hname => absurd hname (he name)) _
    · intro name pos _ name' _ outcome hv
      cases hv
  exact hlabelled name rfl outcome hv

namespace Parser

theorem tree_of_parse {parser : Parser} {start : String} {input : Input} {cache : Cache}
    {result : ParseResult} {tree : Node}
    (h : (parser.parseWithCache start input cache).result = .ok result)
    (ht : result.tree? = some tree) :
    tree.label = .rule start ∧ tree.start = 0 ∧ tree.Lossless input.length ∧
      (result = .complete tree ∧ tree.stop = input.length ∨
        ∃ furthest?, result = .partialMatch tree tree.stop furthest? ∧
          tree.stop ≠ input.length) := by
  obtain ⟨answer, outcome, hy, hv, rfl⟩ := parse_yields h
  cases outcome with
  | failure failure => cases ht
  | success stop node? =>
    obtain ⟨node, rfl, hlabel⟩ := hy.isRule hv
    obtain ⟨hstart, rfl, hlossless⟩ := hy.spans (Nat.zero_le _) hv
    simp only [resultOf, Option.getD_some] at ht ⊢
    split at ht
    · next hstop =>
      cases ht
      rw [if_pos hstop]
      exact ⟨hlabel, hstart, hlossless, .inl ⟨rfl, hstop⟩⟩
    · next hstop =>
      cases ht
      rw [if_neg hstop]
      exact ⟨hlabel, hstart, hlossless, .inr ⟨_, rfl, hstop⟩⟩

/-- **Parse trees are lossless**: the tree of a parse is that of the start rule, from the start of
the input to where the match stops; each of its nodes is in one piece and has a text and a printed
form; and its leaves together have the text that has been consumed. -/
theorem parse_lossless {parser : Parser} {start : String} {input : Input} {cache : Cache}
    {result : ParseResult} {tree : Node}
    (h : (parser.parseWithCache start input cache).result = .ok result)
    (ht : result.tree? = some tree) :
    tree.label = .rule start ∧ tree.start = 0 ∧
    (result = .complete tree ∧ tree.stop = input.length ∨
      ∃ furthest?, result = .partialMatch tree tree.stop furthest? ∧ tree.stop < input.length) ∧
    (∀ node : Node, node.OccursIn tree → node.Whole input.length ∧ (node.text? input).isSome ∧
      (node.print? input).isSome) ∧
    ∃ text, input.slice? 0 tree.stop = some text ∧ Node.textOf? tree.leaves input = some text := by
  obtain ⟨hlabel, hstart, hlossless, hresult⟩ := tree_of_parse h ht
  refine ⟨hlabel, hstart, ?_, fun node ho => ?_, ?_⟩
  · have hbound := hlossless.whole.bounded
    obtain hcomplete | ⟨furthest?, hpartial, hstop⟩ := hresult
    · exact .inl hcomplete
    · exact .inr ⟨furthest?, hpartial, by omega⟩
  · have hnode := hlossless.of_occursIn ho
    exact ⟨hnode.whole, by rw [hnode.text?_eq]; rfl, hnode.print?_isSome input⟩
  · refine ⟨input.between 0 tree.stop, Input.slice?_eq_between (Nat.zero_le _), ?_⟩
    rw [hlossless.leaves_text, hstart]

/-- A match that stops at a comma. -/
theorem parse_lossless_prefix :
    ∃ tree furthest?,
      (parseWithCache ⟨Sample.identifiers, {}⟩ "ident" (.ofString "ab,c") {}).result =
        .ok (.partialMatch tree 2 furthest?) ∧
      (∀ node : Node, node.OccursIn tree → node.Whole 4) ∧
      Node.textOf? tree.leaves (.ofString "ab,c") = some "ab" := by
  obtain ⟨-, -, -, hnodes, text, hslice, hleaves⟩ :=
    @parse_lossless ⟨Sample.identifiers, {}⟩ "ident" (.ofString "ab,c") {} _ _ rfl rfl
  cases hslice
  exact ⟨_, _, rfl, fun node ho => (hnodes node ho).1, hleaves⟩

end Parser

end Packrat
