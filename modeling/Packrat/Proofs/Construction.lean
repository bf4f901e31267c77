import Packrat.Proofs.Adequacy
import Packrat.Proofs.Lossless

/-!
# How trees are built

What an expression matches leaves a node (`Grammar.Matches`). The nodes of a sequence are those of
its parts, one after the other (`Grammar.Parts`), and those of a repetition those of its rounds
(`Grammar.Rounds`); the node of a rule is put around that of its body (`Matches.ruleRef`), or around
that of the first alternative that matches (`Matches.alternative`). With these laws a tree is built
bottom up, without scripts, sessions or depth.
-/

set_option autoImplicit false

namespace Packrat

variable {grammar : Grammar} {input : Input}

/-- The expression matches up to `stop` and leaves the node. -/
def Grammar.Matches (grammar : Grammar) (input : Input) (expr : Expr) (pos stop : Nat)
    (node? : Option Node) : Prop :=
  grammar.Produces input expr pos (.ok (.success stop node?))

/-! ## Scripts -/

/-- Plain evaluation of the script comes to the value. -/
def Script.Produces {α : Type} (grammar : Grammar) (input : Input) (script : Script α)
    (value : α) : Prop :=
  ∃ answer, script.Yields grammar input answer ∧ answer.value = .ok value

namespace Script

variable {α β : Type} {expr : Expr} {pos : Nat} {value : α}

theorem produces_done (value : α) : (done value).Produces grammar input value :=
  ⟨_, .done value, rfl⟩

theorem produces_call {next : Outcome → Script α} {outcome : Outcome}
    (h : grammar.Produces input expr pos (.ok outcome))
    (hnext : (next outcome).Produces grammar input value) :
    (call expr pos next).Produces grammar input value := by
  obtain ⟨first, hfirst, hv⟩ := h
  obtain ⟨rest, hrest, hvalue⟩ := hnext
  exact ⟨_, .call hfirst hv hrest, hvalue⟩

theorem Produces.map {script : Script α} (h : script.Produces grammar input value) (f : α → β) :
    (script.map f).Produces grammar input (f value) := by
  obtain ⟨answer, ⟨depth, hanswer⟩, hv⟩ := h
  refine ⟨answer.map f, ⟨depth, by rw [answer?_map, hanswer, Option.map_some]⟩, ?_⟩
  rw [Answer.map, hv]
  rfl

end Script

namespace Grammar

variable {expr : Expr} {pos stop : Nat} {node? : Option Node} {name : String} {rule : Rule}

theorem Produces.of_script {value : Outcome} (he : ∀ name, expr ≠ .ruleRef name)
    (h : (Script.ofExpr input expr pos).Produces grammar input value) :
    grammar.Produces input expr pos (.ok value) := by
  obtain ⟨answer, hy, hv⟩ := h
  exact ⟨answer, .of_script he hy, hv⟩

theorem Produces.of_body {value : Outcome} (hr : grammar.rule? name = some rule)
    (h : (Script.ofBody name rule.body pos).Produces grammar input value) :
    grammar.Produces input (.ruleRef name) pos (.ok value) := by
  obtain ⟨answer, hy, hv⟩ := h
  exact ⟨_, .of_body hr hy, hv⟩

/-! ## Matches and the semantics -/

theorem Matches.derives (h : grammar.Matches input expr pos stop node?)
    (hpos : pos ≤ input.length) : grammar.Derives input expr pos (.success stop) := by
  obtain ⟨answer, hy, hv⟩ := h
  have hderives := hy.derives hpos
  rwa [hv] at hderives

theorem Matches.within (h : grammar.Matches input expr pos stop node?)
    (hpos : pos ≤ input.length) : pos ≤ stop ∧ stop ≤ input.length :=
  (h.derives hpos).within hpos

theorem Matches.unique {stop' : Nat} {node?' : Option Node}
    (h : grammar.Matches input expr pos stop node?)
    (h' : grammar.Matches input expr pos stop' node?') : stop = stop' ∧ node? = node?' := by
  obtain ⟨answer, hy, hv⟩ := h
  obtain ⟨answer', hy', hv'⟩ := h'
  cases hy.unique hy'
  cases hv.symm.trans hv'
  exact ⟨rfl, rfl⟩

theorem Derives.matches (h : grammar.Derives input expr pos (.success stop))
    (hpos : pos ≤ input.length) : ∃ node?, grammar.Matches input expr pos stop node? := by
  obtain ⟨answer, hy, hv⟩ := h.endsIn hpos
  obtain ⟨node?, hv⟩ := Verdict.ofValue_eq_success.1 hv
  exact ⟨node?, answer, hy, hv⟩

theorem Derives.fails (h : grammar.Derives input expr pos .failure) (hpos : pos ≤ input.length) :
    ∃ failure, grammar.Produces input expr pos (.ok (.failure failure)) := by
  obtain ⟨answer, hy, hv⟩ := h.endsIn hpos
  obtain ⟨failure, hv⟩ := Verdict.ofValue_eq_failure.1 hv
  exact ⟨failure, answer, hy, hv⟩

theorem Derives.exists_node (h : grammar.Derives input expr pos (.success stop))
    (hpos : pos ≤ input.length) (hne : stop ≠ pos) :
    ∃ node : Node, grammar.Matches input expr pos stop (some node) ∧
      node.start = pos ∧ node.stop = stop := by
  obtain ⟨_ | node, answer, hy, hv⟩ := h.matches hpos
  · exact absurd (hy.spans hpos hv).1 hne
  · obtain ⟨hstart, hstop, -⟩ := hy.spans hpos hv
    exact ⟨node, ⟨answer, hy, hv⟩, hstart, hstop⟩

/-- A rule leaves its node, whether it consumes something or not. -/
theorem Derives.exists_ruleNode (h : grammar.Derives input (.ruleRef name) pos (.success stop))
    (hpos : pos ≤ input.length) :
    ∃ node : Node, grammar.Matches input (.ruleRef name) pos stop (some node) ∧
      node.label = .rule name ∧ node.start = pos ∧ node.stop = stop := by
  obtain ⟨node?, answer, hy, hv⟩ := h.matches hpos
  obtain ⟨node, rfl, hlabel⟩ := hy.isRule hv
  obtain ⟨hstart, hstop, -⟩ := hy.spans hpos hv
  exact ⟨node, ⟨answer, hy, hv⟩, hlabel, hstart, hstop⟩

theorem Matches.label
    (h : grammar.Matches input (.ruleRef name) pos stop node?) :
    ∃ node, node? = some node ∧ node.label = .rule name := by
  obtain ⟨answer, hy, hv⟩ := h
  exact hy.isRule hv

/-! ## Sequences -/

variable (grammar input) in
/-- The expressions match one after the other and leave the nodes. -/
inductive Parts : List Expr → (pos stop : Nat) → List Node → Prop
  | nil {pos : Nat} : Parts [] pos pos []
  | cons {expr : Expr} {exprs : List Expr} {pos middle stop : Nat} {node? : Option Node}
      {nodes : List Node} (first : grammar.Matches input expr pos middle node?)
      (rest : Parts exprs middle stop nodes) :
      Parts (expr :: exprs) pos stop (node?.toList ++ nodes)

theorem reverse_toList_append (node? : Option Node) (children nodes : List Node) :
    (node?.toList ++ children).reverse ++ nodes =
      children.reverse ++ (node?.toList ++ nodes) := by
  cases node? <;> simp

theorem Parts.script {exprs : List Expr} {nodes : List Node}
    (h : grammar.Parts input exprs pos stop nodes) (hpos : pos ≤ input.length) (start : Nat)
    (children : List Node) :
    (Script.ofSequence input start exprs pos children).Produces grammar input
      (.success stop (some ⟨.sequence, start, stop, children.reverse ++ nodes, none⟩)) := by
  induction h generalizing children with
  | nil =>
    rw [List.append_nil]
    exact Script.produces_done _
  | cons first rest ih =>
    have hmiddle := (first.within hpos).2
    refine Script.produces_call first ?_
    simp only [Input.clamp_of_le hmiddle]
    rw [← reverse_toList_append]
    exact ih hmiddle _

/-- **The node of a sequence** holds those of its parts. -/
theorem Parts.matches {exprs : List Expr} {nodes : List Node}
    (h : grammar.Parts input exprs pos stop nodes) (hpos : pos ≤ input.length) :
    grammar.Matches input (.sequence exprs) pos stop
      (some ⟨.sequence, pos, stop, nodes, none⟩) :=
  .of_script nofun (h.script hpos pos [])

theorem Derives.parts {exprs : List Expr}
    (h : grammar.Derives input (.sequence exprs) pos (.success stop)) (hpos : pos ≤ input.length) :
    ∃ nodes, grammar.Parts input exprs pos stop nodes := by
  induction exprs generalizing pos with
  | nil =>
    cases h
    exact ⟨[], .nil⟩
  | cons expr exprs ih =>
    obtain ⟨middle, first, rest⟩ := derives_sequence_cons_iff.1 h
    obtain ⟨node?, hfirst⟩ := first.matches hpos
    obtain ⟨nodes, hrest⟩ := ih rest (hfirst.within hpos).2
    exact ⟨_, .cons hfirst hrest⟩

/-! ## Repetitions -/

variable (grammar input) in
/-- The expression matches again and again, something each time, and leaves the nodes. -/
inductive Rounds (expr : Expr) : (pos stop : Nat) → List Node → Prop
  | nil {pos : Nat} : Rounds expr pos pos []
  | cons {pos middle stop : Nat} {node? : Option Node} {nodes : List Node}
      (round : grammar.Matches input expr pos middle node?) (hne : middle ≠ pos)
      (rest : Rounds expr middle stop nodes) : Rounds expr pos stop (node?.toList ++ nodes)

theorem Rounds.concat {middle : Nat} {nodes : List Node}
    (h : grammar.Rounds input expr pos middle nodes)
    (round : grammar.Matches input expr middle stop node?) (hne : stop ≠ middle) :
    grammar.Rounds input expr pos stop (nodes ++ node?.toList) := by
  induction h with
  | nil =>
    rw [List.nil_append, ← List.append_nil node?.toList]
    exact .cons round hne .nil
  | cons first hne' _ ih =>
    rw [List.append_assoc]
    exact .cons first hne' (ih round hne)

theorem Rounds.script {nodes : List Node} (h : grammar.Rounds input expr pos stop nodes)
    (hpos : pos ≤ input.length) (hend : grammar.Derives input expr stop .failure) (start : Nat)
    {attempts : Nat} (hattempts : input.length - pos < attempts) (children : List Node) :
    (Script.ofRepetition input expr start attempts pos children).Produces grammar input
      (.success stop (some ⟨.repetition, start, stop, children.reverse ++ nodes, none⟩)) := by
  induction h generalizing attempts children with
  | nil =>
    obtain ⟨attempts, rfl⟩ : ∃ more, attempts = more + 1 := ⟨attempts - 1, by omega⟩
    obtain ⟨failure, hfails⟩ := hend.fails hpos
    rw [List.append_nil]
    exact Script.produces_call hfails (Script.produces_done _)
  | cons round hne _ ih =>
    obtain ⟨attempts, rfl⟩ : ∃ more, attempts = more + 1 := ⟨attempts - 1, by omega⟩
    obtain ⟨hle, hmiddle⟩ := round.within hpos
    refine Script.produces_call round ?_
    simp only [if_neg hne, Input.clamp_of_le hmiddle]
    rw [← reverse_toList_append]
    exact ih hmiddle hend (by omega) _

/-- **The node of a repetition** holds those of its rounds, up to where no more match. -/
theorem Rounds.matches {nodes : List Node} (h : grammar.Rounds input expr pos stop nodes)
    (hpos : pos ≤ input.length) (hend : grammar.Derives input expr stop .failure) :
    grammar.Matches input (.zeroOrMore expr) pos stop
      (some ⟨.repetition, pos, stop, nodes, none⟩) :=
  .of_script nofun (h.script hpos hend pos (Nat.lt_succ_self _) [])

/-! ## Optional expressions -/

theorem Matches.optional (h : grammar.Matches input expr pos stop node?) :
    grammar.Matches input (.optional expr) pos stop node? :=
  .of_script nofun (Script.produces_call h (Script.produces_done _))

theorem matches_optional_none (h : grammar.Derives input expr pos .failure)
    (hpos : pos ≤ input.length) : grammar.Matches input (.optional expr) pos pos none := by
  obtain ⟨failure, hfails⟩ := h.fails hpos
  exact .of_script nofun (Script.produces_call hfails (Script.produces_done _))

/-! ## Rules -/

theorem Matches.ruleRef (hr : grammar.rule? name = some rule)
    (hbody : ∀ exprs, rule.body ≠ .choice exprs)
    (h : grammar.Matches input rule.body pos stop node?) :
    grammar.Matches input (.ruleRef name) pos stop
      (some (Context.ruleNode name pos stop none node?)) := by
  refine .of_body hr ?_
  have called := (Script.produces_call h (Script.produces_done _)).map
    (Context.ruleOutcome name pos none)
  cases he : rule.body with
  | choice exprs => exact absurd he (hbody exprs)
  | _ =>
    rw [he] at called
    exact called

theorem produces_choice {before after : List Expr}
    (hbefore : ∀ expr ∈ before, grammar.Derives input expr pos .failure)
    (h : grammar.Matches input expr pos stop node?) (hpos : pos ≤ input.length) (index : Nat)
    (failure? : Option Failure) :
    (Script.ofChoice pos (before ++ expr :: after) index failure?).Produces grammar input
      (.success stop node?, index + before.length) := by
  induction before generalizing index failure? with
  | nil => exact Script.produces_call h (Script.produces_done _)
  | cons first before ih =>
    rw [List.forall_mem_cons] at hbefore
    obtain ⟨failure, hfails⟩ := hbefore.1.fails hpos
    refine Script.produces_call hfails ?_
    have hrest := ih hbefore.2 (index + 1) (Failure.mergeOption failure? (some failure))
    rwa [show index + 1 + before.length = index + (first :: before).length by
      simp only [List.length_cons]; omega] at hrest

/-- **The node of a rule with alternatives** is put around that of the first one that matches, whose
index is recorded. -/
theorem Matches.alternative {before after : List Expr} (hr : grammar.rule? name = some rule)
    (hbody : rule.body = .choice (before ++ expr :: after))
    (hbefore : ∀ expr ∈ before, grammar.Derives input expr pos .failure)
    (h : grammar.Matches input expr pos stop node?) (hpos : pos ≤ input.length) :
    grammar.Matches input (.ruleRef name) pos stop
      (some (Context.ruleNode name pos stop (Context.recordedIndex before.length) node?)) := by
  refine .of_body hr ?_
  rw [hbody]
  have hchoice : (Script.ofChoice pos (before ++ expr :: after) 0 none).Produces grammar input _ :=
    produces_choice hbefore h hpos 0 none
  rw [Nat.zero_add] at hchoice
  exact hchoice.map fun result =>
    Context.ruleOutcome name pos (Context.recordedIndex result.2) result.1

end Grammar

/-! ## Parses -/

namespace Parser

variable {options : Options} {start : String} {tree : Node}

theorem matches_of_complete {cache : Cache}
    (h : (parseWithCache ⟨grammar, options⟩ start input cache).result = .ok (.complete tree)) :
    grammar.Matches input (.ruleRef start) 0 input.length (some tree) := by
  obtain ⟨answer, outcome, hy, hv, hresult⟩ := parse_yields h
  cases outcome with
  | failure failure => cases hresult
  | success stop node? =>
    obtain ⟨node, rfl, -⟩ := hy.isRule hv
    simp only [resultOf, Option.getD_some] at hresult
    split at hresult
    · next hstop =>
      cases hresult
      exact ⟨answer, hy, hstop ▸ hv⟩
    · cases hresult

theorem complete_of_matches
    (h : grammar.Matches input (.ruleRef start) 0 input.length (some tree)) :
    ∃ depth, ∀ (options : Options) (cache : Cache), depth ≤ options.maxDepth →
      (∀ limit ∈ options.maxInputLength?, input.length ≤ limit) →
        (parseWithCache ⟨grammar, options⟩ start input cache).result = .ok (.complete tree) := by
  obtain ⟨furthest?, depth, hdepth⟩ := parse_of_produces h
  refine ⟨depth, fun options cache hle hlimit => ?_⟩
  rw [hdepth options cache hle hlimit, resultOf, if_pos rfl]
  rfl

end Parser

end Packrat
