import Packrat.Proofs.Construction
import Packrat.Proofs.RuleNodes
import Packrat.Sample.Grammars

/-!
# The alternative that a node records

A choice comes to the first of its alternatives that matches: that one matches, and those before it
fail (`Grammar.Wins`). The node of a rule that is defined as a choice records the index of this
alternative, and every other node records none (`Parser.alternative_recorded`), with one exception:
of more than 65536 alternatives those from there on leave a node that looks as if there had been no
choice (`Parser.alternative_unrecorded`).
-/

set_option autoImplicit false

namespace Packrat

/-- The alternatives of an expression that is a choice. -/
def Expr.alternatives? : Expr → Option (List Expr)
  | choice exprs => some exprs
  | _ => none

/-- The alternatives of the rule that the label names, if the rule is defined as a choice. -/
def Grammar.alternatives? (grammar : Grammar) (label : Label) : Option (List Expr) :=
  (label.ruleName?.bind grammar.rule?).bind fun rule => rule.body.alternatives?

/-- The alternative at the index is the first to match at the position, and it matches up to
`stop`. -/
structure Grammar.Wins (grammar : Grammar) (input : Input) (exprs : List Expr)
    (index pos stop : Nat) : Prop where
  matched : ∃ alternative node?, exprs[index]? = some alternative ∧
    grammar.Matches input alternative pos stop node?
  failed : ∀ earlier ∈ exprs.take index, ∃ failure,
    grammar.Produces input earlier pos (.ok (.failure failure))

/-- The node records the index of the first alternative to match if there are alternatives, as far
as an index is recorded, and nothing otherwise. -/
def Grammar.Records (grammar : Grammar) (input : Input) (node : Node) : Option (List Expr) → Prop
  | some exprs => ∃ index, grammar.Wins input exprs index node.start node.stop ∧
      node.alternative = Context.recordedIndex index
  | none => node.alternative = none

variable {grammar : Grammar} {input : Input}

/-! ## The alternative that wins -/

namespace Grammar

variable {expr : Expr} {exprs : List Expr} {pos stop : Nat}

theorem Wins.here {node? : Option Node} (h : grammar.Matches input expr pos stop node?) :
    grammar.Wins input (expr :: exprs) 0 pos stop where
  matched := ⟨expr, node?, rfl, h⟩
  failed := nofun

theorem Wins.later {index : Nat} {failure : Failure}
    (hfails : grammar.Produces input expr pos (.ok (.failure failure)))
    (h : grammar.Wins input exprs index pos stop) :
    grammar.Wins input (expr :: exprs) (index + 1) pos stop where
  matched := h.matched
  failed := by
    rw [List.take_succ_cons, List.forall_mem_cons]
    exact ⟨⟨failure, hfails⟩, h.failed⟩

end Grammar

/-- A choice that matches has a first alternative that does. The induction is on the alternatives
that are left, which are counted from `index`. -/
theorem Script.choice_won {pos : Nat} (exprs : List Expr) (index : Nat)
    (failure? : Option Failure) :
    (ofChoice pos exprs index failure?).Ensures (grammar.Produces input) fun value =>
      ∀ stop node? winner, value = .ok (.success stop node?, winner) →
        ∃ later, winner = index + later ∧ grammar.Wins input exprs later pos stop := by
  induction exprs generalizing index failure? with
  | nil =>
    intro stop node? winner hv
    cases hv
  | cons expr exprs ih =>
    refine ⟨fun outcome ho => ?_, fun name _ stop node? winner hv => by cases hv⟩
    cases outcome with
    | success stop node? =>
      intro stop' node?' winner hv
      cases hv
      exact ⟨0, rfl, .here ho⟩
    | failure failure =>
      apply (ih (index + 1) _).imp
      intro value hvalue stop node? winner hv
      obtain ⟨later, rfl, hwins⟩ := hvalue stop node? winner hv
      exact ⟨later + 1, by omega, hwins.later ho⟩

theorem Script.records_body {stop : Nat} {node : Node} (name : String) (body : Expr) (pos : Nat) :
    (ofBody name body pos).Ensures (grammar.Produces input) fun value =>
      value = .ok (.success stop (some node)) →
        grammar.Records input node body.alternatives? := by
  cases body with
  | choice exprs =>
    refine ensures_map.2 ((choice_won exprs 0 none).imp fun value hwon hv => ?_)
    rcases value with _ | ⟨_ | _, index⟩ <;> cases hv
    obtain ⟨later, rfl, hwins⟩ := hwon _ _ index rfl
    rw [Nat.zero_add]
    exact ⟨later, hwins, rfl⟩
  | _ =>
    refine ensures_map.2 ⟨fun outcome _ hv => ?_, fun _ _ hv => nomatch hv⟩
    cases outcome <;> cases hv
    rfl

namespace Grammar

theorem Produces.records {name : String} {pos stop : Nat} {node : Node}
    (h : grammar.Produces input (.ruleRef name) pos (.ok (.success stop (some node)))) :
    grammar.Records input node (grammar.alternatives? (.rule name)) := by
  obtain ⟨rule, hr⟩ := h.exists_rule
  obtain ⟨answer, hy, hv⟩ := h
  obtain ⟨body, hbody, rfl⟩ := hy.exists_body hr
  have hrecords := (Script.records_body name rule.body pos).of_yields hbody hv
  unfold alternatives? Label.ruleName?
  rw [Option.bind_some, hr, Option.bind_some]
  exact hrecords

theorem imposes_records :
    grammar.Imposes input fun node => grammar.Records input node (grammar.alternatives? node.label)
    where
  plain node hl ha := by
    have hnone : grammar.alternatives? node.label = none := by
      unfold alternatives? Label.ruleName?
      cases h : node.label with
      | rule name => exact absurd h (hl name)
      | _ => rfl
    rw [hnone]
    exact ha
  rule name node hl hp := by
    rw [hl]
    exact hp.records

end Grammar

/-! ## What the engine finds -/

/-- What holds of each element given enough depth holds of all of them given enough. -/
theorem exists_depth_forall_mem {α : Type} {P : α → Options → Prop} (l : List α)
    (h : ∀ a ∈ l, ∃ depth, ∀ options : Options, depth ≤ options.maxDepth → P a options) :
    ∃ depth, ∀ options : Options, depth ≤ options.maxDepth → ∀ a ∈ l, P a options := by
  induction l with
  | nil => exact ⟨0, fun _ _ _ hmem => nomatch hmem⟩
  | cons a l ih =>
    rw [List.forall_mem_cons] at h
    obtain ⟨d, hd⟩ := h.1
    obtain ⟨d', hd'⟩ := ih h.2
    refine ⟨max d d', fun options hdepth => ?_⟩
    rw [List.forall_mem_cons]
    exact ⟨hd options (by omega), hd' options (by omega)⟩

theorem Context.matchExpr_of_produces {expr : Expr} (cursor : Cursor input) {outcome : Outcome}
    (h : grammar.Produces input expr cursor.position (.ok outcome)) :
    ∃ depth, ∀ options : Options, depth ≤ options.maxDepth →
      (matchExpr ⟨grammar, input, options⟩ expr cursor {}).1 = .ok outcome := by
  obtain ⟨answer, hy, hv⟩ := h
  obtain ⟨depth, hmatch⟩ := evaluate_of_yields hy
  refine ⟨depth, fun options hd => ?_⟩
  have hempty : ({} : Session).cache.Sound grammar input := Cache.sound_empty
  rw [← Answer.result_ok hv]
  exact (hmatch options.maxDepth hd options {} hempty).1

namespace Parser

/-- **The winning alternative is recorded**, as far as an index is recorded. A node of a rule that
is defined as a choice has the index of an alternative that, matched at the node's start, succeeds
up to its stop, while all alternatives before it fail there; an index from 65536 on is left out.
Every other node has no index. -/
theorem alternative_recorded {parser : Parser} {start : String} {cache : Cache}
    {result : ParseResult} {tree : Node}
    (h : (parser.parseWithCache start input cache).result = .ok result)
    (ht : result.tree? = some tree) {node : Node} (ho : node.OccursIn tree) :
    (∀ exprs, parser.grammar.alternatives? node.label = some exprs →
      ∃ index alternative, exprs[index]? = some alternative ∧
        node.alternative = (if index < 65536 then some index else none) ∧
        ∃ (hle : node.start ≤ input.length) (depth : Nat), ∀ options : Options,
          depth ≤ options.maxDepth →
          let run (expr : Expr) :=
            (Context.matchExpr ⟨parser.grammar, input, options⟩ expr ⟨node.start, hle⟩ {}).1
          (∃ node?, run alternative = .ok (.success node.stop node?)) ∧
          ∀ earlier ∈ exprs.take index, ∃ failure, run earlier = .ok (.failure failure)) ∧
    (parser.grammar.alternatives? node.label = none → node.alternative = none) := by
  have hrecords : parser.grammar.Records input node (parser.grammar.alternatives? node.label) :=
    all_nodes_of_parse Grammar.imposes_records h ht node ho
  constructor
  · intro exprs he
    rw [he] at hrecords
    obtain ⟨index, ⟨⟨alternative, node?, hindex, hmatches⟩, hfailed⟩, ha⟩ := hrecords
    have hwhole := ((tree_of_parse h ht).2.2.1.of_occursIn ho).whole
    have hle : node.start ≤ input.length := Nat.le_trans hwhole.le hwhole.bounded
    let cursor : Cursor input := ⟨node.start, hle⟩
    obtain ⟨d, hd⟩ := Context.matchExpr_of_produces cursor hmatches
    have hfails : ∀ earlier ∈ exprs.take index, ∃ depth, ∀ options : Options,
        depth ≤ options.maxDepth → ∃ failure,
          (Context.matchExpr ⟨parser.grammar, input, options⟩ earlier cursor {}).1 =
            .ok (.failure failure) := by
      intro earlier hmem
      obtain ⟨failure, hproduces⟩ := hfailed earlier hmem
      obtain ⟨depth, hdepth⟩ := Context.matchExpr_of_produces cursor hproduces
      exact ⟨depth, fun options hle => ⟨failure, hdepth options hle⟩⟩
    obtain ⟨d', hd'⟩ := exists_depth_forall_mem (exprs.take index) hfails
    refine ⟨index, alternative, hindex, ha, hle, max d d', fun options hdepth => ?_⟩
    exact ⟨⟨node?, hd options (by omega)⟩, hd' options (by omega)⟩
  · intro he
    rwa [he] at hrecords

/-- The second alternative of a phrase. -/
theorem alternative_recorded_phrase :
    ∃ depth, ∀ d ≥ depth,
      let run (expr : Expr) := (Context.matchExpr ⟨Sample.phrases, .ofString "carf!erf",
        { memoize := false, maxDepth := d }⟩ expr .start {}).1
      (∃ node?, run (.ruleRef "carf") = .ok (.success 8 node?)) ∧
        ∃ failure, run (.sequence [.literal "barf", .literal " ", .literal "darf"]) =
          .ok (.failure failure) := by
  let erf : Node := ⟨.rule "erf", 5, 8, [⟨.terminal, 5, 8, [], none⟩], none⟩
  let carf : Node := ⟨.rule "carf", 0, 8,
    [⟨.terminal, 0, 4, [], none⟩, ⟨.terminal, 4, 5, [], none⟩, erf], none⟩
  let foo : Node := ⟨.rule "foo", 0, 8, [carf], some 1⟩
  obtain ⟨hchoice, -⟩ := @alternative_recorded (.ofString "carf!erf") ⟨Sample.phrases, {}⟩
    "foo" {} (.complete foo) foo rfl rfl foo .root
  obtain ⟨index, alternative, hindex, ha, hle, depth, hrun⟩ := hchoice _ rfl
  have hindex' : index = 1 := by
    split at ha
    · cases ha
      rfl
    · cases ha
  subst hindex'
  cases hindex
  refine ⟨depth, fun d hd => ?_⟩
  obtain ⟨hmatched, hfailed⟩ := hrun { memoize := false, maxDepth := d } hd
  exact ⟨hmatched, hfailed _ (.head _)⟩

/-- A rule whose last alternative comes after `n` others that fail. -/
theorem recorded_after (n : Nat) :
    let alternatives := List.replicate n (.literal "x") ++ [.literal "a"]
    let grammar := Sample.singleRule "r" (.choice alternatives)
    let node : Node := ⟨.rule "r", 0, 1, [⟨.terminal, 0, 1, [], none⟩], Context.recordedIndex n⟩
    grammar.Wins (.ofString "a") alternatives n 0 1 ∧
      grammar.Matches (.ofString "a") (.ruleRef "r") 0 1 (some node) := by
  intro alternatives grammar node
  have hfails : ∀ earlier ∈ List.replicate n (Expr.literal "x"),
      grammar.Derives (.ofString "a") earlier 0 .failure := by
    intro earlier hmem
    rw [List.eq_of_mem_replicate hmem]
    exact .literal_failure (by decide)
  have hmatches : grammar.Matches (.ofString "a") (.literal "a") 0 1
      (some ⟨.terminal, 0, 1, [], none⟩) := .of_script nofun ⟨_, .done _, rfl⟩
  constructor
  · refine ⟨⟨.literal "a", _, ?_, hmatches⟩, fun earlier hmem => ?_⟩
    · simp [alternatives]
    · have hmem' : earlier ∈ List.replicate n (Expr.literal "x") := by
        simpa [alternatives] using hmem
      exact (hfails earlier hmem').fails (Nat.zero_le _)
  · have hr : grammar.rule? "r" = some ⟨"r", .choice alternatives⟩ := rfl
    have hnode := Grammar.Matches.alternative hr rfl hfails hmatches (Nat.zero_le _)
    rwa [List.length_replicate] at hnode

/-- **The index of an alternative may be lost**: the last one of 65537 wins, and the node of the
rule has no index. -/
theorem alternative_unrecorded :
    let alternatives := List.replicate 65536 (.literal "x") ++ [.literal "a"]
    let grammar := Sample.singleRule "r" (.choice alternatives)
    ∃ options tree, (parse ⟨grammar, options⟩ "r" (.ofString "a")).result = .ok (.complete tree) ∧
      grammar.alternatives? tree.label = some alternatives ∧
      grammar.Wins (.ofString "a") alternatives 65536 tree.start tree.stop ∧
      tree.alternative = none := by
  intro alternatives grammar
  obtain ⟨hwins, hmatches⟩ := recorded_after 65536
  obtain ⟨furthest?, depth, hparse⟩ := parse_of_produces hmatches
  have hcomplete := hparse { maxDepth := depth, maxInputLength? := none } {} (Nat.le_refl _) nofun
  exact ⟨_, _, hcomplete, rfl, hwins, rfl⟩

end Parser

end Packrat
