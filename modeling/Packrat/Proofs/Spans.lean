import Packrat.Proofs.Invariant
import Packrat.Proofs.Terminal
import Packrat.Proofs.Tiling

/-!
# What outcomes span

A match reaches from its position to its stop, within the input, and so does its node, which is
lossless; without a node it is empty. A failure lies at its position or further on, within the input
(`Grammar.Yields.spans`). The proof goes through the constructs one by one; for sequences and
repetitions the invariant is that the nodes gathered so far tile what has been matched
(`Gathered`).
-/

set_option autoImplicit false

namespace Packrat

/-- Where an outcome lies that comes of matching at `pos` in an input of `bound` atoms. -/
def Outcome.Spans (bound pos : Nat) : Outcome → Prop
  | success stop none => stop = pos ∧ stop ≤ bound
  | success stop (some node) => node.start = pos ∧ node.stop = stop ∧ node.Lossless bound
  | failure f => pos ≤ f.position ∧ f.position ≤ bound

namespace Outcome

variable {bound pos stop : Nat}

theorem Spans.le {node? : Option Node} (h : (success stop node?).Spans bound pos) :
    pos ≤ stop ∧ stop ≤ bound := by
  cases node? with
  | none =>
    obtain ⟨rfl, h⟩ := h
    exact ⟨Nat.le_refl _, h⟩
  | some node =>
    obtain ⟨rfl, rfl, h⟩ := h
    exact ⟨h.whole.le, h.whole.bounded⟩

theorem spans_nothing (h : pos ≤ bound) : (nothing pos).Spans bound pos := ⟨rfl, h⟩

theorem spans_terminal (hle : pos ≤ stop) (h : stop ≤ bound) :
    (terminal pos stop).Spans bound pos := by
  refine ⟨rfl, rfl, .intro ⟨hle, h, fun hl => absurd rfl hl, fun _ => rfl⟩ ?_⟩
  intro child hmem
  cases hmem

theorem Spans.merge {f g : Failure} (hf : (failure f).Spans bound pos)
    (hg : (failure g).Spans bound pos) : (failure (f.merge g)).Spans bound pos := by
  have hmax := Failure.position_merge f g
  obtain ⟨hf, hf'⟩ := hf
  obtain ⟨hg, hg'⟩ := hg
  refine ⟨?_, ?_⟩ <;> omega

/-- A rule spans what its body spans. Where the body's node gives way to its children, they tile
what it spanned. -/
theorem Spans.rule {outcome : Outcome} (h : outcome.Spans bound pos) (name : String)
    (alternative : Option Nat) :
    (Context.ruleOutcome name pos alternative outcome).Spans bound pos := by
  rcases outcome with ⟨stop, _ | body⟩ | f
  · obtain ⟨rfl, h⟩ := h
    refine ⟨rfl, rfl, .intro ⟨Nat.le_refl _, h, fun _ => rfl, nofun⟩ ?_⟩
    intro child hmem
    cases hmem
  · obtain ⟨rfl, rfl, h⟩ := h
    have hwhole := h.whole
    have adopted (hl : body.label ≠ .terminal) :
        Node.Lossless bound
          ⟨.rule name, body.start, body.stop, body.children, alternative⟩ :=
      .intro ⟨hwhole.le, hwhole.bounded, fun _ => hwhole.tiled hl, nofun⟩ h.children
    have kept : Node.Lossless bound
        ⟨.rule name, body.start, body.stop, [body], alternative⟩ := by
      refine .intro ⟨hwhole.le, hwhole.bounded, fun _ => ⟨rfl, rfl⟩, nofun⟩ ?_
      intro child hmem
      rw [List.mem_singleton.1 hmem]
      exact h
    refine ⟨rfl, rfl, ?_⟩
    unfold Context.ruleNode
    cases hl : body.label <;> simp only [hl]
    · exact kept
    · exact kept
    · exact adopted (by simp [hl])
    · exact adopted (by simp [hl])
  · exact h

end Outcome

/-! ## Gathered nodes -/

/-- The nodes gathered between two positions, the last one first, are lossless and tile the atoms
between them. -/
structure Gathered (bound start pos : Nat) (children : List Node) : Prop where
  le : start ≤ pos
  bounded : pos ≤ bound
  tiled : Node.Tile children.reverse start pos
  lossless : ∀ child ∈ children, child.Lossless bound

namespace Gathered

variable {bound start pos stop : Nat} {children : List Node}

theorem nil (h : pos ≤ bound) : Gathered bound pos pos [] where
  le := Nat.le_refl _
  bounded := h
  tiled := rfl
  lossless := nofun

/-- One more outcome is gathered. One without a node leaves no gap, as it is empty. -/
theorem push (h : Gathered bound start pos children) {node? : Option Node}
    (ho : (Outcome.success stop node?).Spans bound pos) :
    Gathered bound start stop (node?.toList ++ children) := by
  have hle := ho.le
  have hstart := h.le
  cases node? with
  | none =>
    obtain ⟨rfl, -⟩ := ho
    exact h
  | some node =>
    obtain ⟨hnode, hstop, hlossless⟩ := ho
    refine ⟨by omega, hle.2, ?_, ?_⟩
    · rw [Option.toList_some, List.singleton_append, List.reverse_cons, Node.tile_append]
      exact ⟨pos, h.tiled, hnode, hstop⟩
    · rw [Option.toList_some, List.singleton_append, List.forall_mem_cons]
      exact ⟨hlossless, h.lossless⟩

theorem spans (h : Gathered bound start pos children) {label : Label} (hl : label ≠ .terminal)
    (alternative : Option Nat) :
    (Outcome.success pos (some ⟨label, start, pos, children.reverse, alternative⟩)).Spans
      bound start := by
  refine ⟨rfl, rfl, .intro ⟨h.le, h.bounded, fun _ => h.tiled, fun he => absurd he hl⟩ ?_⟩
  intro child hmem
  exact h.lossless child (List.mem_reverse.1 hmem)

end Gathered

/-! ## The constructs -/

/-- The outcome of an evaluation, if there is one, spans what it should. -/
def Placed (bound : Nat) (_ : Expr) (pos : Nat) : Except String Outcome → Prop
  | .ok outcome => pos ≤ bound → outcome.Spans bound pos
  | .error _ => True

namespace Script

variable {input : Input} {expr : Expr} {pos : Nat}

theorem placed_fail {place : Nat}
    (h : pos ≤ input.length → pos ≤ place ∧ place ≤ input.length) (expected : String) :
    (fail place expected).Ensures (Placed input.length) (Placed input.length expr pos) :=
  ensures_fail.2 h

theorem placed_literal (text : String) :
    (ofLiteral input text pos).Ensures (Placed input.length) (Placed input.length expr pos) := by
  unfold ofLiteral
  simp only
  split
  · intro h
    have hle := Input.agreement_le h text.toList
    exact Outcome.spans_terminal (by omega) hle
  · refine placed_fail (fun h => ?_) _
    have := Input.agreement_le h text.toList
    omega

theorem placed_atom (test : Char → Bool) (expected : String) :
    (ofAtom input test expected pos).Ensures (Placed input.length)
      (Placed input.length expr pos) := by
  unfold ofAtom
  split
  · next ht =>
    intro _
    obtain ⟨c, hc, -⟩ := (Option.any_eq_true _ _).1 ht
    have hlt := Input.lt_length_of_atom? hc
    exact Outcome.spans_terminal (by omega) hlt
  · exact placed_fail (fun h => ⟨Nat.le_refl _, h⟩) _

theorem placed_end :
    (ofEnd input pos).Ensures (Placed input.length) (Placed input.length expr pos) := by
  unfold ofEnd
  split
  · exact Outcome.spans_nothing
  · exact placed_fail (fun h => ⟨Nat.le_refl _, h⟩) _

theorem placed_pattern (pattern : Pattern) :
    (ofPattern input pattern pos).Ensures (Placed input.length)
      (Placed input.length expr pos) := by
  unfold ofPattern
  split
  · next length hlength =>
    intro h
    have hle := Pattern.matchLength?_le hlength
    rw [Input.rest_length] at hle
    exact Outcome.spans_terminal (by omega) (by omega)
  · exact placed_fail (fun h => ⟨Nat.le_refl _, h⟩) _

theorem placed_sequence {start : Nat} {children : List Node} (exprs : List Expr)
    (h : start ≤ input.length → Gathered input.length start pos children) :
    (ofSequence input start exprs pos children).Ensures (Placed input.length)
      (Placed input.length expr start) := by
  induction exprs generalizing pos children with
  | nil =>
    intro hstart
    have hgathered := h hstart
    exact hgathered.spans (by simp) none
  | cons expr' exprs ih =>
    refine ⟨fun outcome ho => ?_, fun _ _ => trivial⟩
    cases outcome with
    | success stop node? =>
      refine ih fun hstart => ?_
      have hgathered := h hstart
      have hspans := ho hgathered.bounded
      rw [Input.clamp_of_le hspans.le.2]
      exact hgathered.push hspans
    | failure failure =>
      intro hstart
      have hgathered := h hstart
      have hspans := ho hgathered.bounded
      exact ⟨Nat.le_trans hgathered.le hspans.1, hspans.2⟩

theorem placed_choice (exprs : List Expr) (index : Nat) {failure? : Option Failure}
    (h : pos ≤ input.length → ∀ failure, failure? = some failure →
      (Outcome.failure failure).Spans input.length pos)
    {post : Except String (Outcome × Nat) → Prop}
    (hok : ∀ outcome index, (pos ≤ input.length → outcome.Spans input.length pos) →
      post (.ok (outcome, index)))
    (herror : ∀ name, post (.error name)) :
    (ofChoice pos exprs index failure?).Ensures (Placed input.length) post := by
  induction exprs generalizing index failure? with
  | nil =>
    refine hok _ _ fun hpos => ?_
    cases failure? with
    | none => exact ⟨Nat.le_refl _, hpos⟩
    | some failure => exact h hpos failure rfl
  | cons expr' exprs ih =>
    refine ⟨fun outcome ho => ?_, fun name _ => herror name⟩
    cases outcome with
    | success stop node? => exact hok _ _ ho
    | failure failure =>
      refine ih (index + 1) fun hpos merged hmerged => ?_
      have hspans := ho hpos
      cases failure? with
      | none =>
        cases hmerged
        exact hspans
      | some before =>
        cases hmerged
        exact (h hpos before rfl).merge hspans

theorem placed_alternatives (exprs : List Expr) {post : Except String (Outcome × Nat) → Prop}
    (hok : ∀ outcome index, (pos ≤ input.length → outcome.Spans input.length pos) →
      post (.ok (outcome, index)))
    (herror : ∀ name, post (.error name)) :
    (ofChoice pos exprs 0 none).Ensures (Placed input.length) post := by
  refine placed_choice exprs 0 (fun _ failure h => ?_) hok herror
  cases h

theorem placed_repeated {start : Nat} {children : List Node}
    (h : start ≤ input.length → Gathered input.length start pos children) :
    (repeated start pos children).Ensures (Placed input.length)
      (Placed input.length expr start) := by
  intro hstart
  have hgathered := h hstart
  exact hgathered.spans (by simp) none

theorem placed_repetition {start attempts : Nat} {children : List Node} (expr' : Expr)
    (h : start ≤ input.length → Gathered input.length start pos children) :
    (ofRepetition input expr' start attempts pos children).Ensures (Placed input.length)
      (Placed input.length expr start) := by
  induction attempts generalizing pos children with
  | zero => exact placed_repeated h
  | succ attempts ih =>
    refine ⟨fun outcome ho => ?_, fun _ _ => trivial⟩
    cases outcome with
    | success stop node? =>
      simp only
      split
      · exact placed_repeated h
      · refine ih fun hstart => ?_
        have hgathered := h hstart
        have hspans := ho hgathered.bounded
        rw [Input.clamp_of_le hspans.le.2]
        exact hgathered.push hspans
    | failure failure => exact placed_repeated h

theorem gathered_first {stop : Nat} {node? : Option Node}
    (h : Placed input.length expr pos (.ok (.success stop node?))) (hpos : pos ≤ input.length) :
    Gathered input.length pos (input.clamp stop) node?.toList := by
  have hspans := h hpos
  rw [Input.clamp_of_le hspans.le.2, ← List.append_nil node?.toList]
  exact (Gathered.nil hpos).push hspans

theorem placed_expr (input : Input) (expr : Expr) (pos : Nat) :
    (ofExpr input expr pos).Ensures (Placed input.length) (Placed input.length expr pos) := by
  cases expr with
  | literal text => exact placed_literal text
  | oneIn cls => exact placed_atom _ _
  | any => exact placed_atom _ _
  | endOfInput => exact placed_end
  | regex pattern => exact placed_pattern pattern
  | sequence exprs => exact placed_sequence exprs Gathered.nil
  | choice exprs =>
    refine ensures_map.2 (placed_alternatives exprs ?_ fun _ => trivial)
    intro outcome index h
    exact h
  | zeroOrMore expr => exact placed_repetition expr Gathered.nil
  | oneOrMore expr =>
    refine ⟨fun outcome ho => ?_, fun _ _ => trivial⟩
    cases outcome with
    | success stop node? =>
      simp only
      split
      · next hstop =>
        -- a first round that matches nothing ends the repetition, and its node is kept
        refine placed_repeated fun hpos => ?_
        have hgathered := gathered_first ho hpos
        rwa [hstop, Input.clamp_of_le hpos] at hgathered
      · exact placed_repetition expr (gathered_first ho)
    | failure failure => exact ho
  | optional expr =>
    refine ⟨fun outcome ho => ?_, fun _ _ => trivial⟩
    cases outcome with
    | success stop node? => exact ho
    | failure failure => exact Outcome.spans_nothing
  | followedBy expr =>
    refine ⟨fun outcome _ => ?_, fun _ _ => trivial⟩
    cases outcome.isSuccess with
    | true => exact Outcome.spans_nothing
    | false => exact placed_fail (fun h => ⟨Nat.le_refl _, h⟩) _
  | notFollowedBy expr =>
    refine ⟨fun outcome _ => ?_, fun _ _ => trivial⟩
    cases outcome.isSuccess with
    | true => exact placed_fail (fun h => ⟨Nat.le_refl _, h⟩) _
    | false => exact Outcome.spans_nothing
  | ruleRef name => exact ⟨fun _ ho => ho, fun _ _ => trivial⟩

theorem placed_body (input : Input) (name : String) (body : Expr) (pos : Nat) :
    (ofBody name body pos).Ensures (Placed input.length)
      (Placed input.length (.ruleRef name) pos) := by
  refine ensures_body (fun exprs _ => placed_alternatives exprs ?_ fun _ => trivial) ?_
    fun _ _ => trivial
  · intro outcome index h hpos
    exact (h hpos).rule name _
  · intro outcome ho hpos
    exact (ho hpos).rule name none

end Script

/-- **Outcomes of plain evaluation span what they should.** -/
theorem Grammar.Yields.spans {grammar : Grammar} {input : Input} {expr : Expr} {pos : Nat}
    {answer : Answer Outcome} (h : grammar.Yields input expr pos answer)
    (hpos : pos ≤ input.length) {outcome : Outcome} (hv : answer.value = .ok outcome) :
    outcome.Spans input.length pos := by
  have hplaced : Placed input.length expr pos answer.value :=
    h.induction (fun expr pos _ => Script.placed_expr input expr pos)
      (fun name rule pos _ => Script.placed_body input name rule.body pos) (fun _ _ _ => trivial)
  rw [hv] at hplaced
  exact hplaced hpos

end Packrat
