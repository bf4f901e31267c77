import Packrat.Node

/-!
# Trees without gaps

A list of nodes tiles a span if each node starts where the one before it stops. A tree is lossless
if each of its nodes but the terminals is tiled by its children. The leaves of such a tree then
carry all of its text (`Lossless.leaves_text`), and the tree has a text and a printed form
(`Lossless.text?_eq`, `Lossless.print?_isSome`).
-/

set_option autoImplicit false

namespace Packrat

namespace Node

/-- The nodes follow one another without a gap from `start` to `stop`. -/
def Tile : List Node → (start stop : Nat) → Prop
  | [], start, stop => start = stop
  | node :: nodes, start, stop => node.start = start ∧ Tile nodes node.stop stop

theorem tile_append {nodes nodes' : List Node} {start stop : Nat} :
    Tile (nodes ++ nodes') start stop ↔
      ∃ middle, Tile nodes start middle ∧ Tile nodes' middle stop := by
  induction nodes generalizing start with
  | nil => simp [Tile]
  | cons node nodes ih =>
    simp only [List.cons_append, Tile, ih]
    constructor
    · rintro ⟨hstart, middle, h, h'⟩
      exact ⟨middle, ⟨hstart, h⟩, h'⟩
    · rintro ⟨middle, ⟨hstart, h⟩, h'⟩
      exact ⟨hstart, middle, h, h'⟩

/-- The node stands in the input, and in one piece: a terminal has no children, and any other node
is tiled by its children. A childless node that is no terminal is thus empty. -/
structure Whole (bound : Nat) (node : Node) : Prop where
  le : node.start ≤ node.stop
  bounded : node.stop ≤ bound
  tiled : node.label ≠ .terminal → Tile node.children node.start node.stop
  childless : node.label = .terminal → node.children = []

/-- All nodes of the tree stand in an input of `bound` atoms and are in one piece. -/
inductive Lossless (bound : Nat) : Node → Prop
  | intro {node : Node} (whole : node.Whole bound)
      (children : ∀ child ∈ node.children, Lossless bound child) : Lossless bound node

/-- The node occurs in the tree: it is the root, or it occurs in a child. -/
inductive OccursIn (node : Node) : Node → Prop
  | root : OccursIn node node
  | child {tree inner : Node} (hmem : inner ∈ tree.children) (h : OccursIn node inner) :
      OccursIn node tree

theorem OccursIn.trans {node inner tree : Node} (h : node.OccursIn inner)
    (h' : inner.OccursIn tree) : node.OccursIn tree := by
  induction h' with
  | root => exact h
  | child hmem _ ih => exact .child hmem ih

namespace Lossless

variable {bound : Nat} {node tree : Node}

theorem whole (h : tree.Lossless bound) : tree.Whole bound := by
  cases h
  assumption

theorem children (h : tree.Lossless bound) : ∀ child ∈ tree.children, child.Lossless bound := by
  cases h
  assumption

theorem of_occursIn (h : tree.Lossless bound) (ho : node.OccursIn tree) : node.Lossless bound := by
  induction ho with
  | root => exact h
  | child hmem _ ih => exact ih (h.children _ hmem)

end Lossless

end Node

/-! ## Texts -/

namespace Input

variable {input : Input} {a b c : Nat}

/-- The text between two positions. -/
def between (input : Input) (a b : Nat) : String := String.ofList (input.atoms.extract a b).toList

theorem between_self : input.between a a = "" := by
  simp [between]

theorem between_append (hab : a ≤ b) (hbc : b ≤ c) :
    input.between a b ++ input.between b c = input.between a c := by
  unfold between
  rw [← String.ofList_append, ← Array.toList_append, Array.extract_append_extract,
    Nat.min_eq_left hab, Nat.max_eq_right hbc]

theorem slice?_eq_between (h : a ≤ b) : input.slice? a b = some (input.between a b) := by
  have hclamp : input.clamp a ≤ input.clamp b := by
    unfold clamp
    omega
  rw [slice?, if_pos hclamp, between]

end Input

namespace Node

variable {bound : Nat} {node : Node} {input : Input}

/-! ## Leaves -/

theorem leaves_of_childless (h : node.children = []) : node.leaves = [node] := by
  obtain ⟨label, start, stop, children, alternative⟩ := node
  cases h
  rfl

theorem leaves_of_children (h : node.children ≠ []) : node.leaves = leavesOf node.children := by
  obtain ⟨label, start, stop, _ | ⟨child, children⟩, alternative⟩ := node
  · exact absurd rfl h
  · rfl

/-- The texts of nodes, one after the other. -/
def textOf? (nodes : List Node) (input : Input) : Option String :=
  (nodes.mapM fun node : Node => node.text? input).map String.join

theorem textOf?_singleton : textOf? [node] input = node.text? input := by
  unfold textOf?
  cases h : node.text? input <;> simp [h, String.join_cons]

theorem textOf?_append {nodes nodes' : List Node} {text text' : String}
    (h : textOf? nodes input = some text) (h' : textOf? nodes' input = some text') :
    textOf? (nodes ++ nodes') input = some (text ++ text') := by
  obtain ⟨texts, htexts, rfl⟩ := Option.map_eq_some_iff.1 h
  obtain ⟨texts', htexts', rfl⟩ := Option.map_eq_some_iff.1 h'
  unfold textOf?
  rw [List.mapM_append, htexts, htexts']
  simp [String.join_append]

/-- Nodes that tile a span, each with its text in its leaves, have the text of the span. -/
theorem leavesOf_text {nodes : List Node} {start stop : Nat} (htile : Tile nodes start stop)
    (hle : ∀ node ∈ nodes, node.start ≤ node.stop)
    (htext : ∀ node ∈ nodes,
      textOf? node.leaves input = some (input.between node.start node.stop)) :
    start ≤ stop ∧ textOf? (leavesOf nodes) input = some (input.between start stop) := by
  induction nodes generalizing start with
  | nil =>
    cases htile
    exact ⟨Nat.le_refl _, by rw [Input.between_self]; rfl⟩
  | cons node nodes ih =>
    obtain ⟨rfl, htile⟩ := htile
    rw [List.forall_mem_cons] at hle htext
    obtain ⟨hstop, hrest⟩ := ih htile hle.2 htext.2
    have hle := hle.1
    refine ⟨by omega, ?_⟩
    rw [leavesOf, textOf?_append htext.1 hrest, Input.between_append hle hstop]

namespace Lossless

theorem text?_eq (h : node.Lossless bound) (input : Input) :
    node.text? input = some (input.between node.start node.stop) :=
  Input.slice?_eq_between h.whole.le

/-- **The leaves carry all of the text** of a lossless tree. -/
theorem leaves_text (h : node.Lossless bound) (input : Input) :
    textOf? node.leaves input = some (input.between node.start node.stop) := by
  induction h with
  | @intro node whole children ih =>
    by_cases hc : node.children = []
    · rw [leaves_of_childless hc, textOf?_singleton]
      exact Input.slice?_eq_between whole.le
    · have hlabel : node.label ≠ .terminal := fun hl => hc (whole.childless hl)
      have hle : ∀ child ∈ node.children, child.start ≤ child.stop :=
        fun child hmem => (children child hmem).whole.le
      rw [leaves_of_children hc]
      exact (leavesOf_text (whole.tiled hlabel) hle ih).2

end Lossless

/-! ## Printed forms -/

theorem printAll?_isSome {nodes : List Node} (h : ∀ node ∈ nodes, (print? input node).isSome)
    (before : String) : (printAll? input before nodes).isSome := by
  induction nodes generalizing before with
  | nil => rfl
  | cons node nodes ih =>
    rw [List.forall_mem_cons] at h
    obtain ⟨printed, hprinted⟩ := Option.isSome_iff_exists.1 h.1
    rw [printAll?, hprinted]
    exact ih h.2 _

theorem Lossless.print?_isSome (h : node.Lossless bound) (input : Input) :
    (print? input node).isSome := by
  induction h with
  | @intro node whole children ih =>
    obtain ⟨label, start, stop, children, alternative⟩ := node
    have hslice := @Input.slice?_eq_between input start stop whole.le
    obtain ⟨printed, hprinted⟩ := Option.isSome_iff_exists.1 (printAll?_isSome ih
      ("(" ++ label.text ++ ", " ++ alternativeText alternative ++
        Text.quoted (input.between start stop)))
    simp [print?, hslice, hprinted]

end Node

end Packrat
