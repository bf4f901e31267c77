import Packrat.Input
import Packrat.Text.Quoted

/-!
# Parse trees

A node spans the atoms from its start up to its stop. The children of a node stand in the order of
the input; constructs that match nothing and build nothing leave no child.
-/

set_option autoImplicit false

namespace Packrat

/-- What a node stands for. -/
inductive Label
  /-- One application of the named rule. -/
  | rule (name : String)
  /-- Atoms matched by a literal, a class or a regular expression. -/
  | terminal
  /-- A sequence that is not the whole body of a rule. -/
  | sequence
  /-- A repetition that is not the whole body of a rule. -/
  | repetition
  deriving DecidableEq, Repr

namespace Label

/-- The name of the rule that a rule's label names. -/
def ruleName? : Label → Option String
  | rule name => some name
  | _ => none

/-- The label in print. -/
def text : Label → String
  | rule name => name
  | terminal => "Terminal"
  | sequence => "Sequence"
  | repetition => "Repetition"

end Label

/-- A parse tree. -/
structure Node where
  label : Label
  /-- The position before the first atom. -/
  start : Nat
  /-- The position after the last atom. -/
  stop : Nat
  children : List Node := []
  /-- For a rule that is defined as an ordered choice, the index of the alternative that
  matched. -/
  alternative : Option Nat := none

namespace Node

/-- The number of atoms of the node. -/
def length (node : Node) : Nat := node.stop - node.start

/-- Whether the node spans no atom. -/
def isEmpty (node : Node) : Bool := node.start = node.stop

/-- The name of the rule whose application the node is. -/
def ruleName? (node : Node) : Option String := node.label.ruleName?

/-- The text that the node spans. -/
def text? (node : Node) (input : Input) : Option String := input.slice? node.start node.stop

mutual

/-- Whether two trees are the same. -/
def decEq : (a b : Node) → Decidable (a = b)
  | ⟨la, sa, ta, ca, aa⟩, ⟨lb, sb, tb, cb, ab⟩ =>
    if h : la = lb ∧ sa = sb ∧ ta = tb ∧ aa = ab then
      match decEqList ca cb with
      | isTrue hc => isTrue (by obtain ⟨rfl, rfl, rfl, rfl⟩ := h; rw [hc])
      | isFalse hc => isFalse fun e => hc (by injection e)
    else isFalse fun e => h (by injection e with h₁ h₂ h₃ _ h₄; exact ⟨h₁, h₂, h₃, h₄⟩)

/-- Whether two lists of trees are the same. -/
def decEqList : (as bs : List Node) → Decidable (as = bs)
  | [], [] => isTrue rfl
  | [], _ :: _ => isFalse nofun
  | _ :: _, [] => isFalse nofun
  | a :: as, b :: bs =>
    match decEq a b, decEqList as bs with
    | isTrue h, isTrue hs => isTrue (by rw [h, hs])
    | isFalse h, _ => isFalse fun e => h (List.cons.inj e).1
    | _, isFalse hs => isFalse fun e => hs (List.cons.inj e).2

end

instance : DecidableEq Node := decEq

mutual

/-- The nodes without children, in the order of the input. -/
def leaves : Node → List Node
  | ⟨label, start, stop, [], alternative⟩ => [⟨label, start, stop, [], alternative⟩]
  | ⟨_, _, _, child :: children, _⟩ => leaves child ++ leavesOf children

/-- The nodes without children in a list of trees. -/
def leavesOf : List Node → List Node
  | [] => []
  | node :: nodes => leaves node ++ leavesOf nodes

end

mutual

/-- The outermost applications of the named rule, in the order of the input. -/
def findAll (name : String) : Node → List Node
  | ⟨label, start, stop, children, alternative⟩ =>
    if label = .rule name then [⟨label, start, stop, children, alternative⟩]
    else findAllIn name children

/-- The outermost applications of the named rule in a list of trees. -/
def findAllIn (name : String) : List Node → List Node
  | [] => []
  | node :: nodes => findAll name node ++ findAllIn name nodes

end

/-! ## Sizes of parts -/

section
variable {name : String} {node part found : Node}

theorem findAll_of_label (h : node.label = .rule name) : node.findAll name = [node] := by
  obtain ⟨label, start, stop, children, alternative⟩ := node
  exact if_pos h

theorem findAll_of_ne (h : node.label ≠ .rule name) :
    node.findAll name = findAllIn name node.children := by
  obtain ⟨label, start, stop, children, alternative⟩ := node
  exact if_neg h

theorem sizeOf_children_lt (node : Node) : sizeOf node.children < sizeOf node := by
  obtain ⟨label, start, stop, children, alternative⟩ := node
  simp only [Node.mk.sizeOf_spec]
  omega

theorem sizeOf_lt_of_getElem? {index : Nat} (h : node.children[index]? = some part) :
    sizeOf part < sizeOf node :=
  Nat.lt_trans (List.sizeOf_lt_of_mem (List.mem_of_getElem? h)) node.sizeOf_children_lt

mutual

/-- What is found in a tree is no larger than the tree. -/
theorem sizeOf_le_of_mem_findAll : (node : Node) → found ∈ node.findAll name →
    sizeOf found ≤ sizeOf node
  | ⟨label, start, stop, children, alternative⟩, h => by
    by_cases hl : label = .rule name
    · rw [findAll, if_pos hl, List.mem_singleton] at h
      exact Nat.le_of_eq (congrArg sizeOf h)
    · rw [findAll, if_neg hl] at h
      have hlt := sizeOf_lt_of_mem_findAllIn children h
      simp only [Node.mk.sizeOf_spec]
      omega

/-- What is found in a list of trees is smaller than the list. -/
theorem sizeOf_lt_of_mem_findAllIn : (nodes : List Node) → found ∈ findAllIn name nodes →
    sizeOf found < sizeOf nodes
  | [], h => nomatch h
  | node :: nodes, h => by
    simp only [List.cons.sizeOf_spec]
    rcases List.mem_append.1 h with h | h
    · have hle := sizeOf_le_of_mem_findAll node h
      omega
    · have hlt := sizeOf_lt_of_mem_findAllIn nodes h
      omega

end

/-- What is found in a node of another rule is a part of it. -/
theorem sizeOf_lt_of_mem_findAll (hlabel : node.label ≠ .rule name)
    (h : found ∈ node.findAll name) : sizeOf found < sizeOf node := by
  rw [findAll_of_ne hlabel] at h
  exact Nat.lt_trans (sizeOf_lt_of_mem_findAllIn _ h) node.sizeOf_children_lt

theorem ruleName?_eq_some : node.ruleName? = some name ↔ node.label = .rule name := by
  unfold ruleName? Label.ruleName?
  cases node.label <;> simp

end

/-! ## Trees in print -/

/-- The index of an alternative in print. -/
def alternativeText : Option Nat → String
  | some index => s!"alt={index}, "
  | none => ""

mutual

/-- The tree on one line: `(label, alt=N, "text", children...)`. -/
def print? (input : Input) : Node → Option String
  | ⟨label, start, stop, children, alternative⟩ => do
    let text ← input.slice? start stop
    let opening := "(" ++ label.text ++ ", " ++ alternativeText alternative ++ Text.quoted text
    return (← printAll? input opening children) ++ ")"

/-- A text continued by the printed forms of a list of trees, each after a comma. -/
def printAll? (input : Input) (before : String) : List Node → Option String
  | [] => some before
  | node :: nodes => do
    printAll? input (before ++ ", " ++ (← print? input node)) nodes

end

end Node

end Packrat
