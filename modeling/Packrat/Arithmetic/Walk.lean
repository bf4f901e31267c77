import Packrat.Arithmetic.Term

/-!
# Evaluation that asks for parts by position

A walk over the tree of a term takes the parts of a node by their positions and relies on the rule
of the node for what stands there, so it can be stuck on a tree that no grammar for terms gives.
There are two walkers, which come from the node of the start rule to the whole term in ways of their
own (`Entry`) and from there on do the same, in words of their own.
-/

set_option autoImplicit false

namespace Packrat.Arithmetic

/-- What comes of evaluating a tree. -/
inductive Evaluation
  | value (number : Int)
  /-- A number or a result does not fit in the word, or a divisor is zero. -/
  | fault (fault : Fault)
  /-- The root is of no rule that stands for a term, or a part that is asked for is missing. -/
  | stuck
  deriving DecidableEq, Repr

namespace Evaluation

/-- A number, or the fault that there is none. -/
def orFault (number? : Option Int) (reason : Fault) : Evaluation :=
  match number? with
  | some number => .value number
  | none => .fault reason

/-- An evaluation that goes on with the value of another. -/
def andThen : Evaluation → (Int → Evaluation) → Evaluation
  | .value number, next => next number
  | .fault reason, _ => .fault reason
  | .stuck, _ => .stuck

end Evaluation

open Evaluation (orFault)

/-- How the whole term is asked for at the node of the start rule. -/
inductive Entry
  /-- By its rule: the first node of that rule which is found. -/
  | firstFound
  /-- By its position: the second child. -/
  | secondChild
  deriving DecidableEq, Repr

namespace Entry

/-- The whole term in the node of the start rule. -/
def part? (entry : Entry) (tree : Node) : Option Node :=
  match entry with
  | firstFound => (tree.findAll "expr").head?
  | secondChild => tree.children[1]?

theorem sizeOf_lt_of_part? {entry : Entry} {tree part : Node} (hlabel : tree.label ≠ .rule "expr")
    (h : entry.part? tree = some part) : sizeOf part < sizeOf tree := by
  cases entry with
  | firstFound => exact Node.sizeOf_lt_of_mem_findAll hlabel (List.mem_of_mem_head? h)
  | secondChild => exact Node.sizeOf_lt_of_getElem? h

end Entry

mutual

/-- The value of a tree by the rule of its root. The value of operands is that of the first one
before anything is asked for of the operations, and the alternative of an operand tells where its
inner part stands. -/
def walk (entry : Entry) (range : WordRange) (input : Input) (tree : Node) : Evaluation :=
  match _ : tree.ruleName? with
  | some "calculator" =>
    match _ : entry.part? tree with
    | some expr => walk entry range input expr
    | none => .stuck
  | some "expr" | some "term" =>
    match _ : tree.children[0]? with
    | some first =>
      (walk entry range input first).andThen fun value =>
        match _ : tree.children[1]? with
        | some rest => walkOperations entry range input value rest.children
        | none => .stuck
    | none => .stuck
  | some "factor" =>
    match _ : tree.children[if tree.alternative = some 0 then 2 else 0]? with
    | some inner => walk entry range input inner
    | none => .stuck
  | some "num" =>
    match tree.text? input with
    | some digits => orFault (range.fit? (digitsValue digits)) (.number digits)
    | none => .stuck
  | _ => .stuck
termination_by sizeOf tree
decreasing_by
  · refine Entry.sizeOf_lt_of_part? ?_ ‹entry.part? tree = _›
    rw [Node.ruleName?_eq_some.1 ‹tree.ruleName? = _›]
    decide
  all_goals first
    | exact Node.sizeOf_lt_of_getElem? ‹_›
    | exact Nat.lt_trans rest.sizeOf_children_lt (Node.sizeOf_lt_of_getElem? ‹_›)

/-- The value of the operations on a value, one after the other, the right operand of each one
before its operator. -/
def walkOperations (entry : Entry) (range : WordRange) (input : Input) (value : Int) :
    List Node → Evaluation
  | [] => .value value
  | operation :: operations =>
    match _ : operation.children[3]? with
    | some right =>
      (walk entry range input right).andThen fun operand =>
        match (operation.children[1]?.bind (·.text? input)).bind Operator.ofText? with
        | some operator =>
          (orFault (range.compute? operator value operand) (.operation operation.start)).andThen
            fun value => walkOperations entry range input value operations
        | none => .stuck
    | none => .stuck
termination_by operations => sizeOf operations
decreasing_by
  · have hlt := Node.sizeOf_lt_of_getElem? ‹_›
    simp only [List.cons.sizeOf_spec]
    omega
  · simp only [List.cons.sizeOf_spec]
    omega

end

end Packrat.Arithmetic
