import Packrat.Arithmetic.Walk
import Packrat.Proofs.Arithmetic.Recognition
import Packrat.Proofs.FindAll
import Packrat.Proofs.TreeInvariant

/-!
# Walks of terms

Where a term can be read off a tree, a walk comes to what the term comes to (`walked`). This needs
of the tree that a walk goes on with the second child of the start rule's node, whichever way it
asks for the whole term (`EntersAlike`); all walkers agree on such a tree, also where it holds no
term (`walk_agrees`).
-/

set_option autoImplicit false

namespace Packrat

namespace Arithmetic

open Evaluation (orFault)

/-! ## Single steps -/

section

variable {entry : Entry} {range : WordRange} {input : Input} {start stop : Nat}
  {children : List Node} {alternative : Option Nat}

/-- The walk of a tree, without the evidence that the parts are smaller. -/
theorem walk_eq (tree : Node) : walk entry range input tree =
    match tree.ruleName? with
    | some "calculator" =>
      match entry.part? tree with
      | some expr => walk entry range input expr
      | none => .stuck
    | some "expr" | some "term" =>
      match tree.children[0]? with
      | some first =>
        (walk entry range input first).andThen fun value =>
          match tree.children[1]? with
          | some rest => walkOperations entry range input value rest.children
          | none => .stuck
      | none => .stuck
    | some "factor" =>
      match tree.children[if tree.alternative = some 0 then 2 else 0]? with
      | some inner => walk entry range input inner
      | none => .stuck
    | some "num" =>
      match tree.text? input with
      | some digits => orFault (range.fit? (digitsValue digits)) (.number digits)
      | none => .stuck
    | _ => .stuck := by
  rw [walk]
  split <;> rename_i named
  · rw [named]
    cases entry.part? tree <;> rfl
  · rw [named]
    cases tree.children[0]? <;> cases tree.children[1]? <;> rfl
  · rw [named]
    cases tree.children[0]? <;> cases tree.children[1]? <;> rfl
  · rw [named]
    cases tree.children[if tree.alternative = some 0 then 2 else 0]? <;> rfl
  · cases tree.text? input <;> simp only [named]
  · split <;> first | rfl | contradiction

theorem walkOperations_eq (value : Int) (operation : Node) (operations : List Node) :
    walkOperations entry range input value (operation :: operations) =
      match operation.children[3]? with
      | some right =>
        (walk entry range input right).andThen fun operand =>
          match (operation.children[1]?.bind (·.text? input)).bind Operator.ofText? with
          | some operator =>
            (orFault (range.compute? operator value operand)
                (.operation operation.start)).andThen fun value =>
              walkOperations entry range input value operations
          | none => .stuck
      | none => .stuck := by
  rw [walkOperations]
  cases operation.children[3]? <;> rfl

theorem walk_calculator {tree expr : Node} (hlabel : tree.label = .rule "calculator")
    (h : entry.part? tree = some expr) :
    walk entry range input tree = walk entry range input expr := by
  rw [walk_eq tree, Node.ruleName?_eq_some.2 hlabel]
  simp only [h]

theorem walk_operands {level : Level} {first rest : Node} {others : List Node} :
    walk entry range input
      ⟨.rule (Phrase.operands level).name, start, stop, first :: rest :: others, alternative⟩ =
      (walk entry range input first).andThen
        (walkOperations entry range input · rest.children) := by
  cases level
  · rw [walk_eq]
    rfl
  · rw [walk_eq]
    rfl

theorem walk_parentheses {opening before inner : Node} {others : List Node} :
    walk entry range input
      ⟨.rule "factor", start, stop, opening :: before :: inner :: others, some 0⟩ =
      walk entry range input inner := by
  rw [walk_eq]
  rfl

theorem walk_number {digits : Node} {others : List Node} :
    walk entry range input ⟨.rule "factor", start, stop, digits :: others, some 1⟩ =
      walk entry range input digits := by
  rw [walk_eq]
  rfl

theorem walk_digits {digits : String} (htext : input.slice? start stop = some digits) :
    walk entry range input ⟨.rule "num", start, stop, children, alternative⟩ =
      orFault (range.fit? (digitsValue digits)) (.number digits) := by
  have htext : Node.text? ⟨.rule "num", start, stop, children, alternative⟩ input = some digits :=
    htext
  rw [walk_eq]
  simp only [Node.ruleName?, Label.ruleName?, htext]

/-- The rules that stand for terms. -/
def termRules : List String := ["calculator", "expr", "term", "factor", "num"]

theorem walk_eq_stuck {tree : Node} {name : String} (hlabel : tree.label = .rule name)
    (h : name ∉ termRules) : walk entry range input tree = .stuck := by
  obtain ⟨_, start, stop, children, alternative⟩ := tree
  cases hlabel
  simp only [termRules, List.mem_cons, List.not_mem_nil, or_false, not_or] at h
  rw [walk_eq]
  simp [Node.ruleName?, Label.ruleName?, h]

theorem Term.ofTree?_eq_none {tree : Node} {name : String} (hlabel : tree.label = .rule name)
    (h : name ∉ termRules) : ofTree? input tree = none := by
  obtain ⟨_, start, stop, children, alternative⟩ := tree
  cases hlabel
  simp only [termRules, List.mem_cons, List.not_mem_nil, or_false, not_or] at h
  unfold ofTree?
  split <;> simp_all

theorem walkOperations_nil {value : Int} :
    walkOperations entry range input value [] = .value value := by
  rw [walkOperations]

theorem walkOperations_cons {value : Int} {label : Label} {before sign after right : Node}
    {others operations : List Node} {text : String} {operator : Operator}
    (htext : sign.text? input = some text) (hoperator : Operator.ofText? text = some operator) :
    walkOperations entry range input value
        (⟨label, start, stop, before :: sign :: after :: right :: others, alternative⟩ ::
          operations) =
      (walk entry range input right).andThen fun operand =>
        (orFault (range.compute? operator value operand) (.operation start)).andThen fun value =>
          walkOperations entry range input value operations := by
  rw [walkOperations_eq]
  simp only [List.getElem?_cons_succ, List.getElem?_cons_zero, Option.bind_some, htext, hoperator]

end

/-! ## Walks of terms -/

namespace Evaluation

theorem andThen_assoc (evaluation : Evaluation) (f g : Int → Evaluation) :
    (evaluation.andThen f).andThen g = evaluation.andThen fun number => (f number).andThen g := by
  cases evaluation <;> rfl

/-- What comes of evaluating a term. -/
def ofTerm (range : WordRange) (term : Term) : Evaluation :=
  match term.evaluate range with
  | .ok number => .value number
  | .error reason => .fault reason

theorem ofTerm_ne_stuck (range : WordRange) (term : Term) : ofTerm range term ≠ .stuck := by
  unfold ofTerm
  cases term.evaluate range <;> nofun

theorem ofTerm_number (range : WordRange) (digits : String) :
    ofTerm range (.number digits) =
      orFault (range.fit? (digitsValue digits)) (.number digits) := by
  unfold ofTerm
  rw [Term.evaluate]
  cases range.fit? (digitsValue digits) <;> rfl

theorem ofTerm_operation (range : WordRange) (operator : Operator) (position : Nat)
    (left right : Term) :
    ofTerm range (.operation operator position left right) =
      (ofTerm range left).andThen fun a => (ofTerm range right).andThen fun b =>
        orFault (range.compute? operator a b) (.operation position) := by
  unfold ofTerm
  rw [Term.evaluate]
  cases left.evaluate range with
  | error fault => rfl
  | ok a =>
    cases right.evaluate range with
    | error fault => rfl
    | ok b =>
      simp only [bind, Except.bind, andThen]
      cases range.compute? operator a b <;> rfl

end Evaluation

/-! ## Ways to the whole term -/

/-- If the node is one of the start rule, every walker goes on with the same child of it. -/
def EntersAlike (node : Node) : Prop :=
  node.label = .rule "calculator" →
    ∃ expr ∈ node.children, ∀ entry : Entry, entry.part? node = some expr

/-- The second child is the first whole term that is found if there is none in the first child. -/
theorem Entry.part?_of_second {node head expr : Node} {others : List Node}
    (hlabel : node.label = .rule "calculator") (hchildren : node.children = head :: expr :: others)
    (hhead : head.findAll "expr" = []) (hexpr : expr.label = .rule "expr") (entry : Entry) :
    entry.part? node = some expr := by
  unfold part?
  cases entry with
  | firstFound =>
    have hother : node.label ≠ .rule "expr" := by
      rw [hlabel]
      decide
    simp only [Node.findAll_of_ne hother, hchildren, Node.findAllIn_cons, hhead,
      Node.findAll_of_label hexpr, List.nil_append, List.singleton_append, List.head?_cons]
  | secondChild => simp only [hchildren, List.getElem?_cons_succ, List.getElem?_cons_zero]

section
variable {range : WordRange} {input : Input} {entry other : Entry} {tree : Node}

theorem walk_operands_congr {name : String} (hname : name = "expr" ∨ name = "term")
    (hlabel : tree.ruleName? = some name)
    (hfirst : ∀ first, tree.children[0]? = some first →
      walk entry range input first = walk other range input first)
    (hrest : ∀ value rest, tree.children[1]? = some rest →
      walkOperations entry range input value rest.children =
        walkOperations other range input value rest.children) :
    walk entry range input tree = walk other range input tree := by
  obtain rfl | rfl := hname <;> simp only [walk_eq tree, hlabel]
  all_goals
    cases hchild : tree.children[0]? with
    | none => rfl
    | some first =>
      simp only [hfirst first hchild]
      refine congrArg _ (funext fun value => ?_)
      cases hother : tree.children[1]? with
      | none => rfl
      | some rest => exact hrest value rest hother

/-- **The walkers agree** on a tree in which they go on with the same whole terms, by induction on
the walk of one of them. -/
theorem walk_agrees (entry other : Entry) (tree : Node) (hall : tree.All EntersAlike) :
    walk entry range input tree = walk other range input tree := by
  have part {tree node : Node} {index : Nat} (h : tree.All EntersAlike)
      (hnode : tree.children[index]? = some node) : node.All EntersAlike :=
    (Node.all_iff.1 h).2 node (List.mem_of_getElem? hnode)
  have operands {tree : Node} {name : String} (hname : name = "expr" ∨ name = "term")
      (hlabel : tree.ruleName? = some name) (hall : tree.All EntersAlike)
      (ih : ∀ first, tree.children[0]? = some first → first.All EntersAlike →
        walk entry range input first = walk other range input first)
      (ihrest : ∀ value rest, tree.children[1]? = some rest →
        (∀ node ∈ rest.children, node.All EntersAlike) →
        walkOperations entry range input value rest.children =
          walkOperations other range input value rest.children) :
      walk entry range input tree = walk other range input tree :=
    walk_operands_congr hname hlabel (fun first hfirst => ih first hfirst (part hall hfirst))
      fun value rest hrest => ihrest value rest hrest (Node.all_iff.1 (part hall hrest)).2
  revert hall
  refine walk.induct entry input
    (fun tree => tree.All EntersAlike →
      walk entry range input tree = walk other range input tree)
    (fun value nodes => (∀ node ∈ nodes, node.All EntersAlike) →
      walkOperations entry range input value nodes = walkOperations other range input value nodes)
    ?calculator ?noTerm ?expr ?noSummand ?term ?noFactor ?factor ?noInner ?num ?noText ?stuck
    ?nil ?operation ?noOperand tree
  case calculator =>
    intro tree hname expr hpart ih hall
    obtain ⟨hroot, hchildren⟩ := Node.all_iff.1 hall
    obtain ⟨part, hmem, hparts⟩ := hroot (Node.ruleName?_eq_some.1 hname)
    cases hpart.symm.trans (hparts entry)
    simp only [walk_eq tree, hname, hparts]
    exact ih (hchildren expr hmem)
  case noTerm =>
    intro tree hname hpart hall
    obtain ⟨part, -, hparts⟩ := (Node.all_iff.1 hall).1 (Node.ruleName?_eq_some.1 hname)
    cases hpart.symm.trans (hparts entry)
  case expr =>
    intro tree hname first hfirst ih ihrest hall
    refine operands (.inl rfl) hname hall (fun node hnode => ?_) ihrest
    cases hfirst.symm.trans hnode
    exact ih
  case term =>
    intro tree hname first hfirst ih ihrest hall
    refine operands (.inr rfl) hname hall (fun node hnode => ?_) ihrest
    cases hfirst.symm.trans hnode
    exact ih
  case factor =>
    intro tree hname inner hinner ih hall
    simp only [dite_eq_ite] at hinner
    simp only [walk_eq tree, hname, hinner]
    exact ih (part hall hinner)
  case operation =>
    intro value node nodes right hright ih ihrest hall
    rw [List.forall_mem_cons] at hall
    simp only [walkOperations_eq, hright, ih (part hall.1 hright), ihrest _ hall.2]
  case noOperand =>
    intro value node nodes hright hall
    simp only [walkOperations_eq, hright]
  case nil =>
    intro value hall
    simp only [walkOperations_nil]
  -- the cases that are left are those of trees of which nothing is walked
  case noSummand =>
    intro tree hname hfirst hall
    simp only [walk_eq tree, hname, hfirst]
  case noFactor =>
    intro tree hname hfirst hall
    simp only [walk_eq tree, hname, hfirst]
  case noInner =>
    intro tree hname hinner hall
    simp only [dite_eq_ite] at hinner
    simp only [walk_eq tree, hname, hinner]
  case num =>
    intro tree hname digits htext hall
    simp only [walk_eq tree, hname, htext]
  case noText =>
    intro tree hname htext hall
    simp only [walk_eq tree, hname, htext]
  case stuck =>
    intro tree hcalculator hexpr hterm hfactor hnum hall
    simp only [walk_eq tree]

end

/-- The walk of the tree comes to what its term comes to. -/
def Walked (entry : Entry) (range : WordRange) (input : Input) (tree : Node) : Prop :=
  ∀ term, tree.All EntersAlike → Term.ofTree? input tree = some term →
    walk entry range input tree = .ofTerm range term

/-- The walk of the operations takes the value of a term to that of the term they extend it to. -/
def WalkedOn (entry : Entry) (range : WordRange) (input : Input) (left : Term)
    (nodes : List Node) : Prop :=
  ∀ term, (∀ node ∈ nodes, node.All EntersAlike) → Term.extend? input left nodes = some term →
    (Evaluation.ofTerm range left).andThen (walkOperations entry range input · nodes) =
      .ofTerm range term

section

variable {entry : Entry} {range : WordRange} {input : Input} {start stop : Nat} {label : Label}
  {alternative : Option Nat}

theorem walked_calculator {head expr : Node} {others : List Node}
    (h : Walked entry range input expr) :
    Walked entry range input
      ⟨.rule "calculator", start, stop, head :: expr :: others, alternative⟩ := by
  intro term hall hterm
  obtain ⟨hroot, hchildren⟩ := Node.all_iff.1 hall
  obtain ⟨part, hmem, hparts⟩ := hroot rfl
  -- a term is read off the second child
  obtain rfl : expr = part := Option.some.inj (hparts .secondChild)
  rw [Term.ofTree?] at hterm
  rw [walk_calculator rfl (hparts entry)]
  exact h term (hchildren expr hmem) hterm

theorem walked_operands (level : Level) {first : Node} {begin finish : Nat}
    {operations : List Node} {alternative' : Option Nat} (hfirst : Walked entry range input first)
    (hoperations : ∀ left, WalkedOn entry range input left operations) :
    Walked entry range input ⟨.rule (Phrase.operands level).name, start, stop,
      [first, ⟨label, begin, finish, operations, alternative⟩], alternative'⟩ := by
  intro term hall hterm
  obtain ⟨-, hchildren⟩ := Node.all_iff.1 hall
  have hrest := Node.all_iff.1 (hchildren _ (.tail _ (.head _)))
  obtain ⟨left, hleft, hterm⟩ : ∃ left, Term.ofTree? input first = some left ∧
      Term.extend? input left operations = some term := by
    cases level <;> simp only [Phrase.name] at hterm <;> rw [Term.ofTree?] at hterm <;>
      exact Option.bind_eq_some_iff.1 hterm
  rw [walk_operands, hfirst left (hchildren first (.head _)) hleft]
  exact hoperations left term hrest.2 hterm

theorem walkedOn_nil {left : Term} : WalkedOn entry range input left [] := by
  intro term _ hterm
  rw [Term.extend?] at hterm
  cases hterm
  cases Evaluation.ofTerm range left with
  | value number => exact walkOperations_nil
  | fault reason => rfl
  | stuck => rfl

theorem walkedOn_operation {before sign after right : Node} {others nodes : List Node}
    {left : Term} (hright : Walked entry range input right)
    (hnodes : ∀ term operator,
      WalkedOn entry range input (.operation operator start left term) nodes) :
    WalkedOn entry range input left
      (⟨label, start, stop, before :: sign :: after :: right :: others, alternative⟩ ::
        nodes) := by
  intro term hall hterm
  rw [List.forall_mem_cons] at hall
  have hparts := (Node.all_iff.1 hall.1).2
  rw [Term.extend?] at hterm
  obtain ⟨rightTerm, hrightTerm, hterm⟩ := Option.bind_eq_some_iff.1 hterm
  obtain ⟨text, htext, hterm⟩ := Option.bind_eq_some_iff.1 hterm
  obtain ⟨operator, hoperator, hterm⟩ := Option.bind_eq_some_iff.1 hterm
  have hvalue := hright rightTerm (hparts right (by simp)) hrightTerm
  have hrest := hnodes rightTerm operator term hall.2 hterm
  rw [Evaluation.ofTerm_operation] at hrest
  simp only [walkOperations_cons htext hoperator, hvalue]
  rw [← hrest]
  simp only [Evaluation.andThen_assoc]

end

/-- **The walk of a term's tree** comes to what the term comes to, by induction on how the term is
read off the tree. -/
theorem walked (entry : Entry) (range : WordRange) (input : Input) (tree : Node) :
    Walked entry range input tree := by
  refine Term.ofTree?.induct (Walked entry range input) (WalkedOn entry range input) ?calculator
    ?expr ?term ?parentheses ?number ?digits ?other ?nil ?operation ?malformed tree
  case calculator => exact fun _ _ _ _ _ _ h => walked_calculator h
  case expr =>
    exact fun _ _ _ _ _ _ _ _ _ hfirst hrest => walked_operands .sum hfirst hrest
  case term =>
    exact fun _ _ _ _ _ _ _ _ _ hfirst hrest => walked_operands .product hfirst hrest
  case parentheses =>
    intro start stop opening before inner others h term hall hterm
    rw [Term.ofTree?] at hterm
    rw [walk_parentheses]
    exact h term ((Node.all_iff.1 hall).2 inner (by simp)) hterm
  case number =>
    intro start stop digits h term hall hterm
    rw [Term.ofTree?] at hterm
    rw [walk_number]
    exact h term ((Node.all_iff.1 hall).2 digits (by simp)) hterm
  case digits =>
    intro start stop children alternative term _ hterm
    rw [Term.ofTree?] at hterm
    obtain ⟨digits, hdigits, rfl⟩ := Option.map_eq_some_iff.1 hterm
    rw [walk_digits hdigits, Evaluation.ofTerm_number]
  case other =>
    intro tree _ _ _ _ _ _ term _ hterm
    rw [Term.ofTree?] at hterm <;> first | cases hterm | assumption
  case nil => exact fun _ => walkedOn_nil
  case operation =>
    exact fun _ _ _ _ _ _ _ _ _ _ _ hright hnodes => walkedOn_operation hright hnodes
  case malformed =>
    intro nodes left hnil hcons term _ hterm
    rw [Term.extend?] at hterm <;> first | cases hterm | assumption

end Arithmetic

end Packrat
