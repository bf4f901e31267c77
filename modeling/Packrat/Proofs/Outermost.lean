import Mathlib.Data.List.Infix
import Packrat.Proofs.FindAll

/-!
# Outermost nodes

Two nodes of a tree may look alike and stand at different places, so what `Node.findAll` finds is
told apart by places (`Node.findPlaces`). They are those of the outermost nodes of the rule
(`Node.mem_findPlaces_iff`), in the order in which a walk through the tree comes to them, and every
node of the rule stands inside just one of these (`Node.existsUnique_outermost`). In a lossless tree
their spans follow one another (`Node.Lossless.consecutive_findAll`), so they do in the tree of
every parse (`Parser.findAll_outermost`).
-/

set_option autoImplicit false

namespace Packrat

namespace Node

/-! ## Places -/

/-- The node at a place, which is the way down from the root by the indices of the children. -/
def at? : Node → List Nat → Option Node
  | node, [] => some node
  | node, index :: place => node.children[index]?.bind fun child => child.at? place

/-- A node of the rule stands at the place. -/
def IsRuleAt (name : String) (tree : Node) (place : List Nat) : Prop :=
  (tree.at? place).map Node.label = some (.rule name)

/-- A node of the rule stands at the place, and no other one above it. -/
def Outermost (name : String) (tree : Node) (place : List Nat) : Prop :=
  tree.IsRuleAt name place ∧ ∀ above, above <+: place → above ≠ place → ¬ tree.IsRuleAt name above

mutual

/-- The places of the outermost applications of the named rule. -/
def findPlaces (name : String) : Node → List (List Nat)
  | ⟨label, _, _, children, _⟩ =>
    if label = .rule name then [[]] else findPlacesIn name 0 children

/-- The same for a list of trees, the first of which is the child of index `index`. -/
def findPlacesIn (name : String) (index : Nat) : List Node → List (List Nat)
  | [] => []
  | node :: nodes => (findPlaces name node).map (index :: ·) ++ findPlacesIn name (index + 1) nodes

end

variable {name : String} {tree child : Node} {nodes : List Node} {place above : List Nat}
  {index : Nat}

theorem findPlaces_of_label (h : tree.label = .rule name) : tree.findPlaces name = [[]] := by
  obtain ⟨label, start, stop, children, alternative⟩ := tree
  exact if_pos h

theorem findPlaces_of_ne (h : tree.label ≠ .rule name) :
    tree.findPlaces name = findPlacesIn name 0 tree.children := by
  obtain ⟨label, start, stop, children, alternative⟩ := tree
  exact if_neg h

theorem isRuleAt_nil_iff : tree.IsRuleAt name [] ↔ tree.label = .rule name := by
  unfold IsRuleAt at?
  rw [Option.map_some, Option.some.injEq]

theorem isRuleAt_cons_iff :
    tree.IsRuleAt name (index :: place) ↔
      ∃ child, tree.children[index]? = some child ∧ child.IsRuleAt name place := by
  unfold IsRuleAt
  rw [at?]
  cases tree.children[index]? with
  | none => exact ⟨nofun, nofun⟩
  | some child => simp

/-! ## Outermost places -/

theorem outermost_of_label (h : tree.label = .rule name) :
    tree.Outermost name place ↔ place = [] := by
  have hroot : tree.IsRuleAt name [] := isRuleAt_nil_iff.2 h
  constructor
  · rintro ⟨-, houter⟩
    by_contra hne
    exact houter [] List.nil_prefix (Ne.symm hne) hroot
  · rintro rfl
    exact ⟨hroot, fun above hbegins hne => absurd (List.prefix_nil.1 hbegins) hne⟩

theorem not_outermost_nil (h : tree.label ≠ .rule name) : ¬ tree.Outermost name [] :=
  fun houtermost => h (isRuleAt_nil_iff.1 houtermost.1)

/-- Below a node of no concern, what is outermost in a child is so in the tree. -/
theorem outermost_cons_iff (h : tree.label ≠ .rule name) :
    tree.Outermost name (index :: place) ↔
      ∃ child, tree.children[index]? = some child ∧ child.Outermost name place := by
  unfold Outermost
  rw [isRuleAt_cons_iff]
  constructor
  · rintro ⟨⟨child, hchild, hrule⟩, houter⟩
    refine ⟨child, hchild, hrule, fun above hbegins hne habove => ?_⟩
    refine houter (index :: above) ((List.prefix_cons_inj index).2 hbegins) ?_
      (isRuleAt_cons_iff.2 ⟨child, hchild, habove⟩)
    exact fun heq => hne (List.cons.inj heq).2
  · rintro ⟨child, hchild, hrule, houter⟩
    refine ⟨⟨child, hchild, hrule⟩, fun above hbegins hne habove => ?_⟩
    cases above with
    | nil => exact h (isRuleAt_nil_iff.1 habove)
    | cons index' above =>
      obtain ⟨rfl, hbelow⟩ := List.cons_prefix_cons.1 hbegins
      obtain ⟨child', hchild', habove⟩ := isRuleAt_cons_iff.1 habove
      cases hchild.symm.trans hchild'
      exact houter above hbelow (fun heq => hne (congrArg (index' :: ·) heq)) habove

theorem Outermost.eq_of_isPrefix (habove : tree.Outermost name above)
    (h : tree.Outermost name place) (hbegins : above <+: place) : above = place := by
  by_contra hne
  exact h.2 above hbegins hne habove.1

/-- **Every node of the rule stands inside just one outermost one**, which may be itself. -/
theorem existsUnique_outermost (h : tree.IsRuleAt name place) :
    ∃! above, tree.Outermost name above ∧ above <+: place := by
  have exists_above : ∃ above, tree.Outermost name above ∧ above <+: place := by
    induction place generalizing tree with
    | nil => exact ⟨[], (outermost_of_label (isRuleAt_nil_iff.1 h)).2 rfl, List.prefix_refl _⟩
    | cons index place ih =>
      by_cases hlabel : tree.label = .rule name
      · exact ⟨[], (outermost_of_label hlabel).2 rfl, List.nil_prefix⟩
      · obtain ⟨child, hchild, hrule⟩ := isRuleAt_cons_iff.1 h
        obtain ⟨above, houtermost, hbegins⟩ := ih hrule
        exact ⟨index :: above, (outermost_cons_iff hlabel).2 ⟨child, hchild, houtermost⟩,
          (List.prefix_cons_inj index).2 hbegins⟩
  obtain ⟨above, houtermost, hbegins⟩ := exists_above
  refine ⟨above, ⟨houtermost, hbegins⟩, fun other ⟨hother, hbegins'⟩ => ?_⟩
  rcases List.prefix_or_prefix_of_prefix hbegins' hbegins with hle | hle
  · exact hother.eq_of_isPrefix houtermost hle
  · exact (houtermost.eq_of_isPrefix hother hle).symm

/-! ## What is found -/

theorem mem_findPlacesIn_iff :
    place ∈ findPlacesIn name index nodes ↔
      ∃ offset child below, nodes[offset]? = some child ∧ below ∈ child.findPlaces name ∧
        place = (index + offset) :: below := by
  induction nodes generalizing index with
  | nil => simp [findPlacesIn]
  | cons node nodes ih =>
    rw [findPlacesIn, List.mem_append, List.mem_map, ih]
    constructor
    · rintro (⟨below, hbelow, rfl⟩ | ⟨offset, child, below, hchild, hbelow, rfl⟩)
      · exact ⟨0, node, below, rfl, hbelow, rfl⟩
      · exact ⟨offset + 1, child, below, hchild, hbelow, by rw [Nat.add_assoc, Nat.add_comm 1]⟩
    · rintro ⟨_ | offset, child, below, hchild, hbelow, rfl⟩
      · cases hchild
        exact .inl ⟨below, hbelow, rfl⟩
      · exact .inr ⟨offset, child, below, hchild, hbelow, by rw [Nat.add_assoc, Nat.add_comm 1]⟩

theorem mem_findPlaces_iff :
    place ∈ tree.findPlaces name ↔ tree.Outermost name place := by
  induction place generalizing tree with
  | nil =>
    by_cases hlabel : tree.label = .rule name
    · rw [findPlaces_of_label hlabel, outermost_of_label hlabel, List.mem_singleton]
    · rw [findPlaces_of_ne hlabel, mem_findPlacesIn_iff]
      exact ⟨nofun, fun h => absurd h (not_outermost_nil hlabel)⟩
  | cons index place ih =>
    by_cases hlabel : tree.label = .rule name
    · rw [findPlaces_of_label hlabel, outermost_of_label hlabel, List.mem_singleton]
    · rw [findPlaces_of_ne hlabel, mem_findPlacesIn_iff, outermost_cons_iff hlabel]
      constructor
      · rintro ⟨offset, child, below, hchild, hbelow, heq⟩
        rw [Nat.zero_add] at heq
        cases heq
        exact ⟨child, hchild, ih.1 hbelow⟩
      · rintro ⟨child, hchild, houtermost⟩
        exact ⟨index, child, place, hchild, ih.2 houtermost, by rw [Nat.zero_add]⟩

mutual

theorem map_at?_findPlaces (name : String) : (tree : Node) →
    (tree.findPlaces name).map tree.at? = (tree.findAll name).map some
  | ⟨label, start, stop, children, alternative⟩ => by
    rw [findPlaces, findAll]
    split
    · rfl
    · have hchildren := map_at?_findPlacesIn name children
        ⟨label, start, stop, children, alternative⟩ 0 fun _ => by rw [Nat.zero_add]
      exact hchildren

/-- What is found in children of a tree, the first of which has the index `index`, stands at the
places found. -/
theorem map_at?_findPlacesIn (name : String) : (nodes : List Node) → (tree : Node) →
    (index : Nat) → (∀ offset, tree.children[index + offset]? = nodes[offset]?) →
      (findPlacesIn name index nodes).map tree.at? = (findAllIn name nodes).map some
  | [], _, _, _ => rfl
  | node :: nodes, tree, index, h => by
    have hnode : tree.children[index]? = some node := h 0
    have hfirst : ((node.findPlaces name).map (index :: ·)).map tree.at? =
        (node.findAll name).map some := by
      rw [← map_at?_findPlaces name node, List.map_map]
      refine List.map_congr_left fun place _ => ?_
      rw [Function.comp_apply, at?, hnode, Option.bind_some]
    have hrest := map_at?_findPlacesIn name nodes tree (index + 1) fun offset => by
      rw [Nat.add_assoc, Nat.add_comm 1, h]
      rfl
    rw [findPlacesIn, List.map_append, hfirst, hrest, findAllIn_cons, List.map_append]

end

mutual

/-- **The places are found in the order of a walk** through the tree, which is the lexicographic
one. -/
theorem pairwise_findPlaces (name : String) : (tree : Node) →
    (tree.findPlaces name).Pairwise (· < ·)
  | ⟨label, _, _, children, _⟩ => by
    rw [findPlaces]
    split
    · exact List.pairwise_singleton _ _
    · exact pairwise_findPlacesIn name 0 children

theorem pairwise_findPlacesIn (name : String) (index : Nat) : (nodes : List Node) →
    (findPlacesIn name index nodes).Pairwise (· < ·)
  | [] => .nil
  | node :: nodes => by
    rw [findPlacesIn, List.pairwise_append]
    refine ⟨?_, pairwise_findPlacesIn name (index + 1) nodes, fun place hplace later hlater => ?_⟩
    · refine List.Pairwise.map _ (fun place later hlt => ?_) (pairwise_findPlaces name node)
      exact List.cons_lt_cons_iff.2 (.inr ⟨rfl, hlt⟩)
    · obtain ⟨below, -, rfl⟩ := List.mem_map.1 hplace
      obtain ⟨offset, child, below', -, -, rfl⟩ := mem_findPlacesIn_iff.1 hlater
      exact List.cons_lt_cons_iff.2 (.inl (by omega))

end

/-! ## Spans -/

/-- The nodes stand between the two positions, one after the other. -/
structure Consecutive (nodes : List Node) (start stop : Nat) : Prop where
  inside : ∀ node ∈ nodes, start ≤ node.start ∧ node.start ≤ node.stop ∧ node.stop ≤ stop
  pairwise : nodes.Pairwise fun node later => node.stop ≤ later.start

namespace Consecutive

variable {nodes' : List Node} {start middle stop : Nat}

theorem nil : Consecutive [] start stop := ⟨nofun, .nil⟩

theorem append (h : Consecutive nodes start middle) (h' : Consecutive nodes' middle stop)
    (hstart : start ≤ middle) (hstop : middle ≤ stop) :
    Consecutive (nodes ++ nodes') start stop where
  inside node hmem := by
    rcases List.mem_append.1 hmem with hmem | hmem
    · obtain ⟨hle, hspan, hle'⟩ := h.inside node hmem
      exact ⟨hle, hspan, by omega⟩
    · obtain ⟨hle, hspan, hle'⟩ := h'.inside node hmem
      exact ⟨by omega, hspan, hle'⟩
  pairwise := by
    refine List.pairwise_append.2 ⟨h.pairwise, h'.pairwise, fun node hmem later hmem' => ?_⟩
    exact Nat.le_trans (h.inside node hmem).2.2 (h'.inside later hmem').1

end Consecutive

/-- What is found in nodes that tile a span is consecutive, if it is so in each of them. -/
theorem consecutive_findAllIn {start stop : Nat} (htile : Tile nodes start stop)
    (hle : ∀ node ∈ nodes, node.start ≤ node.stop)
    (h : ∀ node ∈ nodes, Consecutive (node.findAll name) node.start node.stop) :
    start ≤ stop ∧ Consecutive (findAllIn name nodes) start stop := by
  induction nodes generalizing start with
  | nil =>
    cases htile
    exact ⟨Nat.le_refl _, .nil⟩
  | cons node nodes ih =>
    obtain ⟨rfl, htile⟩ := htile
    rw [List.forall_mem_cons] at hle h
    obtain ⟨hstop, hrest⟩ := ih htile hle.2 h.2
    exact ⟨Nat.le_trans hle.1 hstop, h.1.append hrest hle.1 hstop⟩

/-- **What is found in a lossless tree is consecutive.** -/
theorem Lossless.consecutive_findAll {bound : Nat} (h : tree.Lossless bound) (name : String) :
    Consecutive (tree.findAll name) tree.start tree.stop := by
  induction h with
  | @intro node whole children ih =>
    by_cases hlabel : node.label = .rule name
    · rw [findAll_of_label hlabel]
      refine ⟨?_, List.pairwise_singleton _ _⟩
      rw [List.forall_mem_singleton]
      exact ⟨Nat.le_refl _, whole.le, Nat.le_refl _⟩
    · rw [findAll_of_ne hlabel]
      by_cases hterminal : node.label = .terminal
      · rw [whole.childless hterminal]
        exact .nil
      · exact (consecutive_findAllIn (whole.tiled hterminal)
          (fun child hmem => (children child hmem).whole.le) ih).2

end Node

namespace Parser

/-- **The outermost nodes of a rule are found**, each of them once and in their order in the tree.
None of them lies inside another one, and every node of the rule lies inside just one. In the tree
of a parse their spans follow one another. -/
theorem findAll_outermost (name : String) :
    (∀ tree : Node,
      let places := tree.findPlaces name
      places.map tree.at? = (tree.findAll name).map some ∧
      places.Pairwise (· < ·) ∧
      (∀ place, place ∈ places ↔ tree.Outermost name place) ∧
      (∀ place ∈ places, ∀ inner ∈ places, place <+: inner → place = inner) ∧
      ∀ place, tree.IsRuleAt name place → ∃! above, above ∈ places ∧ above <+: place) ∧
    ∀ (parser : Parser) (start : String) (input : Input) (cache : Cache) (result : ParseResult)
      (tree : Node), (parser.parseWithCache start input cache).result = .ok result →
        result.tree? = some tree →
          (∀ node ∈ tree.findAll name, node.start ≤ node.stop) ∧
          (tree.findAll name).Pairwise fun node later => node.stop ≤ later.start := by
  constructor
  · intro tree places
    refine ⟨Node.map_at?_findPlaces name tree, Node.pairwise_findPlaces name tree,
      fun place => Node.mem_findPlaces_iff, fun place hplace inner hinner hbegins => ?_,
      fun place hrule => ?_⟩
    · exact (Node.mem_findPlaces_iff.1 hplace).eq_of_isPrefix (Node.mem_findPlaces_iff.1 hinner)
        hbegins
    · simp only [places, Node.mem_findPlaces_iff]
      exact Node.existsUnique_outermost hrule
  · intro parser start input cache result tree hparse htree
    obtain ⟨-, -, hlossless, -⟩ := tree_of_parse hparse htree
    have hconsecutive := hlossless.consecutive_findAll name
    exact ⟨fun node hmem => (hconsecutive.inside node hmem).2.1, hconsecutive.pairwise⟩

/-- Lists one after the other, in the first of which there is another one. -/
theorem findAll_outermost_lists :
    let grammar : Grammar := {
      rules := [
        ⟨"lists", .zeroOrMore (.ruleRef "list")⟩,
        ⟨"list", .sequence [.literal "[", .optional (.ruleRef "list"), .literal "]"]⟩]
      names_nodup := by decide
      names_nonempty := by decide }
    let bracket (start : Nat) : Node := ⟨.terminal, start, start + 1, [], none⟩
    let inner : Node := ⟨.rule "list", 1, 3, [bracket 1, bracket 2], none⟩
    let outer : Node := ⟨.rule "list", 0, 4, [bracket 0, inner, bracket 3], none⟩
    let last : Node := ⟨.rule "list", 4, 6, [bracket 4, bracket 5], none⟩
    let tree : Node := ⟨.rule "lists", 0, 6, [outer, last], none⟩
    (parseWithCache ⟨grammar, {}⟩ "lists" (.ofString "[[]][]") {}).result =
        .ok (.complete tree) ∧
      tree.findAll "list" = [outer, last] ∧
      ([outer, last].Pairwise fun node later => node.stop ≤ later.start) ∧
      tree.IsRuleAt "list" [0, 1] ∧
      ∃! above, above ∈ tree.findPlaces "list" ∧ above <+: [0, 1] := by
  intro grammar bracket inner outer last tree
  have hparse : (parseWithCache ⟨grammar, {}⟩ "lists" (.ofString "[[]][]") {}).result =
      .ok (.complete tree) := by decide +kernel
  have hfound : tree.findAll "list" = [outer, last] := by decide
  have hinner : tree.IsRuleAt "list" [0, 1] := rfl
  obtain ⟨hplaces, hspans⟩ := findAll_outermost "list"
  obtain ⟨-, -, -, -, hunique⟩ := hplaces tree
  obtain ⟨-, hpairwise⟩ := hspans ⟨grammar, {}⟩ "lists" (.ofString "[[]][]") {} _ tree hparse rfl
  exact ⟨hparse, hfound, hfound ▸ hpairwise, hinner, hunique [0, 1] hinner⟩

end Parser

end Packrat
