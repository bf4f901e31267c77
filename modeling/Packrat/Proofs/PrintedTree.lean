import Packrat.Proofs.Lossless
import Packrat.Proofs.QuotedText
import Packrat.Proofs.Reachability
import Packrat.Proofs.RuleNodes

/-!
# The printed form of a tree is faithful

A lossless tree is printed as `Node.written` (`Lossless.print?_eq`). Each part of this form tells
where it ends, whatever follows: the label, if it is readable, the alternative, the text between
its quotation marks, and so, by induction on the tree, the tree (`Lossless.written_append_inj`).
Positions are not printed, but a tree starts where the one before it stops, and its length is that
of its text. Two parses whose trees look alike in print have therefore built the same tree over the
same text (`Parser.print_faithful`).
-/

set_option autoImplicit false

namespace Packrat

/-! ## Labels and alternatives -/

namespace Label

/-- A label that is not mistaken for another in print: the name of a rule has no comma and is none
of the words that stand for the other labels. -/
def Readable : Label → Prop
  | rule name => ',' ∉ name.toList ∧ name ∉ ["Terminal", "Sequence", "Repetition"]
  | _ => True

instance : DecidablePred Readable := fun label => by
  cases label <;> unfold Readable <;> infer_instance

variable {a b : Label}

theorem Readable.not_mem_text (h : a.Readable) : ',' ∉ a.text.toList := by
  cases a with
  | rule name => exact h.1
  | _ => decide

theorem Readable.text_inj (ha : a.Readable) (hb : b.Readable) (h : a.text = b.text) : a = b := by
  cases a <;> cases b <;> simp_all [Readable, text]

theorem Readable.append_inj (ha : a.Readable) (hb : b.Readable) {r s : List Char}
    (h : a.text.toList ++ ',' :: r = b.text.toList ++ ',' :: s) : a = b ∧ r = s := by
  obtain ⟨htext, hrest⟩ := Text.append_comma_inj ha.not_mem_text hb.not_mem_text h
  exact ⟨ha.text_inj hb (String.toList_inj.1 htext), hrest⟩

end Label

namespace Node

theorem not_mem_repr (n : Nat) : ',' ∉ n.repr.toList := by
  intro h
  rw [Nat.repr_eq_ofList_toDigits, String.toList_ofList] at h
  exact absurd (Nat.isDigit_of_mem_toDigits (by decide) (by decide) h) (by decide)

theorem repr_toList_inj {m n : Nat} (h : m.repr.toList = n.repr.toList) : m = n := by
  rw [Nat.repr_eq_ofList_toDigits, Nat.repr_eq_ofList_toDigits, String.toList_ofList,
    String.toList_ofList] at h
  have hvalue := congrArg (fun digits => Nat.ofDigitChars 10 digits 0) h
  simpa only [Nat.ofDigitChars_toDigits (by decide : 1 < 10) (Nat.le_refl 10)] using hvalue

theorem toList_alternativeText_some (index : Nat) :
    (alternativeText (some index)).toList =
      'a' :: 'l' :: 't' :: '=' :: (index.repr.toList ++ [',', ' ']) := by
  show ("alt=" ++ index.repr ++ ", ").toList = _
  rw [String.toList_append, String.toList_append, List.append_assoc]
  rfl

theorem alternativeText_append_inj {a b : Option Nat} {r s : List Char}
    (h : (alternativeText a).toList ++ '\"' :: r = (alternativeText b).toList ++ '\"' :: s) :
    a = b ∧ r = s := by
  cases a with
  | none =>
    cases b with
    | none => exact ⟨rfl, (List.cons.inj h).2⟩
    | some index =>
      rw [toList_alternativeText_some] at h
      exact absurd (List.cons.inj h).1 (by decide)
  | some index =>
    rw [toList_alternativeText_some] at h
    cases b with
    | none => exact absurd (List.cons.inj h).1 (by decide)
    | some index' =>
      rw [toList_alternativeText_some] at h
      simp only [List.cons_append, List.append_assoc, List.nil_append, List.cons.injEq,
        true_and] at h
      obtain ⟨hindex, hrest⟩ := Text.append_comma_inj (not_mem_repr _) (not_mem_repr _) h
      cases hrest
      rw [repr_toList_inj hindex]
      exact ⟨rfl, rfl⟩

theorem alternativeText_append_quoted_inj {a b : Option Nat} {text text' : String}
    {r s : List Char} (h : (alternativeText a).toList ++ ((Text.quoted text).toList ++ r) =
      (alternativeText b).toList ++ ((Text.quoted text').toList ++ s)) :
    a = b ∧ (Text.quoted text).toList ++ r = (Text.quoted text').toList ++ s := by
  rw [Text.toList_quoted, Text.toList_quoted] at h ⊢
  obtain ⟨halternative, hrest⟩ := alternativeText_append_inj h
  exact ⟨halternative, congrArg (List.cons '\"') hrest⟩

/-! ## The written form -/

mutual

/-- The tree in print, of an input that has its positions. -/
def written (input : Input) : Node → List Char
  | ⟨label, start, stop, children, alternative⟩ =>
    '(' :: (label.text.toList ++ ',' :: ' ' :: ((alternativeText alternative).toList ++
      ((Text.quoted (input.between start stop)).toList ++ (writtenAll input children ++ [')']))))

/-- Trees in print, each after a comma. -/
def writtenAll (input : Input) : List Node → List Char
  | [] => []
  | node :: nodes => ',' :: ' ' :: (written input node ++ writtenAll input nodes)

end

variable {bound : Nat} {input : Input} {node : Node} {nodes : List Node}

theorem written_eq : written input node =
    '(' :: (node.label.text.toList ++ ',' :: ' ' :: ((alternativeText node.alternative).toList ++
      ((Text.quoted (input.between node.start node.stop)).toList ++
        (writtenAll input node.children ++ [')'])))) := by
  cases node
  rw [written]

theorem printAll?_eq (h : ∀ node ∈ nodes, print? input node = some (.ofList (written input node)))
    (before : List Char) :
    printAll? input (.ofList before) nodes =
      some (.ofList (before ++ writtenAll input nodes)) := by
  induction nodes generalizing before with
  | nil => rw [printAll?, writtenAll, List.append_nil]
  | cons node nodes ih =>
    rw [List.forall_mem_cons] at h
    have hbefore : String.ofList before ++ ", " ++ .ofList (written input node) =
        .ofList (before ++ ',' :: ' ' :: written input node) := by
      apply String.toList_inj.1
      simp
    rw [printAll?, h.1, Option.bind_eq_bind, Option.bind_some, hbefore, ih h.2, writtenAll]
    simp

/-- **A lossless tree is printed as written.** -/
theorem Lossless.print?_eq (h : node.Lossless bound) (input : Input) :
    print? input node = some (.ofList (written input node)) := by
  induction h with
  | @intro node whole _ ih =>
    obtain ⟨label, start, stop, nodes, alternative⟩ := node
    have hslice := @Input.slice?_eq_between input start stop whole.le
    let opening := '(' :: (label.text.toList ++ ',' :: ' ' ::
      ((alternativeText alternative).toList ++ (Text.quoted (input.between start stop)).toList))
    have hopening : "(" ++ label.text ++ ", " ++ alternativeText alternative ++
        Text.quoted (input.between start stop) = .ofList opening := by
      apply String.toList_inj.1
      simp [opening]
    have hall : printAll? input (.ofList opening) nodes =
        some (.ofList (opening ++ writtenAll input nodes)) := printAll?_eq ih opening
    have hclosing : String.ofList (opening ++ writtenAll input nodes) ++ ")" =
        .ofList (written input ⟨label, start, stop, nodes, alternative⟩) := by
      apply String.toList_inj.1
      simp [opening, written]
    simp only [print?, hslice, hopening, hall, hclosing, Option.bind_eq_bind, Option.bind_some,
      Option.pure_def]

/-! ## Reading it back -/

theorem Whole.exists_tile (h : node.Whole bound) : ∃ stop, Tile node.children node.start stop := by
  by_cases hl : node.label = .terminal
  · rw [h.childless hl]
    exact ⟨node.start, rfl⟩
  · exact ⟨node.stop, h.tiled hl⟩

theorem length_between {start stop : Nat} (h : stop ≤ input.length) :
    (input.between start stop).toList.length = stop - start := by
  unfold Input.length at h
  rw [Input.between, String.toList_ofList, Array.length_toList, Array.size_extract,
    Nat.min_eq_left h]

section
variable {input' : Input}

/-- The node is told from any other that starts where it does, and so is its text. -/
def Told (input input' : Input) (a : Node) : Prop :=
  ∀ b : Node, b.Lossless input'.length → b.All (fun node => node.label.Readable) →
    a.start = b.start → ∀ r s, written input a ++ r = written input' b ++ s →
      a = b ∧ r = s ∧ input.between a.start a.stop = input'.between b.start b.stop

/-- Trees that are told one by one are told together, up to the parenthesis after them. -/
theorem writtenAll_append_inj {as bs : List Node} (has : ∀ a ∈ as, a.Told input input')
    (hbs : ∀ b ∈ bs, b.Lossless input'.length)
    (hread : ∀ b ∈ bs, b.All (fun node => node.label.Readable)) {start stop stop' : Nat}
    (ha : Tile as start stop) (hb : Tile bs start stop') {r s : List Char}
    (h : writtenAll input as ++ ')' :: r = writtenAll input' bs ++ ')' :: s) : as = bs ∧ r = s := by
  induction as generalizing bs start with
  | nil =>
    cases bs with
    | nil => exact ⟨rfl, (List.cons.inj h).2⟩
    | cons b bs => exact absurd (List.cons.inj h).1 (by decide)
  | cons a as ih =>
    cases bs with
    | nil => exact absurd (List.cons.inj h).1 (by decide)
    | cons b bs =>
      rw [List.forall_mem_cons] at has hbs hread
      obtain ⟨hstart, ha⟩ := ha
      obtain ⟨hstart', hb⟩ := hb
      simp only [writtenAll, List.cons_append, List.append_assoc, List.cons.injEq, true_and] at h
      obtain ⟨rfl, hrest, -⟩ := has.1 b hbs.1 hread.1 (hstart.trans hstart'.symm) _ _ h
      obtain ⟨rfl, hafter⟩ := ih has.2 hbs.2 hread.2 ha hb hrest
      exact ⟨rfl, hafter⟩

/-- **The written form of a lossless tree tells the tree**, given where it starts. -/
theorem Lossless.told {a : Node} (ha : a.Lossless input.length)
    (hread : a.All fun node => node.label.Readable) : a.Told input input' := by
  induction ha with
  | @intro a whole children ih =>
    intro b hb hread' hstart r s h
    obtain ⟨hlabel, hreads⟩ := Node.all_iff.1 hread
    obtain ⟨hlabel', hreads'⟩ := Node.all_iff.1 hread'
    obtain ⟨stop, htile⟩ := whole.exists_tile
    obtain ⟨stop', htile'⟩ := hb.whole.exists_tile
    rw [written_eq, written_eq] at h
    simp only [List.cons_append, List.append_assoc, List.cons.injEq, true_and,
      List.nil_append] at h
    obtain ⟨hl, hafterLabel⟩ := hlabel.append_inj hlabel' h
    obtain ⟨halternative, hquoted⟩ :=
      alternativeText_append_quoted_inj (List.cons.inj hafterLabel).2
    obtain ⟨htext, hafterText⟩ := Text.quoted_append_inj hquoted
    rw [hstart] at htile
    obtain ⟨hnodes, hrest⟩ := writtenAll_append_inj
      (fun child hmem => ih child hmem (hreads child hmem)) hb.children hreads' htile htile'
      hafterText
    have hstop : a.stop = b.stop := by
      have hlength := @length_between input a.start a.stop whole.bounded
      have hlength' := @length_between input' b.start b.stop hb.whole.bounded
      have hle := whole.le
      have hle' := hb.whole.le
      rw [htext] at hlength
      omega
    refine ⟨?_, hrest, htext⟩
    cases a
    cases b
    simp only [mk.injEq]
    exact ⟨hl, hstart, hstop, hnodes, halternative⟩

end

end Node

theorem Grammar.imposes_readable {grammar : Grammar} {input : Input}
    (h : ∀ rule ∈ grammar.rules, (Label.rule rule.name).Readable) :
    grammar.Imposes input fun node => node.label.Readable where
  plain node hl _ := by
    cases hlabel : node.label with
    | rule name => exact absurd hlabel (hl name)
    | _ => trivial
  rule name node hl hp := by
    obtain ⟨rule, hr⟩ := hp.exists_rule
    obtain ⟨hmem, rfl⟩ := rule?_eq_some_iff.1 hr
    rw [hl]
    exact h rule hmem

namespace Parser

/-- **The printed form of a parse tree is faithful.** If the trees of two parses, of any grammars
and inputs, look alike in print, and the names of rules in them are not mistaken for anything else,
then they are the same tree and the same text has been consumed. -/
theorem print_faithful {parser parser' : Parser} {start start' : String} {input input' : Input}
    {cache cache' : Cache} {result result' : ParseResult} {tree tree' : Node}
    (h : (parser.parseWithCache start input cache).result = .ok result)
    (ht : result.tree? = some tree)
    (h' : (parser'.parseWithCache start' input' cache').result = .ok result')
    (ht' : result'.tree? = some tree')
    (hread : ∀ node : Node, node.OccursIn tree → node.label.Readable)
    (hread' : ∀ node : Node, node.OccursIn tree' → node.label.Readable)
    (hprint : tree.print? input = tree'.print? input') :
    tree = tree' ∧ input.slice? 0 tree.stop = input'.slice? 0 tree'.stop := by
  obtain ⟨-, hstart, hlossless, -⟩ := tree_of_parse h ht
  obtain ⟨-, hstart', hlossless', -⟩ := tree_of_parse h' ht'
  rw [hlossless.print?_eq, hlossless'.print?_eq] at hprint
  have hwritten : tree.written input ++ [] = tree'.written input' ++ [] := by
    rw [String.ofList_injective (Option.some.inj hprint)]
  obtain ⟨hsame, -, htext⟩ := hlossless.told hread tree' hlossless' hread'
    (hstart.trans hstart'.symm) _ _ hwritten
  rw [hstart, hstart'] at htext
  rw [Input.slice?_eq_between (Nat.zero_le _), Input.slice?_eq_between (Nat.zero_le _), htext]
  exact ⟨hsame, rfl⟩

/-- An identifier by itself and one with more text after it. -/
theorem print_faithful_identifier :
    let identifier : Node := ⟨.sequence, 0, 2, [⟨.terminal, 0, 1, [], none⟩,
      ⟨.repetition, 1, 2, [⟨.terminal, 1, 2, [], none⟩], none⟩], none⟩
    let tree : Node := ⟨.rule "ident", 0, 2, [identifier], none⟩
    let parse (text : String) : Except ParseError ParseResult :=
      (parseWithCache ⟨Sample.identifiers, {}⟩ "ident" (.ofString text) {}).result
    ∃ furthest? tree', parse "ab,c" = .ok (.partialMatch tree 2 furthest?) ∧
      parse "ab" = .ok (.complete tree') ∧
      tree.print? (.ofString "ab,c") = tree'.print? (.ofString "ab") ∧ tree = tree' ∧
      (Input.ofString "ab,c").slice? 0 tree.stop = (Input.ofString "ab").slice? 0 tree'.stop := by
  intro identifier tree parse
  have hlonger : ∃ furthest?, parse "ab,c" = .ok (.partialMatch tree 2 furthest?) := ⟨_, rfl⟩
  obtain ⟨furthest?, hlonger⟩ := hlonger
  have hwhole : parse "ab" = .ok (.complete tree) := rfl
  have hreadable (input : Input) : Sample.identifiers.Imposes input _ :=
    Grammar.imposes_readable (by decide)
  have hprint : tree.print? (.ofString "ab,c") = tree.print? (.ofString "ab") := rfl
  have hsame := print_faithful hlonger rfl hwhole rfl
    (all_nodes_of_parse (hreadable _) hlonger rfl) (all_nodes_of_parse (hreadable _) hwhole rfl)
    hprint
  exact ⟨furthest?, tree, hlonger, hwhole, hprint, hsame⟩

end Parser

end Packrat
