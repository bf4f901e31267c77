import Packrat.Proofs.Adequacy
import Packrat.Proofs.Description
import Packrat.Proofs.Regrouping
import Packrat.Sample.Grammars

/-!
# Grouping in descriptions

The description of an expression that is made of the names of rules (`Expr.Composed`) denotes one
that ends as the expression does, if no parentheses are missing in it
(`Description.describes_of_grouped`). They are missing around a choice in a sequence and around a
predicate that is repeated or optional (`Expr.Grouped`). As a text denotes one expression at most,
expressions with the same description end alike over every grammar and input
(`Context.matchExpr_of_describe_eq`); where parentheses are missing they may not
(`Context.describe_ambiguous`).
-/

set_option autoImplicit false

namespace Packrat.Expr

/-! ## Expressions made of names -/

/-- The expression is made of the names of rules, in letters, by sequences and choices of two parts
or more, repetitions, options and lookahead. -/
inductive Composed : Expr → Prop
  | ruleRef {name : String} (hne : name ≠ "")
      (h : ∀ c ∈ name.toList, Unicode.isAlphabetic c = true) : Composed (.ruleRef name)
  | sequence {exprs : List Expr} (htwo : 2 ≤ exprs.length) (h : ∀ expr ∈ exprs, Composed expr) :
      Composed (.sequence exprs)
  | choice {exprs : List Expr} (htwo : 2 ≤ exprs.length) (h : ∀ expr ∈ exprs, Composed expr) :
      Composed (.choice exprs)
  | zeroOrMore {expr : Expr} (h : Composed expr) : Composed (.zeroOrMore expr)
  | oneOrMore {expr : Expr} (h : Composed expr) : Composed (.oneOrMore expr)
  | optional {expr : Expr} (h : Composed expr) : Composed (.optional expr)
  | followedBy {expr : Expr} (h : Composed expr) : Composed (.followedBy expr)
  | notFollowedBy {expr : Expr} (h : Composed expr) : Composed (.notFollowedBy expr)

/-- The expression is a predicate, which looks ahead. -/
def isPredicate : Expr → Bool
  | followedBy _ => true
  | notFollowedBy _ => true
  | _ => false

/-- No parentheses are missing in the description: nowhere in the expression is a choice a part of
a sequence, or a predicate what is repeated or optional. -/
inductive Grouped : Expr → Prop
  | ruleRef {name : String} : Grouped (.ruleRef name)
  | sequence {exprs : List Expr} (hchoice : ∀ inner, choice inner ∉ exprs)
      (h : ∀ expr ∈ exprs, Grouped expr) : Grouped (.sequence exprs)
  | choice {exprs : List Expr} (h : ∀ expr ∈ exprs, Grouped expr) : Grouped (.choice exprs)
  | zeroOrMore {expr : Expr} (hpredicate : expr.isPredicate = false) (h : Grouped expr) :
      Grouped (.zeroOrMore expr)
  | oneOrMore {expr : Expr} (hpredicate : expr.isPredicate = false) (h : Grouped expr) :
      Grouped (.oneOrMore expr)
  | optional {expr : Expr} (hpredicate : expr.isPredicate = false) (h : Grouped expr) :
      Grouped (.optional expr)
  | followedBy {expr : Expr} (h : Grouped expr) : Grouped (.followedBy expr)
  | notFollowedBy {expr : Expr} (h : Grouped expr) : Grouped (.notFollowedBy expr)

/-! ## Descriptions -/

theorem describeMore_append (separator before after : String) (exprs : List Expr) :
    describeMore separator (before ++ after) exprs =
      before ++ describeMore separator after exprs := by
  induction exprs generalizing after with
  | nil => rfl
  | cons expr exprs ih =>
    rw [describeMore, describeMore, ← ih]
    simp only [String.append_assoc]

theorem describe_sequence_cons (expr next : Expr) (exprs : List Expr) :
    (sequence (expr :: next :: exprs)).describe =
      expr.describe ++ " " ++ (sequence (next :: exprs)).describe := by
  rw [describe, describeMore, describe, describeMore_append]

theorem describe_choice_cons (expr next : Expr) (exprs : List Expr) :
    (choice (expr :: next :: exprs)).describe =
      expr.describe ++ " / " ++ (choice (next :: exprs)).describe := by
  rw [describe, describeMore, describe, describeMore_append]

end Packrat.Expr

namespace Packrat.Description

open Packrat.Expr

/-- The level of an expression's description. -/
def levelOf : Expr → Level
  | .sequence _ => .sequence
  | .choice _ => .choice
  | .followedBy _ => .part
  | .notFollowedBy _ => .part
  | _ => .suffixed

/-- The text denotes, at the level, an expression that ends as this one does. -/
def Describes (level : Level) (text : List Char) (expr : Expr) : Prop :=
  ∃ other, expr.EndsAs other ∧ Denotes level text other

variable {level : Level} {text text' : List Char} {expr : Expr} {exprs others : List Expr}

/-! ## Sequences and choices -/

theorem Denotes.eq_sequence (h : Denotes .sequence text expr) :
    ∃ exprs, expr = .sequence exprs := by
  cases h with
  | last => exact ⟨_, rfl⟩
  | next => exact ⟨_, rfl⟩

theorem Denotes.eq_choice (h : Denotes .choice text expr) : ∃ exprs, expr = .choice exprs := by
  cases h with
  | lastAlternative => exact ⟨_, rfl⟩
  | nextAlternative => exact ⟨_, rfl⟩

theorem Denotes.append_sequence (h : Denotes .sequence text (.sequence exprs))
    (h' : Denotes .sequence text' (.sequence others)) :
    Denotes .sequence (text ++ ' ' :: text') (.sequence (exprs ++ others)) := by
  induction exprs generalizing text with
  | nil => cases h
  | cons expr exprs ih =>
    cases h with
    | last h => exact .next h h'
    | next first rest =>
      rw [List.append_assoc, List.cons_append]
      exact .next first (ih rest)

theorem Denotes.append_choice (h : Denotes .choice text (.choice exprs))
    (h' : Denotes .choice text' (.choice others)) :
    Denotes .choice (text ++ ' ' :: '/' :: ' ' :: text') (.choice (exprs ++ others)) := by
  induction exprs generalizing text with
  | nil => cases h
  | cons expr exprs ih =>
    cases h with
    | lastAlternative h => exact .nextAlternative h h'
    | nextAlternative first rest =>
      simp only [List.append_assoc, List.cons_append]
      exact .nextAlternative first (ih rest)

namespace Describes

theorem group (h : Describes .choice text expr) :
    Describes .atom ('(' :: (text ++ [')'])) expr := by
  obtain ⟨other, hends, hdenotes⟩ := h
  exact ⟨other, hends, .group hdenotes⟩

theorem atom (h : Describes .atom text expr) : Describes .suffixed text expr := by
  obtain ⟨other, hends, hdenotes⟩ := h
  exact ⟨other, hends, by simpa using hdenotes.suffixed []⟩

theorem part (h : Describes .suffixed text expr) : Describes .part text expr := by
  obtain ⟨other, hends, hdenotes⟩ := h
  exact ⟨other, hends, .plain hdenotes⟩

theorem sequence (h : Describes .part text expr) : Describes .sequence text expr := by
  obtain ⟨other, hends, hdenotes⟩ := h
  exact ⟨_, hends.trans (endsAs_sequence other), .last hdenotes⟩

theorem choice (h : Describes .sequence text expr) : Describes .choice text expr := by
  obtain ⟨other, hends, hdenotes⟩ := h
  exact ⟨_, hends.trans (endsAs_choice other), .lastAlternative hdenotes⟩

/-- The parts of a sequence may be sequences: they denote one together. -/
theorem sequence_of_parts (hne : exprs ≠ [])
    (h : ∀ expr ∈ exprs, Describes .sequence expr.describe.toList expr) :
    Describes .sequence (Expr.sequence exprs).describe.toList (.sequence exprs) := by
  induction exprs with
  | nil => exact absurd rfl hne
  | cons expr exprs ih =>
    rw [List.forall_mem_cons] at h
    obtain ⟨other, hends, hdenotes⟩ := h.1
    obtain ⟨inner, rfl⟩ := hdenotes.eq_sequence
    cases exprs with
    | nil =>
      have happend := EndsAs.sequence_append inner []
      rw [List.append_nil] at happend
      rw [describe, describeMore]
      exact ⟨_, (hends.sequence_cons (.refl _)).trans happend, hdenotes⟩
    | cons next exprs =>
      obtain ⟨other, hends', hdenotes'⟩ := ih nofun h.2
      obtain ⟨others, rfl⟩ := hdenotes'.eq_sequence
      refine ⟨_, (hends.sequence_cons hends').trans (.sequence_append inner others), ?_⟩
      rw [describe_sequence_cons, String.append_assoc, String.toList_append, String.toList_append]
      exact hdenotes.append_sequence hdenotes'

theorem choice_of_alternatives (hne : exprs ≠ [])
    (h : ∀ expr ∈ exprs, Describes .choice expr.describe.toList expr) :
    Describes .choice (Expr.choice exprs).describe.toList (.choice exprs) := by
  induction exprs with
  | nil => exact absurd rfl hne
  | cons expr exprs ih =>
    rw [List.forall_mem_cons] at h
    obtain ⟨other, hends, hdenotes⟩ := h.1
    obtain ⟨inner, rfl⟩ := hdenotes.eq_choice
    cases exprs with
    | nil =>
      have happend := EndsAs.choice_append inner []
      rw [List.append_nil] at happend
      rw [describe, describeMore]
      exact ⟨_, (hends.choice_cons (.refl _)).trans happend, hdenotes⟩
    | cons next exprs =>
      obtain ⟨other, hends', hdenotes'⟩ := ih nofun h.2
      obtain ⟨others, rfl⟩ := hdenotes'.eq_choice
      refine ⟨_, (hends.choice_cons hends').trans (.choice_append inner others), ?_⟩
      rw [describe_choice_cons, String.append_assoc, String.toList_append, String.toList_append]
      exact hdenotes.append_choice hdenotes'

theorem as_sequence (h : Describes (levelOf expr) text expr)
    (hchoice : ∀ inner, expr ≠ .choice inner) : Describes .sequence text expr := by
  cases expr with
  | sequence => exact h
  | choice inner => exact absurd rfl (hchoice inner)
  | followedBy => exact h.sequence
  | notFollowedBy => exact h.sequence
  | _ => exact h.part.sequence

theorem as_choice (h : Describes (levelOf expr) text expr) : Describes .choice text expr := by
  cases expr with
  | choice => exact h
  | _ => exact (h.as_sequence nofun).choice

/-! ## Operands -/

/-- What is no predicate may be repeated, in parentheses where they are needed. -/
theorem operand (hcomposed : expr.Composed) (hpredicate : expr.isPredicate = false)
    (h : Describes (levelOf expr) expr.describe.toList expr) :
    Describes .suffixed (expr.parenthesized expr.describe).toList expr := by
  have hgroup (hcompound : expr.isCompound = true) :
      Describes .suffixed (expr.parenthesized expr.describe).toList expr := by
    rw [parenthesized, if_pos hcompound, String.append_assoc, String.toList_append,
      String.toList_append]
    exact h.as_choice.group.atom
  cases hcomposed with
  | sequence htwo => exact hgroup (decide_eq_true htwo)
  | choice htwo => exact hgroup (decide_eq_true htwo)
  | followedBy => cases hpredicate
  | notFollowedBy => cases hpredicate
  | _ => exact h

theorem operand_part (hcomposed : expr.Composed)
    (h : Describes (levelOf expr) expr.describe.toList expr) :
    Describes .part (expr.parenthesized expr.describe).toList expr := by
  cases hpredicate : expr.isPredicate with
  | false => exact (h.operand hcomposed hpredicate).part
  | true =>
    cases hcomposed with
    | followedBy => exact h
    | notFollowedBy => exact h
    | _ => cases hpredicate

theorem suffix (h : Describes .suffixed text expr) (suffix : Suffix) :
    Describes .suffixed (text ++ [suffix.sign]) (suffix.apply expr) := by
  obtain ⟨other, hends, hdenotes⟩ := h
  refine ⟨suffix.apply other, ?_, ?_⟩
  · cases suffix with
    | zeroOrMore => exact hends.zeroOrMore
    | oneOrMore => exact hends.oneOrMore
    | optional => exact hends.optional
  · cases hdenotes with
    | suffixed hatom suffixes =>
      have hmore := hatom.suffixed (suffixes ++ [suffix])
      rwa [List.map_append, List.foldl_append, ← List.append_assoc] at hmore

theorem lookahead (h : Describes .part text expr) (lookahead : Lookahead) :
    Describes .part (lookahead.sign :: text) (lookahead.apply expr) := by
  obtain ⟨other, hends, hdenotes⟩ := h
  refine ⟨lookahead.apply other, ?_, .lookahead lookahead hdenotes⟩
  cases lookahead with
  | followedBy => exact hends.followedBy
  | notFollowedBy => exact hends.notFollowedBy

end Describes

/-! ## Expressions and their descriptions -/

/-- **A description with all parentheses denotes what it describes**, up to the grouping of
sequences in sequences and of choices in choices. -/
theorem describes_of_grouped (h : expr.Composed) (hg : expr.Grouped) :
    Describes (levelOf expr) expr.describe.toList expr := by
  induction h with
  | @ruleRef name hne hname =>
    have hne : name.toList ≠ [] := fun h => hne (String.toList_eq_nil_iff.1 h)
    rw [describe]
    exact Describes.atom ⟨_, .refl _, .name hne hname⟩
  | sequence htwo _ ih =>
    cases hg with
    | sequence hchoice hg =>
      refine .sequence_of_parts (List.ne_nil_of_length_pos (by omega)) fun expr hmem => ?_
      exact (ih expr hmem (hg expr hmem)).as_sequence fun inner he => hchoice inner (he ▸ hmem)
  | choice htwo _ ih =>
    cases hg with
    | choice hg =>
      refine .choice_of_alternatives (List.ne_nil_of_length_pos (by omega)) fun expr hmem => ?_
      exact (ih expr hmem (hg expr hmem)).as_choice
  | zeroOrMore hexpr ih =>
    cases hg with
    | zeroOrMore hpredicate hg =>
      rw [describe, String.toList_append]
      exact ((ih hg).operand hexpr hpredicate).suffix .zeroOrMore
  | oneOrMore hexpr ih =>
    cases hg with
    | oneOrMore hpredicate hg =>
      rw [describe, String.toList_append]
      exact ((ih hg).operand hexpr hpredicate).suffix .oneOrMore
  | optional hexpr ih =>
    cases hg with
    | optional hpredicate hg =>
      rw [describe, String.toList_append]
      exact ((ih hg).operand hexpr hpredicate).suffix .optional
  | followedBy hexpr ih =>
    cases hg with
    | followedBy hg =>
      rw [describe, String.toList_append]
      exact ((ih hg).operand_part hexpr).lookahead .followedBy
  | notFollowedBy hexpr ih =>
    cases hg with
    | notFollowedBy hg =>
      rw [describe, String.toList_append]
      exact ((ih hg).operand_part hexpr).lookahead .notFollowedBy

/-- **Expressions with the same description end alike**, wherever both come to an end. -/
theorem verdict_eq_of_describe_eq {other : Expr} {grammar : Grammar} {input : Input} {pos : Nat}
    {verdict verdict' : Verdict} (h : expr.Composed) (hg : expr.Grouped) (h' : other.Composed)
    (hg' : other.Grouped) (hdescribe : expr.describe = other.describe) (hpos : pos ≤ input.length)
    (hd : grammar.Derives input expr pos verdict)
    (hd' : grammar.Derives input other pos verdict') : verdict = verdict' := by
  obtain ⟨denoted, hends, hdenotes⟩ := (describes_of_grouped h hg).as_choice
  obtain ⟨denoted', hends', hdenotes'⟩ := (describes_of_grouped h' hg').as_choice
  rw [hdescribe] at hdenotes
  cases hdenotes.eq hdenotes'
  exact (hends _ _ _ _ hd).unique (hends' _ _ _ _ hd') hpos

end Packrat.Description

namespace Packrat.Context

/-! ## The engine -/

/-- **Expressions with the same description match alike**, if they are made of names in letters and
no parentheses are missing in the description. Over every grammar and input, at every position and
whatever the options, both matches succeed and stop at the same position, or both fail, or both end
at the same undefined rule, unless one of them runs out of depth. -/
theorem matchExpr_of_describe_eq {expr other : Expr} (h : expr.Composed) (hg : expr.Grouped)
    (h' : other.Composed) (hg' : other.Grouped) (hdescribe : expr.describe = other.describe)
    (grammar : Grammar) (input : Input) (cursor : Cursor input) (options options' : Options) :
    let result (expr : Expr) (options : Options) :=
      (matchExpr ⟨grammar, input, options⟩ expr cursor {}).1
    (∀ limit place, result expr options ≠ .error (.recursionLimit limit place)) →
    (∀ limit place, result other options' ≠ .error (.recursionLimit limit place)) →
    ∃ verdict, Verdict.ofResult? (result expr options) = some verdict ∧
      Verdict.ofResult? (result other options') = some verdict := by
  intro result hlimit hlimit'
  obtain ⟨verdict, hv, hd⟩ := (matchExpr_adequate grammar input expr cursor).1 options hlimit
  obtain ⟨verdict', hv', hd'⟩ := (matchExpr_adequate grammar input other cursor).1 options' hlimit'
  cases Description.verdict_eq_of_describe_eq h hg h' hg' hdescribe cursor.le_length hd hd'
  exact ⟨verdict, hv, hv'⟩

theorem forall_mem_pair {property : Expr → Prop} {expr other : Expr} (h : property expr)
    (h' : property other) : ∀ part ∈ [expr, other], property part :=
  List.forall_mem_cons.2 ⟨h, List.forall_mem_singleton.2 h'⟩

theorem composed_keyword : (Expr.ruleRef "keyword").Composed :=
  .ruleRef (by decide) (List.all_eq_true.1 rfl)

theorem composed_ident : (Expr.ruleRef "ident").Composed :=
  .ruleRef (by decide) (List.all_eq_true.1 rfl)

/-- Sequences and choices that are grouped in two ways. -/
theorem matchExpr_of_describe_eq_regrouped :
    let keyword : Expr := .ruleRef "keyword"
    let ident : Expr := .ruleRef "ident"
    let expr : Expr := .sequence [.sequence [.notFollowedBy keyword, ident],
      .zeroOrMore (.choice [.choice [keyword, ident], keyword])]
    let other : Expr := .sequence [.notFollowedBy keyword, .sequence [ident,
      .zeroOrMore (.choice [keyword, .choice [ident, keyword]])]]
    let result (expr : Expr) := (matchExpr ⟨Sample.identifiers, .ofString "x", {}⟩ expr .start {}).1
    expr.describe = "!keyword ident (keyword / ident / keyword)*" ∧
      expr.describe = other.describe ∧
      ∃ verdict, Verdict.ofResult? (result expr) = some verdict ∧
        Verdict.ofResult? (result other) = some verdict := by
  intro keyword ident expr other result
  have hpredicate : keyword.notFollowedBy.Composed := .notFollowedBy composed_keyword
  have hexpr : expr.Composed :=
    .sequence (Nat.le_refl 2) (forall_mem_pair
      (.sequence (Nat.le_refl 2) (forall_mem_pair hpredicate composed_ident))
      (.zeroOrMore (.choice (Nat.le_refl 2) (forall_mem_pair
        (.choice (Nat.le_refl 2) (forall_mem_pair composed_keyword composed_ident))
        composed_keyword))))
  have hother : other.Composed :=
    .sequence (Nat.le_refl 2) (forall_mem_pair hpredicate
      (.sequence (Nat.le_refl 2) (forall_mem_pair composed_ident
        (.zeroOrMore (.choice (Nat.le_refl 2) (forall_mem_pair composed_keyword
          (.choice (Nat.le_refl 2) (forall_mem_pair composed_ident composed_keyword))))))))
  have hgrouped : expr.Grouped :=
    .sequence (by simp) (forall_mem_pair
      (.sequence (by simp [ident]) (forall_mem_pair (.notFollowedBy .ruleRef) .ruleRef))
      (.zeroOrMore rfl (.choice (forall_mem_pair (.choice (forall_mem_pair .ruleRef .ruleRef))
        .ruleRef))))
  have hgrouped' : other.Grouped :=
    .sequence (by simp) (forall_mem_pair (.notFollowedBy .ruleRef)
      (.sequence (by simp [ident]) (forall_mem_pair .ruleRef
        (.zeroOrMore rfl (.choice (forall_mem_pair .ruleRef
          (.choice (forall_mem_pair .ruleRef .ruleRef))))))))
  have hlimit (expr : Expr) (h : Verdict.ofResult? (result expr) = some (.success 1))
      (limit place : Nat) : result expr ≠ .error (.recursionLimit limit place) := by
    intro hexhausted
    rw [hexhausted] at h
    cases h
  exact ⟨rfl, rfl, matchExpr_of_describe_eq hexpr hgrouped hother hgrouped' rfl Sample.identifiers
    (.ofString "x") .start {} {} (hlimit expr (by decide +kernel))
    (hlimit other (by decide +kernel))⟩

end Packrat.Context

/-! ## Missing parentheses -/

namespace Packrat.Expr

/-- A choice in a sequence is described as a sequence in a choice is. -/
theorem describe_choice_in_sequence (first second third : Expr) :
    (sequence [first, choice [second, third]]).describe =
      (choice [sequence [first, second], third]).describe := by
  simp only [describe, describeMore, String.append_assoc]

/-- A repeated predicate is described as the predicate of a repetition is. Where the expression
fails, the former succeeds and the latter fails. -/
theorem describe_repeated_predicate (expr : Expr) :
    (zeroOrMore (notFollowedBy expr)).describe = (notFollowedBy (zeroOrMore expr)).describe ∧
    ∀ (grammar : Grammar) (input : Input) (pos : Nat), grammar.Derives input expr pos .failure →
      grammar.Derives input (zeroOrMore (notFollowedBy expr)) pos (.success pos) ∧
        grammar.Derives input (notFollowedBy (zeroOrMore expr)) pos .failure := by
  constructor
  · simp [describe, parenthesized, isCompound, String.append_assoc]
  · intro grammar input pos h
    exact ⟨.zeroOrMore_empty (.notFollowedBy_failure h),
      .notFollowedBy_success (.zeroOrMore_failure h)⟩

end Packrat.Expr

namespace Packrat.Context

/-- **Expressions with the same description may not match alike** where parentheses are missing. -/
theorem describe_ambiguous :
    ¬ ∀ expr other : Expr, expr.Composed → other.Composed → expr.describe = other.describe →
      ∀ (grammar : Grammar) (input : Input) (cursor : Cursor input) (options : Options),
        let result (expr : Expr) := (matchExpr ⟨grammar, input, options⟩ expr cursor {}).1
        (∀ limit place, result expr ≠ .error (.recursionLimit limit place)) →
        (∀ limit place, result other ≠ .error (.recursionLimit limit place)) →
        ∀ stop, (∃ node?, result expr = .ok (.success stop node?)) ↔
          ∃ node?, result other = .ok (.success stop node?) := by
  intro halike
  let keyword : Expr := .ruleRef "keyword"
  let ident : Expr := .ruleRef "ident"
  have hexpr : (Expr.sequence [keyword, .choice [keyword, ident]]).Composed :=
    .sequence (Nat.le_refl 2) (forall_mem_pair composed_keyword
      (.choice (Nat.le_refl 2) (forall_mem_pair composed_keyword composed_ident)))
  have hother : (Expr.choice [.sequence [keyword, keyword], ident]).Composed :=
    .choice (Nat.le_refl 2) (forall_mem_pair
      (.sequence (Nat.le_refl 2) (forall_mem_pair composed_keyword composed_keyword))
      composed_ident)
  have halike := halike _ _ hexpr hother (Expr.describe_choice_in_sequence _ _ _)
    Sample.identifiers (.ofString "x") .start {} (by rintro limit place h; cases h)
    (by rintro limit place h; cases h) 1
  -- the identifier is matched by the last alternative, while no keyword begins the sequence
  obtain ⟨node?, h⟩ := halike.2 ⟨_, rfl⟩
  cases h

end Packrat.Context
