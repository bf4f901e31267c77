import Packrat.Proofs.Semantics

/-!
# Grammars without left recursion

A rank of the rules in which every rule stands above those that it may come to before it has
consumed anything shows that no rule comes back to itself at one position (`Grammar.IsRanked`).
Which references these are is read off the bodies of the rules, given which rules may match nothing.
Over such a grammar every expression comes to an end at every position (`Grammar.IsRanked.decides`).
-/

set_option autoImplicit false

namespace Packrat

/-! ## What comes first -/

namespace Expr

mutual

/-- Whether the expression may match nothing, given which rules may. A pattern counts as one that
does. -/
def nullable (null : String → Bool) : Expr → Bool
  | literal text => text = ""
  | oneIn _ => false
  | any => false
  | endOfInput => true
  | regex _ => true
  | sequence exprs => allNullable null exprs
  | choice exprs => anyNullable null exprs
  | zeroOrMore _ => true
  | oneOrMore expr => expr.nullable null
  | optional _ => true
  | followedBy _ => true
  | notFollowedBy _ => true
  | ruleRef name => null name

/-- Whether all of the expressions may match nothing. -/
def allNullable (null : String → Bool) : List Expr → Bool
  | [] => true
  | expr :: exprs => expr.nullable null && allNullable null exprs

/-- Whether one of the expressions may match nothing. -/
def anyNullable (null : String → Bool) : List Expr → Bool
  | [] => false
  | expr :: exprs => expr.nullable null || anyNullable null exprs

end

mutual

/-- The references that may be met before anything is consumed, given which rules may match
nothing. -/
def leading (null : String → Bool) : Expr → List String
  | sequence exprs => leadingOfSequence null exprs
  | choice exprs => leadingOfChoice null exprs
  | zeroOrMore expr => expr.leading null
  | oneOrMore expr => expr.leading null
  | optional expr => expr.leading null
  | followedBy expr => expr.leading null
  | notFollowedBy expr => expr.leading null
  | ruleRef name => [name]
  | literal _ => []
  | oneIn _ => []
  | any => []
  | endOfInput => []
  | regex _ => []

/-- The references that may be met before anything is consumed by expressions, one after the
other. -/
def leadingOfSequence (null : String → Bool) : List Expr → List String
  | [] => []
  | expr :: exprs =>
    expr.leading null ++ if expr.nullable null then leadingOfSequence null exprs else []

/-- The references that may be met before anything is consumed by one of the expressions. -/
def leadingOfChoice (null : String → Bool) : List Expr → List String
  | [] => []
  | expr :: exprs => expr.leading null ++ leadingOfChoice null exprs

end

end Expr

/-- The rules that may match nothing are among those of `null`, and each rule stands above the rules
that it may come to before anything is consumed. -/
structure Grammar.IsRanked (grammar : Grammar) (null : String → Bool) (rank : String → Nat) :
    Prop where
  null_of_nullable : ∀ rule ∈ grammar.rules, rule.body.nullable null = true → null rule.name = true
  rank_lt : ∀ rule ∈ grammar.rules, ∀ name ∈ rule.body.leading null, rank name < rank rule.name

namespace Grammar

variable {grammar : Grammar} {input : Input} {null : String → Bool} {rank : String → Nat}

/-- The expression comes to an end at the position. -/
def Decides (grammar : Grammar) (input : Input) (expr : Expr) (pos : Nat) : Prop :=
  ∃ verdict, grammar.Derives input expr pos verdict

theorem Derives.le {expr : Expr} {pos stop : Nat}
    (h : grammar.Derives input expr pos (.success stop)) (hpos : pos ≤ input.length) :
    pos ≤ stop := (h.within hpos).1

/-- **What matches nothing may match nothing.** -/
theorem Derives.nullable
    (hnull : ∀ rule ∈ grammar.rules, rule.body.nullable null = true → null rule.name = true)
    {expr : Expr} {pos : Nat} {verdict : Verdict} (h : grammar.Derives input expr pos verdict)
    (hpos : pos ≤ input.length) (hv : verdict = .success pos) : expr.nullable null = true := by
  induction h with
  | literal_success _ =>
    simp only [Verdict.success.injEq] at hv
    simp only [Expr.nullable, decide_eq_true_eq]
    exact String.toList_eq_nil_iff.1 (List.eq_nil_of_length_eq_zero (by omega))
  | oneIn_success => simp at hv
  | any_success => simp at hv
  | sequence_nil => rfl
  | sequence_cons first rest ihfirst ihrest =>
    subst hv
    obtain ⟨hle, hbound⟩ := first.within hpos
    have hback := rest.le hbound
    obtain rfl := Nat.le_antisymm hle hback
    simp only [Expr.nullable, Expr.allNullable, Bool.and_eq_true]
    exact ⟨ihfirst hpos rfl, ihrest hpos rfl⟩
  | choice_success _ ih =>
    simp only [Expr.nullable, Expr.anyNullable, Bool.or_eq_true]
    exact .inl (ih hpos hv)
  | choice_failure _ _ _ ih =>
    simp only [Expr.nullable, Expr.anyNullable, Bool.or_eq_true]
    exact .inr (ih hpos hv)
  | oneOrMore_empty _ ih => exact ih hpos rfl
  | oneOrMore_more round hne rest =>
    subst hv
    obtain ⟨hle, hbound⟩ := round.within hpos
    have hback := rest.le hbound
    omega
  | ruleRef_body hr _ ih =>
    obtain ⟨hmem, rfl⟩ : _ ∈ grammar.rules ∧ _ :=
      ⟨List.mem_of_find?_eq_some hr, by simpa using List.find?_some hr⟩
    exact hnull _ hmem (ih hpos hv)
  | _ => first | rfl | cases hv

/-! ## One position -/

variable {pos : Nat}

/-- Every expression comes to an end further on. -/
def DecidesAfter (grammar : Grammar) (input : Input) (pos : Nat) : Prop :=
  ∀ expr place, pos < place → place ≤ input.length → grammar.Decides input expr place

/-- What begins with an expression that comes to an end does so too, if what follows a match of
nothing does. -/
theorem decides_sequence_cons
    (hnull : ∀ rule ∈ grammar.rules, rule.body.nullable null = true → null rule.name = true)
    (hpos : pos ≤ input.length) (later : grammar.DecidesAfter input pos) {expr : Expr}
    {exprs : List Expr}
    (hfirst : grammar.Decides input expr pos)
    (hrest : expr.nullable null = true → grammar.Decides input (.sequence exprs) pos) :
    grammar.Decides input (.sequence (expr :: exprs)) pos := by
  obtain ⟨verdict, hfirst⟩ := hfirst
  cases verdict with
  | success stop =>
    obtain ⟨hle, hbound⟩ := hfirst.within hpos
    by_cases hstop : stop = pos
    · subst hstop
      obtain ⟨verdict, hrest⟩ := hrest (hfirst.nullable hnull hpos rfl)
      exact ⟨verdict, .sequence_cons hfirst hrest⟩
    · obtain ⟨verdict, hrest⟩ := later (.sequence exprs) stop (by omega) hbound
      exact ⟨verdict, .sequence_cons hfirst hrest⟩
  | failure => exact ⟨_, .sequence_failure hfirst⟩
  | undefined name => exact ⟨_, .sequence_undefined hfirst⟩

theorem decides_repetition (hpos : pos ≤ input.length) (later : grammar.DecidesAfter input pos)
    {expr : Expr} (h : grammar.Decides input expr pos) :
    grammar.Decides input (.zeroOrMore expr) pos ∧ grammar.Decides input (.oneOrMore expr) pos := by
  obtain ⟨verdict, hround⟩ := h
  cases verdict with
  | success stop =>
    obtain ⟨hle, hbound⟩ := hround.within hpos
    by_cases hstop : stop = pos
    · subst hstop
      exact ⟨⟨_, .zeroOrMore_empty hround⟩, _, .oneOrMore_empty hround⟩
    · obtain ⟨verdict, hrest⟩ := later (.zeroOrMore expr) stop (by omega) hbound
      exact ⟨⟨verdict, .zeroOrMore_more hround hstop hrest⟩, verdict,
        .oneOrMore_more hround hstop hrest⟩
  | failure => exact ⟨⟨_, .zeroOrMore_failure hround⟩, _, .oneOrMore_failure hround⟩
  | undefined name => exact ⟨⟨_, .zeroOrMore_undefined hround⟩, _, .oneOrMore_undefined hround⟩

mutual

/-- **An expression comes to an end at a position** if all expressions do further on, and at the
position the bodies of the rules that it may come to there. -/
theorem decides_of_leading
    (hnull : ∀ rule ∈ grammar.rules, rule.body.nullable null = true → null rule.name = true)
    (hpos : pos ≤ input.length) (later : grammar.DecidesAfter input pos) (expr : Expr)
    (rules : ∀ name ∈ expr.leading null, ∀ rule, grammar.rule? name = some rule →
      grammar.Decides input rule.body pos) : grammar.Decides input expr pos := by
  cases expr with
  | literal text =>
    by_cases h : text.toList <+: input.rest pos
    · exact ⟨_, .literal_success h⟩
    · exact ⟨_, .literal_failure h⟩
  | oneIn cls =>
    by_cases h : (input.atom? pos).any cls.accepts = true
    · obtain ⟨c, hc, haccepts⟩ := (Option.any_eq_true _ _).1 h
      exact ⟨_, .oneIn_success hc haccepts⟩
    · refine ⟨_, .oneIn_failure fun c hc => ?_⟩
      rw [hc] at h
      exact Bool.eq_false_iff.2 h
  | any =>
    cases h : input.atom? pos with
    | some c => exact ⟨_, .any_success h⟩
    | none => exact ⟨_, .any_failure h⟩
  | endOfInput =>
    by_cases h : pos = input.length
    · exact ⟨_, .endOfInput_success h⟩
    · exact ⟨_, .endOfInput_failure h⟩
  | regex pattern =>
    cases h : pattern.matchLength? (input.rest pos) with
    | some length => exact ⟨_, .regex_success h⟩
    | none => exact ⟨_, .regex_failure h⟩
  | sequence exprs => exact decides_sequence hnull hpos later exprs rules
  | choice exprs => exact decides_choice hnull hpos later exprs rules
  | zeroOrMore expr =>
    -- the rounds after one that consumes something are decided further on
    have hround := decides_of_leading hnull hpos later expr rules
    exact (decides_repetition hpos later hround).1
  | oneOrMore expr =>
    have hround := decides_of_leading hnull hpos later expr rules
    exact (decides_repetition hpos later hround).2
  | optional expr =>
    obtain ⟨_ | _ | _, h⟩ := decides_of_leading hnull hpos later expr rules
    · exact ⟨_, .optional_success h⟩
    · exact ⟨_, .optional_failure h⟩
    · exact ⟨_, .optional_undefined h⟩
  | followedBy expr =>
    obtain ⟨_ | _ | _, h⟩ := decides_of_leading hnull hpos later expr rules
    · exact ⟨_, .followedBy_success h⟩
    · exact ⟨_, .followedBy_failure h⟩
    · exact ⟨_, .followedBy_undefined h⟩
  | notFollowedBy expr =>
    obtain ⟨_ | _ | _, h⟩ := decides_of_leading hnull hpos later expr rules
    · exact ⟨_, .notFollowedBy_success h⟩
    · exact ⟨_, .notFollowedBy_failure h⟩
    · exact ⟨_, .notFollowedBy_undefined h⟩
  | ruleRef name =>
    cases hr : grammar.rule? name with
    | none => exact ⟨_, .ruleRef_undefined hr⟩
    | some rule =>
      obtain ⟨verdict, h⟩ := rules name (List.mem_singleton_self _) rule hr
      exact ⟨verdict, .ruleRef_body hr h⟩

theorem decides_sequence
    (hnull : ∀ rule ∈ grammar.rules, rule.body.nullable null = true → null rule.name = true)
    (hpos : pos ≤ input.length) (later : grammar.DecidesAfter input pos) (exprs : List Expr)
    (rules : ∀ name ∈ Expr.leadingOfSequence null exprs, ∀ rule, grammar.rule? name = some rule →
      grammar.Decides input rule.body pos) : grammar.Decides input (.sequence exprs) pos := by
  cases exprs with
  | nil => exact ⟨_, .sequence_nil⟩
  | cons expr exprs =>
    simp only [Expr.leadingOfSequence, List.mem_append] at rules
    refine decides_sequence_cons hnull hpos later ?_ fun hn => ?_
    · exact decides_of_leading hnull hpos later expr fun name hmem => rules name (.inl hmem)
    · refine decides_sequence hnull hpos later exprs fun name hmem => rules name (.inr ?_)
      rwa [if_pos hn]

theorem decides_choice
    (hnull : ∀ rule ∈ grammar.rules, rule.body.nullable null = true → null rule.name = true)
    (hpos : pos ≤ input.length) (later : grammar.DecidesAfter input pos) (exprs : List Expr)
    (rules : ∀ name ∈ Expr.leadingOfChoice null exprs, ∀ rule, grammar.rule? name = some rule →
      grammar.Decides input rule.body pos) : grammar.Decides input (.choice exprs) pos := by
  cases exprs with
  | nil => exact ⟨_, .choice_nil⟩
  | cons expr exprs =>
    simp only [Expr.leadingOfChoice, List.mem_append] at rules
    obtain ⟨_ | _ | _, h⟩ :=
      decides_of_leading hnull hpos later expr fun name hmem => rules name (.inl hmem)
    · exact ⟨_, .choice_success h⟩
    · obtain ⟨verdict, hrest⟩ :=
        decides_choice hnull hpos later exprs fun name hmem => rules name (.inr hmem)
      exact ⟨verdict, .choice_failure h hrest⟩
    · exact ⟨_, .choice_undefined h⟩

end

/-! ## All positions -/

/-- **Without left recursion every expression comes to an end**, at every position of every input:
by induction on what is left of the input, and at one position on the rank of the rules. -/
theorem IsRanked.decides (h : grammar.IsRanked null rank) {pos : Nat} (hpos : pos ≤ input.length)
    (expr : Expr) : grammar.Decides input expr pos := by
  induction hleft : input.length - pos using Nat.strongRecOn generalizing pos expr with
  | ind left ih =>
    have later : grammar.DecidesAfter input pos :=
      fun expr place hlt hle => ih (input.length - place) (by omega) hle expr rfl
    have body (name : String) (rule : Rule) (hr : grammar.rule? name = some rule) :
        grammar.Decides input rule.body pos := by
      induction hrank : rank name using Nat.strongRecOn generalizing name rule with
      | ind bound ihrank =>
        have hmem : rule ∈ grammar.rules := List.mem_of_find?_eq_some hr
        obtain rfl : rule.name = name := by simpa using List.find?_some hr
        refine decides_of_leading h.null_of_nullable hpos later rule.body fun first hfirst => ?_
        have hlt := h.rank_lt rule hmem first hfirst
        exact fun rule' hr' => ihrank (rank first) (hrank ▸ hlt) first rule' hr' rfl
    exact decides_of_leading h.null_of_nullable hpos later expr fun name _ => body name

end Grammar

end Packrat
