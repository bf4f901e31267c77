import Packrat.Proofs.AttemptsPlain
import Packrat.Proofs.CacheTruth
import Packrat.Proofs.StartRun
import Packrat.Sample.Grammars

/-!
# The furthest failure

Which failures there are to be met is told by the semantics (`Grammar.Raises`): those of terminals
and predicates that are attempted, not within a lookahead. `furthest_isJoin_raised` says that the
furthest failure of a session is what these come to, together with the one that it held before,
whether outcomes are taken from a cache or not; and so is the failure of a parse.

* The failures of an answer of plain evaluation are those that are raised
  (`Grammar.Yields.mem_raised_iff`).
* An evaluation merges them into the furthest failure if the entries of its cache keep answers
  (`Context.evaluate_furthest`); that the cache is sound is more than is needed.
* The failure that a match ends with is drawn from those that are raised
  (`Grammar.Yields.drawn`), unless a choice has no alternative.
-/

set_option autoImplicit false

namespace Packrat

variable {grammar : Grammar} {input : Input}

/-! ## What is raised -/

/-- Matching an expression at a position raises a failure outside of lookahead: one of its own, or
one of something that it attempts. -/
inductive Grammar.Raises (grammar : Grammar) (input : Input) : Expr → Nat → Failure → Prop
  | own {expr : Expr} {pos : Nat} {failure : Failure}
      (h : grammar.Fails input expr pos failure) : Raises grammar input expr pos failure
  | attempted {expr part : Expr} {pos place : Nat} {failure : Failure}
      (h : grammar.Attempts input expr pos part place)
      (raised : Raises grammar input part place failure) : Raises grammar input expr pos failure

namespace Grammar

variable {expr : Expr} {pos : Nat} {failure : Failure}

theorem Yields.mem_raised_iff {answer : Answer Outcome} (h : grammar.Yields input expr pos answer)
    (hpos : pos ≤ input.length) (failure : Failure) :
    failure ∈ answer.raised ↔ grammar.Raises input expr pos failure := by
  obtain ⟨depth, h⟩ := h
  induction depth generalizing expr pos answer with
  | zero => cases h
  | succ depth ih =>
    rw [Grammar.mem_raised_iff hpos h]
    constructor
    · rintro (hfails | ⟨part, place, first, hattempts, hfirst, hmem⟩)
      · exact .own hfails
      · exact .attempted hattempts ((ih (hattempts.within hpos) hfirst).1 hmem)
    · rintro (hfails | ⟨hattempts, hraises⟩)
      · exact .inl hfails
      · obtain ⟨first, hfirst, -⟩ := hattempts.answered hpos h
        exact .inr ⟨_, _, first, hattempts, hfirst, (ih (hattempts.within hpos) hfirst).2 hraises⟩

theorem Raises.eq_single (h : grammar.Raises input expr pos failure) :
    ∃ place expected, failure = .single place expected := by
  induction h with
  | own h => cases h <;> exact ⟨_, _, rfl⟩
  | attempted _ _ ih => exact ih

end Grammar

/-! ## The failure of an outcome -/

namespace Failure

/-- The failure stands where one of the others does, and expects what such ones expect there. -/
structure DrawnFrom (failures : List Failure) (f : Failure) : Prop where
  position : ∃ g ∈ failures, g.position = f.position
  expected : ∀ text ∈ f.expected, ∃ g ∈ failures, g.position = f.position ∧ text ∈ g.expected

namespace DrawnFrom

variable {failures failures' : List Failure} {f g : Failure}

theorem of_mem (h : f ∈ failures) : f.DrawnFrom failures :=
  ⟨⟨f, h, rfl⟩, fun _ htext => ⟨f, h, rfl, htext⟩⟩

theorem mono (h : f.DrawnFrom failures) (hsub : failures ⊆ failures') :
    f.DrawnFrom failures' := by
  obtain ⟨⟨g, hg, hpos⟩, hexpected⟩ := h
  refine ⟨⟨g, hsub hg, hpos⟩, fun text htext => ?_⟩
  obtain ⟨g, hg, hpos, hmem⟩ := hexpected text htext
  exact ⟨g, hsub hg, hpos, hmem⟩

theorem merge (hf : f.DrawnFrom failures) (hg : g.DrawnFrom failures) :
    (f.merge g).DrawnFrom failures := by
  have hmax := position_merge f g
  refine ⟨?_, fun text htext => ?_⟩
  · rcases Nat.le_total f.position g.position with hle | hle
    · obtain ⟨h, hh, hpos⟩ := hg.position
      exact ⟨h, hh, by omega⟩
    · obtain ⟨h, hh, hpos⟩ := hf.position
      exact ⟨h, hh, by omega⟩
  · rcases mem_merge.1 htext with ⟨hle, htext⟩ | ⟨hle, htext⟩
    · obtain ⟨h, hh, hpos, hmem⟩ := hf.expected text htext
      exact ⟨h, hh, by omega, hmem⟩
    · obtain ⟨h, hh, hpos, hmem⟩ := hg.expected text htext
      exact ⟨h, hh, by omega, hmem⟩

/-- What is drawn from failures adds nothing to what they come to. -/
theorem merge_eq_of_isJoin (hf : f.DrawnFrom failures) {j : Failure}
    (hj : IsJoin (· ∈ failures) (some j)) : f.merge j = j := by
  obtain ⟨g, hg, hpos⟩ := hf.position
  have hle := hj.furthest j rfl g hg
  rcases Nat.lt_or_eq_of_le (hpos ▸ hle) with hlt | heq
  · exact merge_of_lt hlt
  · have hexpected : f.expected.union j.expected = j.expected := SortedSet.ext fun text => by
      rw [SortedSet.mem_union, or_iff_right_iff_imp, hj.expected j rfl, ← heq]
      exact hf.expected text
    rw [merge_of_eq heq, hexpected, heq]

end DrawnFrom

end Failure

mutual

/-- Whether every choice in the expression has an alternative. -/
def Expr.choicesNonempty : Expr → Bool
  | .sequence exprs => allChoicesNonempty exprs
  | .choice exprs => !exprs.isEmpty && allChoicesNonempty exprs
  | .zeroOrMore expr => expr.choicesNonempty
  | .oneOrMore expr => expr.choicesNonempty
  | .optional expr => expr.choicesNonempty
  | .followedBy expr => expr.choicesNonempty
  | .notFollowedBy expr => expr.choicesNonempty
  | .literal _ => true
  | .oneIn _ => true
  | .any => true
  | .endOfInput => true
  | .regex _ => true
  | .ruleRef _ => true

def Expr.allChoicesNonempty : List Expr → Bool
  | [] => true
  | expr :: exprs => expr.choicesNonempty && allChoicesNonempty exprs

end

namespace Answer

/-- If the value is a failure, it is drawn from those that were raised. -/
def Drawn (answer : Answer Outcome) : Prop :=
  ∀ failure, answer.value = .ok (.failure failure) → failure.DrawnFrom answer.raised

theorem drawn_of_error {name : String} {raised : List Failure} {entered : List CacheKey} :
    Drawn ⟨.error name, raised, entered⟩ := nofun

theorem drawn_of_success {stop : Nat} {node? : Option Node} {raised : List Failure}
    {entered : List CacheKey} : Drawn ⟨.ok (.success stop node?), raised, entered⟩ := nofun

theorem Drawn.after {α : Type} {rest : Answer Outcome} (h : rest.Drawn) (first : Answer α) :
    (first.followedBy rest).Drawn := fun failure hv =>
  (h failure hv).mono (List.subset_append_right _ _)

end Answer

namespace Script

variable {f : Expr → Nat → Option (Answer Outcome)}

/-- The answers to the calls of expressions without an empty choice are drawn. -/
def AnswersDrawn (f : Expr → Nat → Option (Answer Outcome)) : Prop :=
  ∀ expr pos answer, f expr pos = some answer → expr.choicesNonempty = true → answer.Drawn

variable {expr : Expr} {pos : Nat} {answer : Answer Outcome}

theorem drawn_fail {place : Nat} {expected : String}
    (ha : (fail place expected).answer? f = some answer) : answer.Drawn := by
  cases ha
  rintro failure ⟨⟩
  exact .of_mem List.mem_cons_self

theorem drawn_done {stop : Nat} {node? : Option Node}
    (ha : (done (.success stop node?)).answer? f = some answer) : answer.Drawn := by
  cases ha
  exact Answer.drawn_of_success

theorem drawn_terminal {c : Prop} [Decidable c] {stop place : Nat} {node? : Option Node}
    {expected : String}
    (ha : (if c then done (.success stop node?) else fail place expected).answer? f =
      some answer) : answer.Drawn := by
  split at ha
  · exact drawn_done ha
  · exact drawn_fail ha

theorem drawn_peek {next : Bool → Script Outcome}
    (hnext : ∀ matched rest, (next matched).answer? f = some rest → rest.Drawn)
    (ha : (peek expr pos next).answer? f = some answer) : answer.Drawn := by
  obtain ⟨first, -, ⟨name, -, rfl⟩ | ⟨outcome, rest, -, hrest, rfl⟩⟩ := answer?_peek_cases ha
  · exact Answer.drawn_of_error
  · exact (hnext _ rest hrest).after _

section
variable (hf : AnswersDrawn f) (hne : expr.choicesNonempty = true)
include hf hne

/-- A script that goes on after a match, and ends with the failure of its call or goes on after
that too. -/
theorem drawn_call {next : Outcome → Script Outcome}
    (hsuccess : ∀ stop node? rest, (next (.success stop node?)).answer? f = some rest → rest.Drawn)
    (hfailure : ∀ failure rest, (next (.failure failure)).answer? f = some rest →
      rest.Drawn ∨ rest.value = .ok (.failure failure))
    (ha : (call expr pos next).answer? f = some answer) : answer.Drawn := by
  obtain ⟨first, hfirst, ⟨name, -, rfl⟩ | ⟨outcome, rest, hv, hrest, rfl⟩⟩ := answer?_call_cases ha
  · exact Answer.drawn_of_error
  cases outcome with
  | success stop node? => exact (hsuccess stop node? rest hrest).after first
  | failure failure =>
    rcases hfailure failure rest hrest with hdrawn | hsame
    · exact hdrawn.after first
    · intro failure' hv'
      cases hsame.symm.trans hv'
      exact (hf expr pos first hfirst hne failure hv).mono (List.subset_append_left _ _)

end

section
variable (hf : AnswersDrawn f)
include hf

theorem drawn_sequence {start : Nat} {exprs : List Expr} {children : List Node}
    (hne : Expr.allChoicesNonempty exprs = true)
    (ha : (ofSequence input start exprs pos children).answer? f = some answer) :
    answer.Drawn := by
  induction exprs generalizing pos children answer with
  | nil => exact drawn_done ha
  | cons expr exprs ih =>
    simp only [Expr.allChoicesNonempty, Bool.and_eq_true] at hne
    refine drawn_call hf hne.1 (fun stop node? rest hrest => ih hne.2 hrest)
      (fun failure rest hrest => ?_) ha
    cases hrest
    exact .inr rfl

theorem drawn_repetition {start attempts : Nat} {children : List Node}
    (hne : expr.choicesNonempty = true)
    (ha : (ofRepetition input expr start attempts pos children).answer? f = some answer) :
    answer.Drawn := by
  induction attempts generalizing pos children answer with
  | zero => exact drawn_done ha
  | succ attempts ih =>
    refine drawn_call hf hne (fun stop node? rest hrest => ?_)
      (fun failure rest hrest => .inl (drawn_done hrest)) ha
    simp only at hrest
    split at hrest
    · exact drawn_done hrest
    · exact ih hrest

/-- A choice that goes on after failures, drawn from `before`, fails with what is drawn from them
and those raised by the rest. -/
theorem drawn_choice {exprs : List Expr} {index : Nat} {failure? : Option Failure}
    {before : List Failure} (hne : Expr.allChoicesNonempty exprs = true)
    (hsome : exprs ≠ [] ∨ failure? ≠ none)
    (hbefore : ∀ failure, failure? = some failure → failure.DrawnFrom before)
    {answer : Answer (Outcome × Nat)}
    (ha : (ofChoice pos exprs index failure?).answer? f = some answer) {failure : Failure}
    {last : Nat} (hv : answer.value = .ok (.failure failure, last)) :
    failure.DrawnFrom (before ++ answer.raised) := by
  induction exprs generalizing index failure? before answer with
  | nil =>
    cases ha
    cases failure? with
    | none => simp at hsome
    | some merged =>
      cases hv
      exact (hbefore _ rfl).mono (List.subset_append_left _ _)
  | cons expr exprs ih =>
    simp only [Expr.allChoicesNonempty, Bool.and_eq_true] at hne
    obtain ⟨first, hfirst, ⟨name, -, rfl⟩ | ⟨outcome, rest, hfv, hrest, rfl⟩⟩ :=
      answer?_call_cases ha
    · cases hv
    cases outcome with
    | success stop node? =>
      cases hrest
      cases hv
    | failure own =>
      have hown := hf expr pos first hfirst hne.1 own hfv
      -- the failure so far joins those drawn from, so that the induction hypothesis applies
      have hmerged : ∀ merged, Failure.mergeOption failure? (some own) = some merged →
          merged.DrawnFrom (before ++ first.raised) := by
        intro merged hmerged
        have hown := hown.mono (List.subset_append_right before first.raised)
        cases failure? with
        | none =>
          cases hmerged
          exact hown
        | some earlier =>
          cases hmerged
          exact ((hbefore earlier rfl).mono (List.subset_append_left _ _)).merge hown
      have hnone : Failure.mergeOption failure? (some own) ≠ none := by
        cases failure? <;> simp [Failure.mergeOption]
      have := ih hne.2 (.inr hnone) hmerged hrest hv
      rwa [List.append_assoc] at this

/-- All alternatives of a choice, with the outcome passed through a function that keeps
failures. -/
theorem drawn_alternatives {exprs : List Expr} {g : Outcome × Nat → Outcome}
    (hg : ∀ value failure, g value = .failure failure → value.1 = .failure failure)
    (hne : (Expr.choice exprs).choicesNonempty = true)
    (ha : ((ofChoice pos exprs 0 none).map g).answer? f = some answer) : answer.Drawn := by
  simp only [Expr.choicesNonempty, Bool.and_eq_true, Bool.not_eq_true',
    List.isEmpty_eq_false_iff] at hne
  rw [answer?_map] at ha
  obtain ⟨inner, hinner, rfl⟩ := Option.map_eq_some_iff.1 ha
  intro failure hv
  rcases hvalue : inner.value with name | ⟨outcome, last⟩
  · simp only [Answer.map, hvalue] at hv
    cases hv
  · simp only [Answer.map, hvalue, Except.map, Except.ok.injEq] at hv
    have hsame : outcome = .failure failure := hg _ _ hv
    rw [hsame] at hvalue
    have hbefore : ∀ failure, (none : Option Failure) = some failure → failure.DrawnFrom [] :=
      fun _ h => nomatch h
    exact drawn_choice hf hne.2 (.inl hne.1) hbefore hinner hvalue

/-- **A script fails with what is drawn from the failures that it raises.** -/
theorem drawn_expr (he : ∀ name, expr ≠ .ruleRef name) (hne : expr.choicesNonempty = true)
    (ha : (ofExpr input expr pos).answer? f = some answer) : answer.Drawn := by
  cases expr with
  | literal text => exact drawn_terminal ha
  | oneIn cls => exact drawn_terminal ha
  | any => exact drawn_terminal ha
  | endOfInput => exact drawn_terminal ha
  | regex pattern =>
    simp only [ofExpr, ofPattern] at ha
    split at ha
    · exact drawn_done ha
    · exact drawn_fail ha
  | sequence exprs => exact drawn_sequence hf hne ha
  | choice exprs => exact drawn_alternatives hf (fun _ _ h => h) hne ha
  | zeroOrMore inner =>
    have hne : inner.choicesNonempty = true := hne
    exact drawn_repetition hf hne ha
  | oneOrMore inner =>
    have hne : inner.choicesNonempty = true := hne
    refine drawn_call hf hne (fun stop node? rest hrest => ?_) (fun failure rest hrest => ?_) ha
    · simp only at hrest
      split at hrest
      · exact drawn_done hrest
      · exact drawn_repetition hf hne hrest
    · cases hrest
      exact .inr rfl
  | optional inner =>
    have hne : inner.choicesNonempty = true := hne
    refine drawn_call hf hne (fun stop node? rest hrest => ?_) (fun failure rest hrest => ?_) ha
    · exact drawn_done hrest
    · exact .inl (drawn_done hrest)
  | followedBy inner => exact drawn_peek (fun matched rest hrest => drawn_terminal hrest) ha
  | notFollowedBy inner =>
    refine drawn_peek (fun matched rest hrest => ?_) ha
    cases matched with
    | true => exact drawn_fail hrest
    | false => exact drawn_done hrest
  | ruleRef name => exact absurd rfl (he name)

theorem drawn_body {name : String} {body : Expr} (hne : body.choicesNonempty = true)
    (ha : (ofBody name body pos).answer? f = some answer) : answer.Drawn := by
  have failed {alternative : Option Nat} {outcome : Outcome} {failure : Failure}
      (h : Context.ruleOutcome name pos alternative outcome = .failure failure) :
      outcome = .failure failure := by
    cases outcome with
    | success stop node? => cases h
    | failure own => exact h
  unfold ofBody at ha
  split at ha
  · exact drawn_alternatives hf (fun value failure h => failed h) hne ha
  · rw [answer?_map] at ha
    obtain ⟨inner, hinner, rfl⟩ := Option.map_eq_some_iff.1 ha
    have hdrawn : inner.Drawn := by
      refine drawn_call hf hne (fun stop node? rest hrest => drawn_done hrest)
        (fun failure rest hrest => ?_) hinner
      cases hrest
      exact .inr rfl
    intro failure hv
    refine hdrawn failure ?_
    rcases hvalue : inner.value with undefined | outcome
    · simp only [Answer.map, hvalue] at hv
      cases hv
    · simp only [Answer.map, hvalue, Except.map, Except.ok.injEq] at hv
      rw [failed hv]

end

end Script

/-- **The failure of an answer is drawn from those that were raised**, if no choice is empty. -/
theorem Grammar.Yields.drawn (hrules : ∀ rule ∈ grammar.rules, rule.body.choicesNonempty = true)
    {expr : Expr} {pos : Nat} {answer : Answer Outcome}
    (h : grammar.Yields input expr pos answer) (hne : expr.choicesNonempty = true) :
    answer.Drawn := by
  obtain ⟨depth, h⟩ := h
  induction depth generalizing expr pos answer with
  | zero => cases h
  | succ depth ih =>
    have hf : Script.AnswersDrawn (grammar.plain? input depth) := fun _ _ _ ha hne => ih hne ha
    rcases expr.ruleRef_or_not with ⟨name, rfl⟩ | he
    · cases hr : grammar.rule? name with
      | none =>
        rw [plain?_undefined hr] at h
        cases h
        exact Answer.drawn_of_error
      | some rule =>
        rw [plain?_ruleRef hr] at h
        obtain ⟨inner, hinner, rfl⟩ := Option.map_eq_some_iff.1 h
        have hbody := hrules rule (List.mem_of_find?_eq_some hr)
        have hdrawn := Script.drawn_body hf hbody hinner
        exact hdrawn
    · rw [plain?_succ he] at h
      exact Script.drawn_expr hf he hne h

/-! ## The engine -/

theorem Context.evaluate_furthest (context : Context) {depth : Nat} {expr : Expr} {pos : Nat}
    {session : Session}
    (hs : context.options.memoize = true →
      session.cache.Truthful context.grammar context.input)
    (hpos : pos ≤ context.input.length)
    (hx : ¬ Exhausted (context.evaluate depth expr pos session).1) :
    Failure.IsJoin
      (fun f => session.furthest? = some f ∨ context.grammar.Raises context.input expr pos f)
      (context.evaluate depth expr pos session).2.furthest? := by
  have h := context.evaluate_truthful depth expr pos session hs
  obtain ⟨answer, hy, -, hf⟩ := h.answered.resolve_left hx
  rw [hf]
  refine ((Failure.isJoin_toList _).merge (Failure.isJoin_join answer.raised)).congr fun f => ?_
  rw [hy.mem_raised_iff hpos]

/-- **The furthest failure is what the failures raised come to**: in a session, together with the
one that it held before; in a parse, on their own. This holds with memoization off and over every
cache whose entries keep answers. A parse that fails does so with this failure, and it expects
something, if no choice of the grammar is empty. -/
theorem furthest_isJoin_raised (grammar : Grammar) (input : Input) (options : Options) :
    (∀ (expr : Expr) (cursor : Cursor input) (session : Session),
      let run := Context.matchExpr ⟨grammar, input, options⟩ expr cursor session
      (options.memoize = true → session.cache.Truthful grammar input) → ¬ Exhausted run.1 →
      Failure.IsJoin
        (fun f => session.furthest? = some f ∨ grammar.Raises input expr cursor.position f)
        run.2.furthest?) ∧
    ∀ (start : String) (cache : Cache),
      let result := (Parser.parseWithCache ⟨grammar, options⟩ start input cache).result
      (∀ tree consumed furthest?, result = .ok (.partialMatch tree consumed furthest?) →
        Failure.IsJoin (grammar.Raises input (.ruleRef start) 0) furthest?) ∧
      ((∀ rule ∈ grammar.rules, rule.body.choicesNonempty = true) →
        ∀ failure, result = .ok (.failed failure) →
          Failure.IsJoin (grammar.Raises input (.ruleRef start) 0) (some failure) ∧
          ∃ text, text ∈ failure.expected) := by
  refine ⟨fun expr cursor session hs hx => ?_, fun start cache => ⟨?_, ?_⟩⟩
  · exact Context.evaluate_furthest ⟨grammar, input, options⟩ hs cursor.le_length hx
  · intro tree consumed furthest? hresult
    obtain ⟨answer, outcome, hy, -, heq⟩ := Parser.parse_yields hresult
    have hjoin := (Failure.isJoin_join answer.raised).congr (hy.mem_raised_iff (Nat.zero_le _))
    cases outcome with
    | failure failure => cases heq
    | success stop node? =>
      simp only [Parser.resultOf] at heq
      split at heq
      · cases heq
      · cases heq
        exact hjoin
  · intro hrules failure hresult
    obtain ⟨answer, outcome, hy, hv, heq⟩ := Parser.parse_yields hresult
    cases outcome with
    | success stop node? =>
      simp only [Parser.resultOf] at heq
      split at heq <;> cases heq
    | failure own =>
      -- the failure of the start rule is drawn from those raised, so merging it adds nothing
      have hdrawn := hy.drawn hrules rfl own hv
      obtain ⟨g, hg, -⟩ := hdrawn.position
      have hjoin := Failure.isJoin_join answer.raised
      cases hfurthest : Failure.join answer.raised with
      | none => exact absurd hg ((hfurthest ▸ hjoin).none_iff.1 rfl g)
      | some furthest =>
        rw [hfurthest] at hjoin heq
        simp only [Parser.resultOf, Option.map_some, Option.getD_some,
          hdrawn.merge_eq_of_isJoin hjoin, ParseResult.failed.injEq] at heq
        subst heq
        obtain ⟨f, hf, hpos⟩ := hjoin.attained failure rfl
        obtain ⟨place, text, rfl⟩ := ((hy.mem_raised_iff (Nat.zero_le _) f).1 hf).eq_single
        refine ⟨hjoin.congr (hy.mem_raised_iff (Nat.zero_le _)), text, ?_⟩
        exact (hjoin.expected failure rfl text).2 ⟨_, hf, hpos, SortedSet.mem_singleton.2 rfl⟩

/-- A keyword that goes on as an identifier: as a keyword it fails after its letters, further than
the failure that the session held before; as an identifier it stops at the blank. -/
theorem furthest_isJoin_raised_identifier :
    let raises (start : String) :=
      Sample.identifiers.Raises (.ofString "if1 ") (.ruleRef start) 0
    let afterKeyword := Failure.single 2 "not identifier character"
    Failure.IsJoin (fun f => some (.single 1 "x") = some f ∨ raises "keyword" f)
      (some afterKeyword) ∧
    Failure.IsJoin (raises "ident") (some (.single 3 "identifier character")) ∧
    Failure.IsJoin (raises "keyword") (some afterKeyword) := by
  obtain ⟨hsession, hparse⟩ := furthest_isJoin_raised Sample.identifiers (.ofString "if1 ") {}
  have hident : ∃ tree,
      (Parser.parseWithCache ⟨Sample.identifiers, {}⟩ "ident" (.ofString "if1 ") {}).result =
        .ok (.partialMatch tree 3 (some (.single 3 "identifier character"))) := ⟨_, rfl⟩
  have hkeyword :
      (Parser.parseWithCache ⟨Sample.identifiers, {}⟩ "keyword" (.ofString "if1 ") {}).result =
        .ok (.failed (.single 2 "not identifier character")) := rfl
  obtain ⟨tree, hident⟩ := hident
  refine ⟨?_, (hparse "ident" {}).1 tree 3 _ hident,
    ((hparse "keyword" {}).2 (by decide) _ hkeyword).1⟩
  refine hsession (.ruleRef "keyword") .start { furthest? := some (.single 1 "x") }
    (fun _ => Cache.sound_empty.truthful) ?_
  rintro ⟨limit, place, he⟩
  cases he

end Packrat
