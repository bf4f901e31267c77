import Packrat.Proofs.Coverage
import Packrat.Proofs.Spans
import Packrat.Sample.Grammars

/-!
# Ordered choice is associative

Of two expressions that are tried in order, the second counts only if the first fails, and then its
failure is merged with that of the first. On answers this is `OrElse`. It is associative
(`orElse_assoc`) because merging is, and the empty choice is neutral (`orElse_blank`,
`blank_orElse`) because no failure lies before the position where it was met.

A choice is the `OrElse` of its alternatives (`Grammar.yields_choice_append`). A choice among the
alternatives of another may therefore give way to its own alternatives: the answer is the same, with
all that is raised on the way (`Grammar.yields_choice_flatten`), and so are the matches
(`Context.matchExpr_choice_flatten`).
-/

set_option autoImplicit false

namespace Packrat

/-! ## The failure of an empty choice -/

namespace SortedSet

variable {α : Type} [Ord α] [Std.LawfulEqOrd α] [Std.TransOrd α]

theorem union_empty (s : SortedSet α) : s.union ∅ = s := ext fun x => by simp

theorem empty_union (s : SortedSet α) : (∅ : SortedSet α).union s = s := ext fun x => by simp

end SortedSet

namespace Failure

variable {pos : Nat} {failure : Failure}

/-- The failure at a position that expects nothing. -/
def blank (pos : Nat) : Failure := ⟨pos, ∅⟩

theorem merge_blank (h : pos ≤ failure.position) : failure.merge (blank pos) = failure := by
  by_cases hpos : pos = failure.position
  · rw [merge_of_eq hpos.symm]
    show (⟨failure.position, failure.expected.union ∅⟩ : Failure) = failure
    rw [SortedSet.union_empty]
  · apply merge_of_gt
    show pos < failure.position
    omega

theorem blank_merge (h : pos ≤ failure.position) : (blank pos).merge failure = failure := by
  by_cases hpos : pos = failure.position
  · rw [merge_of_eq hpos]
    subst hpos
    show (⟨failure.position, (∅ : SortedSet String).union failure.expected⟩ : Failure) = failure
    rw [SortedSet.empty_union]
  · apply merge_of_lt
    show pos < failure.position
    omega

end Failure

/-! ## One expression or else another -/

/-- The outcome of an alternative after earlier ones have failed: if it fails too, the failures are
merged. -/
def Outcome.after (failure : Failure) : Outcome → Outcome
  | success stop node? => success stop node?
  | .failure f => .failure (failure.merge f)

theorem Outcome.after_after (f g : Failure) (outcome : Outcome) :
    (outcome.after g).after f = outcome.after (f.merge g) := by
  cases outcome with
  | success stop node? => rfl
  | failure h => simp only [after, Failure.merge_assoc]

namespace Answer

/-- The answer is a failure. -/
def FailsWith (answer : Answer Outcome) (failure : Failure) : Prop :=
  answer.value = .ok (.failure failure)

/-- The answer of a second alternative after that of a first one, which has failed. -/
def orElse (first : Answer Outcome) (failure : Failure) (second : Answer Outcome) :
    Answer Outcome :=
  first.followedBy (second.map (Outcome.after failure))

variable {first second : Answer Outcome} {f g : Failure}

theorem orElse_failsWith_iff :
    (first.orElse f second).FailsWith g ↔ ∃ h, second.FailsWith h ∧ g = f.merge h := by
  unfold FailsWith orElse followedBy map
  rcases second.value with name | ⟨stop, node?⟩ | h <;> simp [Except.map, Outcome.after, eq_comm]

theorem map_after_of_ends (hends : ∀ g, ¬ first.FailsWith g) :
    first.map (Outcome.after f) = first := by
  obtain ⟨value, raised, entered⟩ := first
  rcases value with name | ⟨stop, node?⟩ | g
  · rfl
  · rfl
  · exact absurd rfl (hends g)

theorem map_after_orElse (f g : Failure) (first second : Answer Outcome) :
    (first.orElse g second).map (Outcome.after f) =
      first.followedBy (second.map (Outcome.after (f.merge g))) := by
  unfold orElse followedBy map
  rcases second.value with name | outcome
  · rfl
  · simp only [Except.map, Outcome.after_after]

theorem orElse_orElse (f g : Failure) (first second third : Answer Outcome) :
    (first.orElse f second).orElse (f.merge g) third =
      first.orElse f (second.orElse g third) := by
  rw [orElse, orElse.eq_1 first f (second.orElse g third), map_after_orElse]
  unfold orElse followedBy
  simp only [map, List.append_assoc]

end Answer

/-- The answers of two expressions of which the second is tried where the first fails. -/
inductive OrElse (A B : Answer Outcome → Prop) : Answer Outcome → Prop
  | first {answer : Answer Outcome} (h : A answer) (hends : ∀ f, ¬ answer.FailsWith f) :
      OrElse A B answer
  | second {first second : Answer Outcome} {f : Failure} (h : A first) (hfails : first.FailsWith f)
      (hsecond : B second) : OrElse A B (first.orElse f second)

section
variable {A B C : Answer Outcome → Prop} {answer : Answer Outcome}

/-- **Ordered choice is associative.** -/
theorem orElse_assoc : OrElse (OrElse A B) C answer ↔ OrElse A (OrElse B C) answer := by
  constructor
  · intro h
    cases h with
    | first h hends =>
      cases h with
      | first h _ => exact .first h hends
      | second h hfails hsecond =>
        refine .second h hfails (.first hsecond fun g hg => ?_)
        exact hends _ (Answer.orElse_failsWith_iff.2 ⟨g, hg, rfl⟩)
    | second h hfails hthird =>
      cases h with
      | first _ hends => exact absurd hfails (hends _)
      | second h hfirst hsecond =>
        obtain ⟨g, hg, rfl⟩ := Answer.orElse_failsWith_iff.1 hfails
        rw [Answer.orElse_orElse]
        exact .second h hfirst (.second hsecond hg hthird)
  · intro h
    cases h with
    | first h hends => exact .first (.first h hends) hends
    | second h hfirst hrest =>
      cases hrest with
      | first hsecond hends =>
        refine .first (.second h hfirst hsecond) fun g hg => ?_
        obtain ⟨f, hf, -⟩ := Answer.orElse_failsWith_iff.1 hg
        exact hends f hf
      | second hsecond hg hthird =>
        rw [← Answer.orElse_orElse]
        exact .second (.second h hfirst hsecond) (Answer.orElse_failsWith_iff.2 ⟨_, hg, rfl⟩)
          hthird

theorem OrElse.congr {A' B' : Answer Outcome → Prop} (ha : ∀ answer, A answer ↔ A' answer)
    (hb : ∀ answer, B answer ↔ B' answer) : OrElse A B answer ↔ OrElse A' B' answer := by
  obtain rfl : A = A' := funext fun answer => propext (ha answer)
  obtain rfl : B = B' := funext fun answer => propext (hb answer)
  exact Iff.rfl

end

/-- The answer of an empty choice. -/
def Answer.blank (pos : Nat) : Answer Outcome := { value := .ok (.failure (.blank pos)) }

section
variable {A : Answer Outcome → Prop} {answer : Answer Outcome} {pos : Nat}
  (hfails : ∀ answer f, A answer → answer.FailsWith f → pos ≤ f.position)
include hfails

/-- The empty choice is neutral after answers that do not fail before the position. -/
theorem orElse_blank : OrElse A (· = .blank pos) answer ↔ A answer := by
  have blank_after {first : Answer Outcome} {f : Failure} (h : A first) (hf : first.FailsWith f) :
      first.orElse f (.blank pos) = first := by
    have hvalue : first.value = .ok (.failure f) := hf
    unfold Answer.orElse Answer.followedBy Answer.map Answer.blank
    simp only [Except.map, Outcome.after, Failure.merge_blank (hfails _ _ h hf), List.append_nil,
      ← hvalue]
  constructor
  · intro h
    cases h with
    | first h _ => exact h
    | second h hf hblank =>
      subst hblank
      rwa [blank_after h hf]
  · intro h
    by_cases hf : ∃ f, answer.FailsWith f
    · obtain ⟨f, hf⟩ := hf
      rw [← blank_after h hf]
      exact .second h hf rfl
    · exact .first h fun f hf' => hf ⟨f, hf'⟩

theorem blank_orElse : OrElse (· = .blank pos) A answer ↔ A answer := by
  have after_blank {second : Answer Outcome} (h : A second) :
      (Answer.blank pos).orElse (.blank pos) second = second := by
    obtain ⟨value, raised, entered⟩ := second
    unfold Answer.orElse Answer.followedBy Answer.map Answer.blank
    rcases value with name | ⟨stop, node?⟩ | f
    · rfl
    · rfl
    · simp only [Except.map, Outcome.after, Failure.blank_merge (hfails _ _ h rfl),
        List.nil_append]
  constructor
  · intro h
    cases h with
    | first h hends =>
      subst h
      exact absurd rfl (hends _)
    | second h hf hsecond =>
      subst h
      cases hf
      rwa [after_blank hsecond]
  · intro h
    rw [← after_blank h]
    exact .second rfl rfl h

end

/-! ## The answers of choices -/

section
variable {grammar : Grammar} {input : Input} {pos : Nat} {answer : Answer Outcome}

namespace Script

/-- The answers of the rest of a choice after the failures `failure?`. -/
theorem yields_alternatives_cons (expr : Expr) (exprs : List Expr) (index : Nat)
    (failure? : Option Failure) :
    ((ofChoice pos (expr :: exprs) index failure?).map Prod.fst).Yields grammar input answer ↔
      ∃ first, grammar.Yields input expr pos first ∧
        ((∀ f, ¬ first.FailsWith f) ∧ answer = first ∨
          ∃ f rest, first.FailsWith f ∧
            ((ofChoice pos exprs (index + 1) (Failure.mergeOption failure? (some f))).map
              Prod.fst).Yields grammar input rest ∧ answer = first.followedBy rest) := by
  show (call expr pos _).Yields grammar input answer ↔ _
  rw [yields_call_iff]
  apply exists_congr
  intro first
  apply and_congr_right
  intro _
  unfold Answer.FailsWith
  rcases hv : first.value with name | ⟨stop, node?⟩ | f
  · have same : (⟨.error name, first.raised, first.entered⟩ : Answer Outcome) = first := by
      rw [← hv]
    simp [same]
  · have same : first.followedBy { value := .ok (.success stop node?) } = first := by
      unfold Answer.followedBy
      rw [← hv, List.append_nil, List.append_nil]
    simp [map, yields_done_iff, same]
  · simp

end Script

namespace Grammar

theorem Yields.le_of_failsWith {expr : Expr} (h : grammar.Yields input expr pos answer)
    (hpos : pos ≤ input.length) {f : Failure} (hf : answer.FailsWith f) : pos ≤ f.position :=
  (h.spans hpos hf).1

theorem yields_choice_iff_script {exprs : List Expr} :
    grammar.Yields input (.choice exprs) pos answer ↔
      ((Script.ofChoice pos exprs 0 none).map Prod.fst).Yields grammar input answer :=
  yields_iff_script nofun

theorem yields_choice_nil :
    grammar.Yields input (.choice []) pos answer ↔ answer = .blank pos := by
  rw [yields_choice_iff_script]
  exact Script.yields_done_iff

/-- The rest of a choice comes to what a choice among the rest would, after the failures so far. -/
def Resumes (grammar : Grammar) (input : Input) (pos : Nat) (exprs : List Expr) : Prop :=
  ∀ index f answer, pos ≤ f.position →
    (((Script.ofChoice pos exprs index (some f)).map Prod.fst).Yields grammar input answer ↔
      ∃ rest, grammar.Yields input (.choice exprs) pos rest ∧ answer = rest.map (Outcome.after f))

theorem Resumes.yields_cons {exprs : List Expr} (h : grammar.Resumes input pos exprs)
    (hpos : pos ≤ input.length) (expr : Expr) :
    grammar.Yields input (.choice (expr :: exprs)) pos answer ↔
      OrElse (grammar.Yields input expr pos) (grammar.Yields input (.choice exprs) pos) answer := by
  rw [yields_choice_iff_script, Script.yields_alternatives_cons]
  constructor
  · rintro ⟨first, hfirst, ⟨hends, rfl⟩ | ⟨f, rest, hf, hrest, rfl⟩⟩
    · exact .first hfirst hends
    · obtain ⟨second, hsecond, rfl⟩ := (h _ f rest (hfirst.le_of_failsWith hpos hf)).1 hrest
      exact .second hfirst hf hsecond
  · intro horElse
    cases horElse with
    | first hfirst hends => exact ⟨answer, hfirst, .inl ⟨hends, rfl⟩⟩
    | @second first second f hfirst hf hsecond =>
      refine ⟨first, hfirst, .inr ⟨f, second.map (Outcome.after f), hf, ?_, rfl⟩⟩
      exact (h _ f _ (hfirst.le_of_failsWith hpos hf)).2 ⟨second, hsecond, rfl⟩

/-- Every choice can be resumed. The induction is on the alternatives that are left, for all
failures so far. -/
theorem resumes (hpos : pos ≤ input.length) (exprs : List Expr) :
    grammar.Resumes input pos exprs := by
  induction exprs with
  | nil =>
    intro index f answer hf
    show (Script.done (Outcome.failure f)).Yields grammar input answer ↔ _
    simp only [Script.yields_done_iff, yields_choice_nil, exists_eq_left, Answer.blank, Answer.map,
      Except.map, Outcome.after, Failure.merge_blank hf]
  | cons expr exprs ih =>
    intro index f answer hf
    rw [Script.yields_alternatives_cons]
    constructor
    · rintro ⟨first, hfirst, ⟨hends, rfl⟩ | ⟨g, rest, hg, hrest, rfl⟩⟩
      · refine ⟨answer, (ih.yields_cons hpos expr).2 (.first hfirst hends), ?_⟩
        exact (Answer.map_after_of_ends hends).symm
      · have hle := hfirst.le_of_failsWith hpos hg
        -- failures do not lie before the position, and so neither does their merge
        have hmerged : pos ≤ (f.merge g).position := by
          rw [Failure.position_merge]
          omega
        obtain ⟨second, hsecond, rfl⟩ := (ih _ _ rest hmerged).1 hrest
        refine ⟨first.orElse g second, (ih.yields_cons hpos expr).2 (.second hfirst hg hsecond), ?_⟩
        exact (Answer.map_after_orElse f g first second).symm
    · rintro ⟨whole, hwhole, rfl⟩
      cases (ih.yields_cons hpos expr).1 hwhole with
      | first hfirst hends =>
        exact ⟨whole, hfirst, .inl ⟨hends, Answer.map_after_of_ends hends⟩⟩
      | @second first second g hfirst hg hsecond =>
        have hle := hfirst.le_of_failsWith hpos hg
        have hmerged : pos ≤ (f.merge g).position := by
          rw [Failure.position_merge]
          omega
        refine ⟨first, hfirst, .inr ⟨g, second.map (Outcome.after (f.merge g)), hg, ?_, ?_⟩⟩
        · exact (ih _ _ _ hmerged).2 ⟨second, hsecond, rfl⟩
        · exact Answer.map_after_orElse f g first second

section
variable (hpos : pos ≤ input.length)
include hpos

theorem yields_choice_cons (expr : Expr) (exprs : List Expr) :
    grammar.Yields input (.choice (expr :: exprs)) pos answer ↔
      OrElse (grammar.Yields input expr pos) (grammar.Yields input (.choice exprs) pos) answer :=
  (resumes hpos exprs).yields_cons hpos expr

theorem yields_choice_singleton (expr : Expr) :
    grammar.Yields input (.choice [expr]) pos answer ↔ grammar.Yields input expr pos answer := by
  rw [yields_choice_cons hpos]
  calc
    _ ↔ OrElse (grammar.Yields input expr pos) (· = .blank pos) answer :=
        OrElse.congr (fun _ => Iff.rfl) fun _ => yields_choice_nil
    _ ↔ _ := orElse_blank fun _ _ h hf => Yields.le_of_failsWith h hpos hf

theorem yields_choice_append (exprs exprs' : List Expr) :
    grammar.Yields input (.choice (exprs ++ exprs')) pos answer ↔
      OrElse (grammar.Yields input (.choice exprs) pos)
        (grammar.Yields input (.choice exprs') pos) answer := by
  induction exprs generalizing answer with
  | nil =>
    rw [List.nil_append]
    calc
      _ ↔ OrElse (· = .blank pos) (grammar.Yields input (.choice exprs') pos) answer :=
          (blank_orElse fun _ _ h hf => Yields.le_of_failsWith h hpos hf).symm
      _ ↔ _ := OrElse.congr (fun _ => yields_choice_nil.symm) fun _ => Iff.rfl
  | cons expr exprs ih =>
    rw [List.cons_append, yields_choice_cons hpos]
    calc
      _ ↔ OrElse (grammar.Yields input expr pos)
            (OrElse (grammar.Yields input (.choice exprs) pos)
              (grammar.Yields input (.choice exprs') pos)) answer :=
          OrElse.congr (fun _ => Iff.rfl) fun _ => ih
      _ ↔ _ := orElse_assoc.symm
      _ ↔ _ := OrElse.congr (fun _ => (yields_choice_cons hpos expr exprs).symm) fun _ => Iff.rfl

/-- **A choice among the alternatives of another gives way to its own.** -/
theorem yields_choice_flatten (before inner after : List Expr) :
    grammar.Yields input (.choice (before ++ [.choice inner] ++ after)) pos answer ↔
      grammar.Yields input (.choice (before ++ inner ++ after)) pos answer := by
  have hinner (answer : Answer Outcome) :
      grammar.Yields input (.choice (before ++ [.choice inner])) pos answer ↔
        grammar.Yields input (.choice (before ++ inner)) pos answer := by
    rw [yields_choice_append hpos, yields_choice_append hpos]
    exact OrElse.congr (fun _ => Iff.rfl) fun _ => yields_choice_singleton hpos _
  rw [yields_choice_append hpos, yields_choice_append hpos (before ++ inner)]
  exact OrElse.congr hinner fun _ => Iff.rfl

end

end Grammar

end

/-! ## Matches -/

namespace Context

/-- **Nested choices can be flattened.** If a match of a choice is not exhausted that has another
choice among its alternatives, or a match of the choice in which the alternatives of the inner one
stand in its place, then with enough depth neither is. Both then return the same and have met the
same failures. -/
theorem matchExpr_choice_flatten (grammar : Grammar) (input : Input)
    (before inner after : List Expr) (cursor : Cursor input) :
    let nested := Expr.choice (before ++ [.choice inner] ++ after)
    let flat := Expr.choice (before ++ inner ++ after)
    let run (options : Options) (expr : Expr) := matchExpr ⟨grammar, input, options⟩ expr cursor {}
    (∃ options, ¬ Exhausted (run options nested).1 ∨ ¬ Exhausted (run options flat).1) →
      ∃ depth, ∀ options : Options, depth ≤ options.maxDepth →
        ¬ Exhausted (run options nested).1 ∧
        (run options nested).1 = (run options flat).1 ∧
        (run options nested).2.furthest? = (run options flat).2.furthest? := by
  intro nested flat run h
  have hempty : ({} : Session).cache.Sound grammar input := Cache.sound_empty
  have hsame (answer : Answer Outcome) :
      grammar.Yields input nested cursor.position answer ↔
        grammar.Yields input flat cursor.position answer :=
    Grammar.yields_choice_flatten cursor.le_length before inner after
  obtain ⟨answer, hnested⟩ : ∃ answer, grammar.Yields input nested cursor.position answer := by
    obtain ⟨options, hx | hx⟩ := h
    · obtain ⟨answer, hy, -⟩ := evaluate_yields hempty hx
      exact ⟨answer, hy⟩
    · obtain ⟨answer, hy, -⟩ := evaluate_yields hempty hx
      exact ⟨answer, (hsame answer).2 hy⟩
  obtain ⟨d, hd⟩ := evaluate_of_yields hnested
  obtain ⟨d', hd'⟩ := evaluate_of_yields ((hsame answer).1 hnested)
  refine ⟨max d d', fun options hdepth => ?_⟩
  obtain ⟨hr, hf⟩ := hd options.maxDepth (by omega) options {} hempty
  obtain ⟨hr', hf'⟩ := hd' options.maxDepth (by omega) options {} hempty
  have hr : (run options nested).1 = answer.result := hr
  have hr' : (run options flat).1 = answer.result := hr'
  rw [hr, hr']
  exact ⟨answer.not_exhausted, rfl, hf.trans hf'.symm⟩

/-- Two alternatives stand in a choice of their own, and one of them fails too early to be
reported. -/
theorem matchExpr_choice_flatten_literals :
    let inner := [Expr.literal "ax", .literal "b"]
    let nested := Expr.choice ([.literal "ac"] ++ [.choice inner] ++ [.literal "ab"])
    let flat := Expr.choice ([.literal "ac"] ++ inner ++ [.literal "ab"])
    let run (options : Options) (expr : Expr) :=
      matchExpr ⟨Sample.identifiers, .ofString "a1", options⟩ expr .start {}
    (run {} nested).1 = .ok (.failure ⟨1, .ofList ["\"ab\"", "\"ac\"", "\"ax\""]⟩) ∧
      ∃ depth, ∀ options : Options, depth ≤ options.maxDepth →
        ¬ Exhausted (run options nested).1 ∧
        (run options nested).1 = (run options flat).1 ∧
        (run options nested).2.furthest? = (run options flat).2.furthest? := by
  intro inner nested flat run
  have hnested : (run {} nested).1 =
      .ok (.failure ⟨1, .ofList ["\"ab\"", "\"ac\"", "\"ax\""]⟩) := rfl
  have hx : ¬ Exhausted (run {} nested).1 := hnested ▸ not_exhausted_ok
  exact ⟨hnested, matchExpr_choice_flatten Sample.identifiers (.ofString "a1") [.literal "ac"]
    inner [.literal "ab"] .start ⟨{}, .inl hx⟩⟩

end Context

end Packrat
